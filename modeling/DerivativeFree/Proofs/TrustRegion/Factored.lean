import DerivativeFree.Proofs.TrustRegion.Basis
import DerivativeFree.Proofs.TrustRegion.Leftovers

/-!
# The factorization of the active gradients

The basis and the pivots are what a factorization of the gradients of the active constraints
leaves: the column at a position is orthogonal to the gradients before it, and its inner
product with the gradient at its own position is the pivot, which is not zero (`Factored`).
Every revision of the active set keeps this (`Factored.revise`).

So there is always a direction to go on with.  The one of the second stage is not zero
(`Factored.revise_moves`), and along the one of the first stage the violations of all active
constraints fall at unit rate (`Factored.revise_steady`).
-/

namespace DerivativeFree

set_option autoImplicit false

variable {α : Type} [EuclideanField α] {n m : Nat}

namespace Workspace

variable {model : LinearModel α n m} {workspace next : Workspace α n m} {k : Nat}

/-- The basis and the pivots factor the gradients of the active constraints. -/
structure Factored (model : LinearModel α n m) (workspace : Workspace α n m) : Prop where
  ortho : OrthonormalColumns workspace.basis
  triangular : ∀ i < workspace.active, ∀ j, i ≤ j →
    dot (workspace.basisAt j) (workspace.gradientAt model i) =
      if j = i then entry workspace.pivots i else 0
  pivot_ne_zero : ∀ i < workspace.active, entry workspace.pivots i ≠ 0
  few : workspace.active ≤ n
  room : workspace.active ≤ workspace.considered
  inside : workspace.incoming < workspace.considered
  most : workspace.considered ≤ m + 1

/-! ## Positions -/

omit [EuclideanField α] in
theorem gradientAt_swap (workspace : Workspace α n m) {i j : Nat} (left : i < m + 1)
    (right : j < m + 1) (k : Nat) :
    gradientAt { workspace with order := workspace.order.swapIfInBounds i j } model k =
      workspace.gradientAt model (Equiv.swap i j k) := by
  simp only [gradientAt, constraintAt, getElem?_swapIfInBounds workspace.order left right]

theorem entry_setIfInBounds {size : Nat} (v : Vector α size) {i : Nat} (inside : i < size)
    (value : α) (j : Nat) :
    entry (v.setIfInBounds i value) j = if i = j then value else entry v j := by
  simp only [entry, getD_setIfInBounds, inside, and_true]

/-! ## Exchanges -/

/-- The pivot that an exchange leaves at the first of the two positions. -/
def joinedPivot (model : LinearModel α n m) (workspace : Workspace α n m) (k : Nat) : α :=
  Scalar.sqrt (dot (workspace.basisAt k) (workspace.gradientAt model (k + 1)) *
    dot (workspace.basisAt k) (workspace.gradientAt model (k + 1)) +
      entry workspace.pivots (k + 1) * entry workspace.pivots (k + 1))

/-- The columns at the two positions after an exchange. -/
def exchangedColumns (model : LinearModel α n m) (workspace : Workspace α n m) (k : Nat) :
    Vector α n × Vector α n :=
  rotate (entry workspace.pivots (k + 1) / workspace.joinedPivot model k)
    (dot (workspace.basisAt k) (workspace.gradientAt model (k + 1)) /
      workspace.joinedPivot model k)
    (workspace.basisAt (k + 1)) (workspace.basisAt k)

theorem basisAt_exchange (workspace : Workspace α n m) (inside : k + 1 < n) (j : Nat) :
    (exchange model workspace k).basisAt j =
      if j = k then (workspace.exchangedColumns model k).1
      else if j = k + 1 then (workspace.exchangedColumns model k).2
      else workspace.basisAt j :=
  columnAt_replacePair workspace.basis inside _ _ j

theorem pivot_exchange (workspace : Workspace α n m) (inside : k < m) (i : Nat) :
    entry (exchange model workspace k).pivots i =
      if k = i then workspace.joinedPivot model k
      else if k + 1 = i then
        entry workspace.pivots (k + 1) / workspace.joinedPivot model k * entry workspace.pivots k
      else entry workspace.pivots i := by
  simp only [exchange]
  rw [entry_setIfInBounds _ (Nat.lt_succ_of_lt inside),
    entry_setIfInBounds _ (Nat.succ_lt_succ inside)]
  rfl

theorem gradientAt_exchange (workspace : Workspace α n m) (inside : k < m) (i : Nat) :
    (exchange model workspace k).gradientAt model i =
      workspace.gradientAt model (Equiv.swap k (k + 1) i) :=
  gradientAt_swap workspace (Nat.lt_succ_of_lt inside) (Nat.succ_lt_succ inside) i

theorem joinedPivot_spec (model : LinearModel α n m)
    (nonzero : entry workspace.pivots (k + 1) ≠ 0) :
    0 < workspace.joinedPivot model k ∧
      workspace.joinedPivot model k * workspace.joinedPivot model k =
        dot (workspace.basisAt k) (workspace.gradientAt model (k + 1)) *
            dot (workspace.basisAt k) (workspace.gradientAt model (k + 1)) +
          entry workspace.pivots (k + 1) * entry workspace.pivots (k + 1) :=
  rotation_length _ nonzero

theorem dot_exchange (workspace : Workspace α n m) (inside : k + 1 < n) (j : Nat)
    (v : Vector α n) :
    dot ((exchange model workspace k).basisAt j) v =
      if j = k then
        entry workspace.pivots (k + 1) / workspace.joinedPivot model k *
            dot (workspace.basisAt (k + 1)) v +
          dot (workspace.basisAt k) (workspace.gradientAt model (k + 1)) /
            workspace.joinedPivot model k * dot (workspace.basisAt k) v
      else if j = k + 1 then
        entry workspace.pivots (k + 1) / workspace.joinedPivot model k *
            dot (workspace.basisAt k) v -
          dot (workspace.basisAt k) (workspace.gradientAt model (k + 1)) /
            workspace.joinedPivot model k * dot (workspace.basisAt (k + 1)) v
      else dot (workspace.basisAt j) v := by
  rw [basisAt_exchange workspace inside]
  split_ifs
  · simp only [exchangedColumns, rotate, add_dot, smul_dot]
  · simp only [exchangedColumns, rotate, sub_dot, smul_dot]
  · rfl

/-- The rotation takes the component of the second gradient to its own column. -/
theorem Factored.dot_exchange_first (factored : workspace.Factored model)
    (inside : k + 1 < workspace.active) {j : Nat} (after : k ≤ j) :
    dot ((exchange model workspace k).basisAt j) (workspace.gradientAt model (k + 1)) =
      if j = k then workspace.joinedPivot model k else 0 := by
  have within : k + 1 < n := inside.trans_le factored.few
  obtain ⟨positive, square⟩ := joinedPivot_spec model (factored.pivot_ne_zero (k + 1) inside)
  have own := factored.triangular (k + 1) inside (k + 1) le_rfl
  rw [if_pos rfl] at own
  rw [dot_exchange workspace within, own]
  by_cases at_first : j = k
  · rw [if_pos at_first, if_pos at_first]
    field_simp
    linear_combination -square
  · rw [if_neg at_first, if_neg at_first]
    by_cases at_second : j = k + 1
    · rw [if_pos at_second]
      ring
    · rw [if_neg at_second, factored.triangular (k + 1) inside j (by omega), if_neg at_second]

/-- The first gradient had no component along the second column. -/
theorem Factored.dot_exchange_second (factored : workspace.Factored model)
    (inside : k + 1 < workspace.active) {j : Nat} (after : k + 1 ≤ j) :
    dot ((exchange model workspace k).basisAt j) (workspace.gradientAt model k) =
      if j = k + 1 then
        entry workspace.pivots (k + 1) / workspace.joinedPivot model k * entry workspace.pivots k
      else 0 := by
  have within : k + 1 < n := inside.trans_le factored.few
  have before : k < workspace.active := Nat.lt_of_succ_lt inside
  have first := factored.triangular k before k le_rfl
  have second := factored.triangular k before (k + 1) (Nat.le_succ k)
  rw [if_pos rfl] at first
  rw [if_neg (Nat.succ_ne_self k)] at second
  rw [dot_exchange workspace within, first, second, if_neg (by omega)]
  split_ifs
  · rw [mul_zero, sub_zero]
  · rw [factored.triangular k before j (by omega), if_neg (by omega)]

/-- The other gradients have the same component along a new column as before, or none along
both of the old ones. -/
theorem Factored.dot_exchange_other (factored : workspace.Factored model)
    (inside : k + 1 < workspace.active) {i j : Nat} (below : i < workspace.active)
    (other : i ≠ k) (further : i ≠ k + 1) (after : i ≤ j) :
    dot ((exchange model workspace k).basisAt j) (workspace.gradientAt model i) =
      if j = i then entry workspace.pivots i else 0 := by
  have apart : ∀ l, i ≤ l → l ≠ i →
      dot (workspace.basisAt l) (workspace.gradientAt model i) = 0 := by
    intro l behind aside
    rw [factored.triangular i below l behind, if_neg aside]
  rw [dot_exchange workspace (inside.trans_le factored.few)]
  by_cases at_first : j = k
  · rw [if_pos at_first, apart k (by omega) (Ne.symm other),
      apart (k + 1) (by omega) (Ne.symm further), if_neg (by omega), mul_zero, mul_zero, add_zero]
  · by_cases at_second : j = k + 1
    · rw [if_neg at_first, if_pos at_second, apart k (by omega) (Ne.symm other),
        apart (k + 1) (by omega) (Ne.symm further), if_neg (by omega), mul_zero, mul_zero,
        sub_zero]
    · rw [if_neg at_first, if_neg at_second]
      exact factored.triangular i below j after

/-- The new columns are orthogonal to the gradients before their positions. -/
theorem Factored.exchange_triangular (factored : workspace.Factored model)
    (inside : k + 1 < workspace.active) {i j : Nat} (below : i < workspace.active)
    (after : i ≤ j) :
    dot ((exchange model workspace k).basisAt j) ((exchange model workspace k).gradientAt model i) =
      if j = i then entry (exchange model workspace k).pivots i else 0 := by
  have place : k < m :=
    Nat.lt_of_succ_lt_succ (inside.trans_le (factored.room.trans factored.most))
  rw [pivot_exchange workspace place, gradientAt_exchange workspace place]
  by_cases first : i = k
  · subst first
    rw [Equiv.swap_apply_left, if_pos rfl]
    exact factored.dot_exchange_first inside after
  · by_cases second : i = k + 1
    · subst second
      rw [Equiv.swap_apply_right, if_neg (Ne.symm first), if_pos rfl]
      exact factored.dot_exchange_second inside after
    · rw [Equiv.swap_apply_of_ne_of_ne first second, if_neg (Ne.symm first),
        if_neg (Ne.symm second)]
      exact factored.dot_exchange_other inside below first second after

/-- **An exchange of two neighbours keeps the factorization.** -/
theorem Factored.exchange (factored : workspace.Factored model)
    (inside : k + 1 < workspace.active) : (exchange model workspace k).Factored model := by
  have turned := fun i below j => factored.exchange_triangular (i := i) (j := j) inside below
  obtain ⟨ortho, -, nonzero, few, room, incoming, most⟩ := factored
  have before : k < workspace.active := Nat.lt_of_succ_lt inside
  have within : k + 1 < n := inside.trans_le few
  have place : k < m := Nat.lt_of_succ_lt_succ (inside.trans_le (room.trans most))
  obtain ⟨positive, square⟩ := joinedPivot_spec model (nonzero (k + 1) inside)
  refine ⟨?ortho, turned, fun i below => ?pivot, few, room,
    incoming, most⟩
  case ortho =>
    refine ortho.rotate within (.inr ⟨rfl, rfl⟩) (?_ : entry workspace.pivots (k + 1) /
      workspace.joinedPivot model k * (entry workspace.pivots (k + 1) /
      workspace.joinedPivot model k) + _ / workspace.joinedPivot model k * (_ /
      workspace.joinedPivot model k) = 1)
    field_simp
    linear_combination -square
  case pivot =>
    rw [pivot_exchange workspace place]
    split_ifs
    · exact positive.ne'
    · exact mul_ne_zero (div_ne_zero (nonzero _ inside) positive.ne') (nonzero _ before)
    · exact nonzero i below

/-! ## Frames -/

namespace Factored

/-- What is found on a walk has no part in the factorization. -/
theorem frame (factored : workspace.Factored model) (multipliers candidates : Vector α (m + 1))
    (direction trial step : Vector α n) (violation : α) {incoming : Nat}
    (inside : incoming < workspace.considered) :
    Factored model { workspace with
      multipliers, candidates, direction, trial, step, violation, incoming } :=
  { factored with inside }

theorem exchanges (factored : workspace.Factored model) {positions : List Nat}
    (inside : ∀ k ∈ positions, k + 1 < workspace.active) :
    (positions.foldl (Workspace.exchange model) workspace).Factored model := by
  induction positions generalizing workspace with
  | nil => exact factored
  | cons k positions ih =>
    exact ih (factored.exchange (inside k List.mem_cons_self))
      fun later among => inside later (List.mem_cons_of_mem k among)

/-- The last active constraint may leave. -/
theorem fewer (factored : workspace.Factored model) :
    Factored model { workspace with active := workspace.active - 1 } :=
  { factored with
    triangular := fun i below => factored.triangular i (below.trans_le (Nat.sub_le _ 1))
    pivot_ne_zero := fun i below => factored.pivot_ne_zero i (below.trans_le (Nat.sub_le _ 1))
    few := (Nat.sub_le _ 1).trans factored.few
    room := (Nat.sub_le _ 1).trans factored.room }

theorem released (factored : workspace.Factored model) :
    (workspace.released model).Factored model :=
  fewer (factored.exchanges fun k among => by
    have bounded := List.mem_range'_1.mp among
    omega)

/-- The direction of the second stage is not zero. -/
theorem descend_ne_zero (factored : workspace.Factored model) (some : 0 < workspace.active) :
    workspace.descend.direction ≠ 0 := by
  have last : workspace.active - 1 < workspace.active := Nat.sub_lt some Nat.one_pos
  have unit := factored.ortho.self (last.trans_le factored.few)
  refine ne_zero_of_dot_ne_zero (w := workspace.basisAt (workspace.active - 1)) ?_
  have along : dot workspace.descend.direction (workspace.basisAt (workspace.active - 1)) =
      1 / entry workspace.pivots (workspace.active - 1) *
        dot (workspace.basisAt (workspace.active - 1))
          (workspace.basisAt (workspace.active - 1)) := smul_dot ..
  rw [along]
  refine mul_ne_zero (one_div_ne_zero (factored.pivot_ne_zero _ last)) ?_
  exact unit ▸ one_ne_zero

/-! ## Entries -/

/-- A constraint enters at the position `last`, on whose gradient no later column depends. -/
theorem enter (factored : workspace.Factored model) {last : Nat} {pivot : α}
    (inactive : workspace.active ≤ workspace.incoming) (upto : last ≤ workspace.active)
    (free : last < n) (nonzero : pivot ≠ 0)
    (aligned : ∀ j, last ≤ j → dot (workspace.basisAt j)
      (workspace.gradientAt model workspace.incoming) = if j = last then pivot else 0)
    (basis : next.basis = workspace.basis)
    (pivots : next.pivots = workspace.pivots.setIfInBounds last pivot)
    (order : next.order = workspace.order.swapIfInBounds workspace.incoming last)
    (active : next.active = last + 1) (considered : next.considered = workspace.considered)
    (incoming : next.incoming = workspace.incoming) : next.Factored model := by
  have inside := factored.inside
  have most := factored.most
  have place : last < m + 1 := by omega
  have gradient : ∀ i, next.gradientAt model i =
      workspace.gradientAt model (Equiv.swap workspace.incoming last i) := by
    intro i
    rw [← gradientAt_swap workspace (inside.trans_le most) place i, gradientAt, constraintAt, order,
      gradientAt, constraintAt]
  have column : ∀ j, next.basisAt j = workspace.basisAt j := by
    intro j
    rw [basisAt, basis, basisAt]
  have value : ∀ i, entry next.pivots i = if last = i then pivot else entry workspace.pivots i := by
    intro i
    rw [pivots, entry_setIfInBounds _ place]
  refine ⟨basis ▸ factored.ortho, fun i below j after => ?triangular, fun i below => ?pivot,
    by omega, by omega, by omega, considered.trans_le most⟩
  case triangular =>
    rw [gradient, column, value]
    rcases Nat.eq_or_lt_of_le (Nat.le_of_lt_succ (below.trans_eq active)) with rfl | before
    · rw [Equiv.swap_apply_right, if_pos rfl]
      exact aligned j after
    · rw [Equiv.swap_apply_of_ne_of_ne (by omega) (by omega), if_neg (by omega : last ≠ i)]
      exact factored.triangular i (by omega) j after
  case pivot =>
    rw [value]
    split_ifs
    · exact nonzero
    · exact factored.pivot_ne_zero i (by omega)

/-- The alignment of the free columns keeps the factorization. -/
theorem aligned (factored : workspace.Factored model) :
    (workspace.aligned model).Factored model := by
  have turned := AlignedFrom.alignBasis factored.ortho
    (workspace.gradientAt model workspace.incoming)
  refine { factored with ortho := turned.ortho, triangular := fun i below j after => ?_ }
  have inside : i < workspace.active := below
  rcases Nat.lt_or_ge j workspace.active with taken | free
  · have same : (workspace.aligned model).basisAt j = workspace.basisAt j := turned.before j taken
    rw [same]
    exact factored.triangular i below j after
  · have apart : ∀ k, workspace.active ≤ k →
        dot (columnAt workspace.basis k) (workspace.gradientAt model i) = 0 := by
      intro k beyond
      have known := factored.triangular i below k (by omega)
      rwa [if_neg (by omega)] at known
    rw [if_neg (by omega)]
    exact turned.blind _ apart j free

end Factored

/-! ## Revisions -/

/-- A dependent constraint enters only with a pivot that is not zero. -/
theorem enterDependent_outcome {gradient : Vector α n} {dependent : Workspace α n m} {done : Bool}
    (entered : enterDependent model workspace gradient = (dependent, done)) :
    ∃ multipliers candidates trial, dependent = { workspace with
        multipliers, candidates, trial
        pivots := if done = true then workspace.pivots.setIfInBounds (workspace.active - 1)
          (dot (workspace.basisAt (workspace.active - 1)) gradient) else workspace.pivots } ∧
      (done = true → 0 < workspace.active ∧
        dot (workspace.basisAt (workspace.active - 1)) gradient ≠ 0) := by
  have some : done = true → 0 < workspace.active := by
    rintro rfl
    exact active_pos_of_enterDependent entered
  rw [enterDependent_eq] at entered
  split at entered
  · cases entered
    exact ⟨_, _, _, rfl, nofun⟩
  · split at entered
    · cases entered
      exact ⟨_, _, _, rfl, nofun⟩
    case isFalse pivot =>
      cases entered
      exact ⟨_, _, _, rfl, fun done => ⟨some done, by simpa using pivot⟩⟩

/-- The workspace with its direction made orthogonal to the first free column. -/
def recede (workspace : Workspace α n m) : Workspace α n m :=
  { workspace with
    direction := workspace.direction -
      dot workspace.direction (workspace.basisAt workspace.active) *
        workspace.basisAt workspace.active }

/-- The outcomes of a revision of the active set. -/
inductive Revision (model : LinearModel α n m) (workspace : Workspace α n m) :
    Workspace α n m × Bool → Prop
  /-- The last active constraint leaves in the second stage. -/
  | emptied (second : workspace.secondStage = true)
      (among : workspace.incoming < workspace.active) :
      Revision model workspace (workspace.released model, false)
  /-- A constraint leaves in the second stage. -/
  | left (second : workspace.secondStage = true) (rest : 0 < (workspace.released model).active)
      (among : workspace.incoming < workspace.active) :
      Revision model workspace ((workspace.released model).descend, true)
  /-- A constraint leaves in the first stage, and the direction gives up its column. -/
  | receded (first : workspace.secondStage = false)
      (among : workspace.incoming < workspace.active) :
      Revision model workspace ((workspace.released model).recede, true)
  /-- A dependent constraint cannot enter. -/
  | stuck {dependent : Workspace α n m}
      (entered : enterDependent model (workspace.aligned model)
        (workspace.gradientAt model workspace.incoming) = (dependent, false))
      (inactive : workspace.active ≤ workspace.incoming)
      (component : (workspace.alignBasis (workspace.gradientAt model workspace.incoming)).2 = 0) :
      Revision model workspace (dependent, false)
  /-- A dependent constraint takes the place of the last active one. -/
  | replaced {dependent : Workspace α n m} (inactive : workspace.active ≤ workspace.incoming)
      (component : (workspace.alignBasis (workspace.gradientAt model workspace.incoming)).2 = 0)
      (entered : enterDependent model (workspace.aligned model)
        (workspace.gradientAt model workspace.incoming) = (dependent, true)) :
      Revision model workspace (dependent.settleEntry model, true)
  /-- A constraint enters beside the active ones. -/
  | added (inactive : workspace.active ≤ workspace.incoming)
      (component : (workspace.alignBasis (workspace.gradientAt model workspace.incoming)).2 ≠ 0) :
      Revision model workspace
        (((workspace.aligned model).enterIndependent
          (workspace.alignBasis (workspace.gradientAt model workspace.incoming)).2).settleEntry
            model, true)

theorem secondStage_released (model : LinearModel α n m) (workspace : Workspace α n m) :
    (workspace.released model).secondStage = workspace.secondStage :=
  congrArg (fun count => decide (m < count)) (considered_exchanges model workspace _)

/-- **A revision has no other outcomes.** -/
theorem revise_outcome (model : LinearModel α n m) (workspace : Workspace α n m) :
    Revision model workspace (workspace.revise model) := by
  rw [revise]
  split
  case isTrue among =>
    rw [deactivate_eq, secondStage_released]
    split
    case isTrue second =>
      split
      case isTrue => exact .emptied second among
      case isFalse rest => exact .left second (Nat.pos_of_ne_zero rest) among
    case isFalse first => exact .receded (Bool.eq_false_iff.mpr first) among
  case isFalse incoming =>
    have inactive : workspace.active ≤ workspace.incoming := Nat.le_of_not_lt incoming
    rw [activate_eq]
    split
    case isTrue component =>
      split
      case h_1 dependent entered => exact .replaced inactive (beq_iff_eq.mp component) entered
      case h_2 dependent entered => exact .stuck entered inactive (beq_iff_eq.mp component)
    case isFalse component => exact .added inactive (by simpa using component)

namespace Factored

/-- A constraint that is not dependent on the active ones goes to the first free column. -/
theorem added (factored : workspace.Factored model)
    (inactive : workspace.active ≤ workspace.incoming) {gradient : Vector α n}
    (known : workspace.gradientAt model workspace.incoming = gradient)
    (component : (workspace.alignBasis gradient).2 ≠ 0) :
    ((workspace.aligned model).enterIndependent
      (workspace.alignBasis gradient).2).placed.Factored model := by
  subst known
  have turned := AlignedFrom.alignBasis factored.ortho
    (workspace.gradientAt model workspace.incoming)
  exact factored.aligned.enter inactive le_rfl (turned.inside component) component
    turned.component rfl rfl rfl rfl rfl rfl

/-- A dependent constraint goes to the last active column. -/
theorem replaced (factored : workspace.Factored model)
    (inactive : workspace.active ≤ workspace.incoming) {gradient : Vector α n}
    (known : workspace.gradientAt model workspace.incoming = gradient)
    (component : (workspace.alignBasis gradient).2 = 0) {dependent : Workspace α n m}
    (entered : enterDependent model (workspace.aligned model) gradient = (dependent, true)) :
    dependent.placed.Factored model := by
  subst known
  obtain ⟨multipliers, candidates, trial, rfl, outcome⟩ := enterDependent_outcome entered
  obtain ⟨some, pivot⟩ := outcome rfl
  have active : 0 < workspace.active := some
  have turned := AlignedFrom.alignBasis factored.ortho
    (workspace.gradientAt model workspace.incoming)
  refine factored.aligned.enter inactive (Nat.sub_le _ 1)
    ((Nat.sub_lt active Nat.one_pos).trans_le factored.few) pivot (fun j after => ?_)
    rfl rfl rfl (Nat.sub_add_cancel active).symm rfl rfl
  split_ifs with last
  · rw [last]
    rfl
  · have free : workspace.active ≤ j := by
      have after : workspace.active - 1 ≤ j := after
      have last : j ≠ workspace.active - 1 := last
      omega
    have apart := turned.component j free
    rwa [component, ite_self] at apart

theorem settleEntry (placed : workspace.placed.Factored model) :
    (workspace.settleEntry model).Factored model := by
  rw [settleEntry_eq]
  split
  · split
    case isTrue among =>
      have inside : workspace.active - 1 - 1 + 1 < workspace.active := by omega
      exact (placed.exchange inside).frame _ _ _ _ _ _ placed.inside
    case isFalse => exact placed.frame _ _ _ _ _ _ placed.inside
  · exact placed.frame _ _ _ _ _ _ placed.inside

/-- **Every revision of the active set keeps the factorization.** -/
theorem revise (factored : workspace.Factored model) :
    (workspace.revise model).1.Factored model := by
  have outcome := revise_outcome model workspace
  generalize workspace.revise model = result at outcome
  have released := factored.released
  cases outcome with
  | emptied => exact released
  | left => exact released.frame _ _ _ _ _ _ released.inside
  | receded => exact released.frame _ _ _ _ _ _ released.inside
  | stuck entered =>
    obtain ⟨multipliers, candidates, trial, rfl, -⟩ := enterDependent_outcome entered
    exact factored.aligned.frame _ _ _ _ _ _ factored.inside
  | replaced inactive component entered =>
    exact (factored.replaced inactive rfl component entered).settleEntry
  | added inactive component => exact (factored.added inactive rfl component).settleEntry

/-! ## The direction of the second stage -/

theorem settleEntry_descends (placed : workspace.placed.Factored model)
    (second : workspace.secondStage = true) (some : 0 < workspace.active) :
    ∃ before : Workspace α n m, before.Factored model ∧ 0 < before.active ∧
      workspace.settleEntry model = before.descend := by
  have same : workspace.placed.secondStage = true := second
  rw [settleEntry_eq, if_pos same]
  split
  case isTrue among =>
    have inside : workspace.active - 1 - 1 + 1 < workspace.active := by omega
    exact ⟨_, placed.exchange inside, some, rfl⟩
  case isFalse => exact ⟨_, placed, some, rfl⟩

/-- A revision in the second stage ends with a direction along the last active column. -/
theorem revise_descends (factored : workspace.Factored model)
    (second : workspace.secondStage = true) {revised : Workspace α n m}
    (revision : workspace.revise model = (revised, true)) :
    ∃ before : Workspace α n m, before.Factored model ∧ 0 < before.active ∧
      revised = before.descend := by
  have outcome := revise_outcome model workspace
  rw [revision] at outcome
  cases outcome with
  | left _ rest => exact ⟨_, factored.released, rest, rfl⟩
  | receded first =>
    rw [second] at first
    cases first
  | replaced inactive component entered =>
    have placed := factored.replaced inactive rfl component entered
    obtain ⟨multipliers, candidates, trial, rfl, outcome⟩ := enterDependent_outcome entered
    exact placed.settleEntry_descends second (outcome rfl).1
  | added inactive component =>
    exact (factored.added inactive rfl component).settleEntry_descends second (Nat.succ_pos _)

/-- **The direction of the second stage is not zero.** -/
theorem revise_moves (factored : workspace.Factored model) (second : workspace.secondStage = true)
    {revised : Workspace α n m} (revision : workspace.revise model = (revised, true)) :
    revised.direction ≠ 0 := by
  obtain ⟨before, kept, some, rfl⟩ := factored.revise_descends second revision
  exact kept.descend_ne_zero some

/-- Along the direction of the second stage the last active constraint rises at unit rate, and
the others stay as they are. -/
theorem descend_rate (factored : workspace.Factored model) {i : Nat}
    (below : i < workspace.active) :
    dot workspace.descend.direction (workspace.descend.gradientAt model i) =
      if workspace.active - 1 = i then 1 else 0 := by
  have column := factored.triangular i below (workspace.active - 1) (Nat.le_sub_one_of_lt below)
  change dot (1 / entry workspace.pivots (workspace.active - 1) *
    workspace.basisAt (workspace.active - 1)) (workspace.gradientAt model i) = _
  rw [smul_dot, column]
  split_ifs with last
  · rw [last, one_div_mul_cancel (factored.pivot_ne_zero i below)]
  · exact mul_zero _

/-- **No active constraint falls along the direction of the second stage.** -/
theorem revise_rises (factored : workspace.Factored model) (second : workspace.secondStage = true)
    {revised : Workspace α n m} (revision : workspace.revise model = (revised, true)) {i : Nat}
    (below : i < revised.active) : 0 ≤ dot revised.direction (revised.gradientAt model i) := by
  obtain ⟨before, kept, -, rfl⟩ := factored.revise_descends second revision
  rw [kept.descend_rate below]
  split_ifs
  · exact zero_le_one
  · exact le_rfl

end Factored

/-! ## The direction of the first stage -/

/-- Along the direction the violations of all active constraints fall at unit rate. -/
def Steady (model : LinearModel α n m) (workspace : Workspace α n m) : Prop :=
  ∀ i < workspace.active, dot workspace.direction (workspace.gradientAt model i) = 1

theorem Steady.exchange (steady : workspace.Steady model) (inside : k + 1 < workspace.active)
    (place : k < m) : (exchange model workspace k).Steady model := by
  intro i below
  rw [gradientAt_exchange workspace place]
  exact steady _ (swap_lt (Nat.lt_of_succ_lt inside) inside below)

namespace Factored

theorem steady_exchanges (factored : workspace.Factored model) (steady : workspace.Steady model)
    {positions : List Nat} (inside : ∀ k ∈ positions, k + 1 < workspace.active) :
    (positions.foldl (Workspace.exchange model) workspace).Steady model := by
  induction positions generalizing workspace with
  | nil => exact steady
  | cons k positions ih =>
    have here := inside k List.mem_cons_self
    have place : k < m := Nat.lt_of_succ_lt_succ (here.trans_le (factored.room.trans factored.most))
    exact ih (factored.exchange here) (steady.exchange here place)
      fun later among => inside later (List.mem_cons_of_mem k among)

/-- The column of a constraint that has left is orthogonal to the gradients that stay active, and
their violations still fall at unit rate. -/
theorem steady_released (factored : workspace.Factored model) (steady : workspace.Steady model) :
    (workspace.released model).Steady model ∧
      ∀ i < (workspace.released model).active,
        dot ((workspace.released model).basisAt (workspace.released model).active)
          ((workspace.released model).gradientAt model i) = 0 := by
  have inside : ∀ k ∈ List.range' workspace.incoming
      (workspace.active - 1 - workspace.incoming), k + 1 < workspace.active := by
    intro k among
    have bounded := List.mem_range'_1.mp among
    omega
  have moved := factored.exchanges inside
  have rates := factored.steady_exchanges steady inside
  rw [Workspace.released]
  generalize (List.range' workspace.incoming (workspace.active - 1 - workspace.incoming)).foldl
    (Workspace.exchange model) workspace = state at moved rates ⊢
  refine ⟨fun i below => rates i (below.trans_le (Nat.sub_le _ 1)), fun i below => ?_⟩
  have fewer : i < state.active - 1 := below
  have apart := moved.triangular i (by omega) (state.active - 1) (by omega)
  rwa [if_neg (by omega)] at apart

end Factored

theorem Steady.recede (steady : workspace.Steady model)
    (apart : ∀ i < workspace.active,
      dot (workspace.basisAt workspace.active) (workspace.gradientAt model i) = 0) :
    workspace.recede.Steady model := by
  intro i below
  have rate := steady i below
  have column := apart i below
  change dot (workspace.direction - dot workspace.direction (workspace.basisAt workspace.active) *
    workspace.basisAt workspace.active) (workspace.gradientAt model i) = 1
  rw [sub_dot, smul_dot, rate, column, mul_zero, sub_zero]

namespace Factored

/-- The violation of the last active constraint is made to fall at unit rate as well. -/
theorem steady_approach (factored : workspace.Factored model) (some : 0 < workspace.active)
    (before : ∀ i < workspace.active - 1,
      dot workspace.direction (workspace.gradientAt model i) = 1) :
    (workspace.approach model).Steady model := by
  have last : workspace.active - 1 < workspace.active := Nat.sub_lt some Nat.one_pos
  have pivot := factored.pivot_ne_zero _ last
  intro i below
  have within : i < workspace.active := below
  have column := factored.triangular i within (workspace.active - 1) (Nat.le_sub_one_of_lt within)
  change dot (workspace.direction - _ / _ * _) (workspace.gradientAt model i) = 1
  rw [sub_dot, smul_dot, column]
  rcases Nat.eq_or_lt_of_le (Nat.le_sub_one_of_lt within) with same | earlier
  · rw [if_pos same.symm, same, div_mul_cancel₀ _ pivot, sub_sub_cancel]
  · rw [if_neg earlier.ne', mul_zero, sub_zero, before i earlier]

theorem settleEntry_steady (placed : workspace.placed.Factored model)
    (first : workspace.secondStage = false) (some : 0 < workspace.active)
    (later : workspace.active - 1 ≤ workspace.incoming)
    (before : ∀ i < workspace.active - 1,
      dot workspace.direction (workspace.gradientAt model i) = 1) :
    (workspace.settleEntry model).Steady model := by
  have same : ¬ workspace.placed.secondStage = true := Bool.eq_false_iff.mp first
  have incoming : workspace.incoming < m + 1 := placed.inside.trans_le placed.most
  rw [settleEntry_eq, if_neg same]
  refine placed.steady_approach some fun i earlier => ?_
  have earlier : i < workspace.active - 1 := earlier
  have still : workspace.placed.gradientAt model i = workspace.gradientAt model i := by
    rw [Workspace.placed, gradientAt_swap workspace incoming (by omega),
      Equiv.swap_apply_of_ne_of_ne (by omega) (by omega)]
  rw [still]
  exact before i earlier

/-- **Along the direction of the first stage the violations of all active constraints fall at
unit rate.** -/
theorem revise_steady (factored : workspace.Factored model) (steady : workspace.Steady model)
    (first : workspace.secondStage = false) {revised : Workspace α n m}
    (revision : workspace.revise model = (revised, true)) : revised.Steady model := by
  have outcome := revise_outcome model workspace
  rw [revision] at outcome
  cases outcome with
  | left second =>
    rw [second] at first
    cases first
  | receded =>
    obtain ⟨rates, apart⟩ := factored.steady_released steady
    exact rates.recede apart
  | replaced inactive component entered =>
    have placed := factored.replaced inactive rfl component entered
    obtain ⟨multipliers, candidates, trial, rfl, outcome⟩ := enterDependent_outcome entered
    exact placed.settleEntry_steady first (outcome rfl).1
      ((Nat.sub_le _ 1).trans inactive) fun i earlier =>
        steady i (earlier.trans_le (Nat.sub_le _ 1))
  | added inactive component =>
    exact (factored.added inactive rfl component).settleEntry_steady first (Nat.succ_pos _) inactive
      steady

end Factored

end Workspace

end DerivativeFree
