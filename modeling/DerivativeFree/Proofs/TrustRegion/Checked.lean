import DerivativeFree.Proofs.TrustRegion.Stages
import DerivativeFree.Proofs.Linear.Checked

/-!
# A step that checks its positions

The routines of a step read and write vectors at positions that they compute, and lower counts by
one.  A wrong position would go unnoticed in them, and so would a count below zero.  Here the same
routines are written once more, each read, write and subtraction with a check that may meet a
`Fault`.  The entries of the order need none, because they are constraints by their type.

Each of them does what the unchecked one does where the positions are in bounds, which is where it
is used: so a checked turn is a turn (`turn_eq`), and the checked search for a step never meets a
fault, whatever the numbers are (`solve_faultless`).
-/

namespace DerivativeFree

set_option autoImplicit false

namespace Checked

variable {α : Type} {n m : Nat} {workspace : Workspace α n m} {k : Nat}

theorem read_constraint (inside : k < m + 1) :
    read workspace.order k = pure (workspace.constraintAt k) :=
  read_getD workspace.order (Fin.last m) inside

variable [Scalar α]

theorem read_column (inside : k < n) :
    read workspace.basis k = pure (workspace.basisAt k) :=
  read_getD workspace.basis 0 inside

theorem read_entry (v : Vector α n) (inside : k < n) : read v k = pure (entry v k) :=
  read_getD v 0 inside

/-! ## Revisions of the active set -/

/-- Exchanges the active constraints at the positions `k` and `k + 1`; there must be two columns
there to rotate with them. -/
def exchange (model : LinearModel α n m) (workspace : Workspace α n m) (k : Nat) :
    Except Fault (Workspace α n m) := do
  let column ← read workspace.basis k
  let next ← read workspace.basis (k + 1)
  let constraint ← read workspace.order (k + 1)
  let component := dot column (model.gradients.get constraint)
  let before ← read workspace.pivots k
  let pivot ← read workspace.pivots (k + 1)
  let length := Scalar.sqrt (component * component + pivot * pivot)
  let cosine := pivot / length
  let sine := component / length
  let rotated := rotate cosine sine next column
  let basis ← write workspace.basis k rotated.1
  let basis ← write basis (k + 1) rotated.2
  let pivots ← write workspace.pivots (k + 1) (cosine * before)
  let pivots ← write pivots k length
  let order ← swap workspace.order k (k + 1)
  let multipliers ← swap workspace.multipliers k (k + 1)
  return { workspace with basis, pivots, order, multipliers }

theorem exchange_eq (model : LinearModel α n m) (workspace : Workspace α n m)
    (column : k + 1 < n) (position : k + 1 < m + 1) :
    exchange model workspace k = pure (Workspace.exchange model workspace k) := by
  have column' : k < n := Nat.lt_of_succ_lt column
  have position' : k < m + 1 := Nat.lt_of_succ_lt position
  simp only [exchange, read_column column, read_column column', read_constraint position,
    read_entry _ position, read_entry _ position', write_of_lt _ column, write_of_lt _ column',
    write_of_lt _ position, write_of_lt _ position', swap_of_lt _ position' position, pure_bind]
  rfl

/-- Turns column `k` of the basis and the next one.  A next column is needed only if the later ones
have had a component. -/
def alignColumn (gradient : Vector α n) (k : Fin n) (state : Vector (Vector α n) n × α) :
    Except Fault (Vector (Vector α n) n × α) := do
  let (basis, later) := state
  let component := roundedDot (basis.get k) gradient
  if later == 0 then return (basis, component)
  else
    let next ← read basis (k + 1)
    let length := Scalar.sqrt (component * component + later * later)
    let rotated := rotate (component / length) (later / length) (basis.get k) next
    let basis ← write basis k rotated.1
    let basis ← write basis (k + 1) rotated.2
    return (basis, length)

/-- The next column is turned as well only if it has a component that is not zero. -/
theorem alignColumn_eq (gradient : Vector α n) (k : Fin n) (state : Vector (Vector α n) n × α)
    (further : (state.2 == 0) = true ∨ k.val + 1 < n) :
    alignColumn gradient k state = pure (Workspace.alignColumn gradient k state) := by
  obtain ⟨basis, later⟩ := state
  unfold alignColumn Workspace.alignColumn
  dsimp only
  split
  case isTrue => rfl
  case isFalse nonzero =>
    have next : k.val + 1 < n := further.resolve_left nonzero
    have column : read basis (k.val + 1) = pure (basis[k.val + 1]?.getD 0) := read_getD _ _ next
    simp only [column, write_of_lt _ next, write_of_lt _ k.isLt, pure_bind, set_eq_setIfInBounds]

/-- The basis with its free columns turned so that only the first of them has a component along
the gradient, and that component. -/
def alignBasis (workspace : Workspace α n m) (gradient : Vector α n) :
    Except Fault (Vector (Vector α n) n × α) :=
  Fin.foldrM n (fun k state =>
    if workspace.active ≤ k.val then alignColumn gradient k state else pure state)
    (workspace.basis, 0)

theorem alignBasis_eq (zero : ((0 : α) == 0) = true) (workspace : Workspace α n m)
    (gradient : Vector α n) :
    alignBasis workspace gradient = pure (workspace.alignBasis gradient) := by
  refine foldrM_eq (fun k state => (state.2 == 0) = true ∨ k < n) (.inl zero)
    fun k state further => ⟨?_, .inr k.isLt⟩
  split
  case isTrue => exact alignColumn_eq gradient k state further
  case isFalse => rfl

/-- Sets the direction of the second stage; the last active column must exist. -/
def descend (workspace : Workspace α n m) : Except Fault (Workspace α n m) := do
  let last ← minus workspace.active 1
  let pivot ← read workspace.pivots last
  let column ← read workspace.basis last
  return { workspace with direction := (1 / pivot) * column }

theorem descend_eq (some : 0 < workspace.active) (few : workspace.active ≤ n)
    (room : workspace.active ≤ m + 1) : descend workspace = pure workspace.descend := by
  have last : workspace.active - 1 < workspace.active := Nat.sub_lt some Nat.one_pos
  simp only [descend, minus_of_le some, read_entry _ (last.trans_le room),
    read_column (last.trans_le few), pure_bind]
  rfl

/-- Sets the direction of the first stage; the last active constraint must exist. -/
def approach (model : LinearModel α n m) (workspace : Workspace α n m) :
    Except Fault (Workspace α n m) := do
  let last ← minus workspace.active 1
  let constraint ← read workspace.order last
  let pivot ← read workspace.pivots last
  let column ← read workspace.basis last
  let excess := (dot workspace.direction (model.gradients.get constraint) - 1) / pivot
  return { workspace with direction := workspace.direction - excess * column }

theorem approach_eq (model : LinearModel α n m) (some : 0 < workspace.active)
    (few : workspace.active ≤ n) (room : workspace.active ≤ m + 1) :
    approach model workspace = pure (workspace.approach model) := by
  have last : workspace.active - 1 < workspace.active := Nat.sub_lt some Nat.one_pos
  simp only [approach, minus_of_le some, read_entry _ (last.trans_le room),
    read_constraint (last.trans_le room), read_column (last.trans_le few), pure_bind]
  rfl

/-- Removes the constraint at the incoming position from the active set.  The count of exchanges
falls below zero if that position lies beyond the active ones. -/
def deactivate (model : LinearModel α n m) (workspace : Workspace α n m) :
    Except Fault (Workspace α n m × Bool) := do
  let last ← minus workspace.active 1
  let gap ← minus last workspace.incoming
  let moved ← (List.range' workspace.incoming gap).foldlM (exchange model) workspace
  let active ← minus moved.active 1
  let released := { moved with active }
  if released.secondStage then
    if released.active = 0 then return (released, false)
    else
      let directed ← descend released
      return (directed, true)
  else
    let column ← read released.basis released.active
    let direction := released.direction - dot released.direction column * column
    return ({ released with direction }, true)

/-- A constraint leaves the active set only from a position in it. -/
theorem deactivate_eq (model : LinearModel α n m) (inBounds : workspace.InBounds)
    (member : workspace.incoming < workspace.active) :
    deactivate model workspace = pure (workspace.deactivate model) := by
  have few := inBounds.few
  have room := inBounds.active_le
  have some : 1 ≤ workspace.active := Nat.one_le_of_lt member
  have moved : (List.range' workspace.incoming
      (workspace.active - 1 - workspace.incoming)).foldlM (exchange model) workspace =
        pure ((List.range' workspace.incoming
          (workspace.active - 1 - workspace.incoming)).foldl
            (Workspace.exchange model) workspace) := by
    refine foldlM_eq (fun k among state => exchange_eq model state ?_ ?_) workspace
    all_goals
      have within := List.mem_range'_1.mp among
      omega
  obtain ⟨basis, pivots, order, multipliers, frame⟩ := Workspace.exchanges_frame model workspace
    (List.range' workspace.incoming (workspace.active - 1 - workspace.incoming))
  rw [Workspace.deactivate_eq]
  simp only [deactivate, Workspace.released, minus_of_le some, moved, pure_bind,
    minus_of_le (Nat.le_sub_one_of_lt member), frame]
  split
  case isTrue =>
    split
    case isTrue => rfl
    case isFalse rest =>
      rw [descend_eq (Nat.pos_of_ne_zero rest) ((Nat.sub_le _ 1).trans few)
        ((Nat.sub_le _ 1).trans room), pure_bind]
  case isFalse =>
    have column : read basis (workspace.active - 1) =
        pure (basis[workspace.active - 1]?.getD 0) := read_getD _ _ (by omega)
    rw [column, pure_bind]
    rfl

/-- Finds the coefficient of the active constraint at position `k`. -/
def dependenceAt (model : LinearModel α n m) (workspace : Workspace α n m) (k : Nat)
    (found : Workspace.Dependence α n m) : Except Fault (Workspace.Dependence α n m) := do
  let column ← read workspace.basis k
  let component := dot column found.rest
  if significant (dotMagnitude column found.rest) component then
    let pivot ← read workspace.pivots k
    let multiplier ← read workspace.multipliers k
    let constraint ← read workspace.order k
    let coefficient := component / pivot
    let ratio := multiplier / coefficient
    let limits := decide (0 < coefficient) && decide (constraint.val < m) &&
      found.ratio.all fun least => decide (ratio < least)
    let coefficients ← write found.coefficients k coefficient
    return {
      rest :=
        if 1 ≤ k then found.rest - coefficient * model.gradients.get constraint else found.rest
      coefficients
      ratio := if limits then some ratio else found.ratio }
  else
    let coefficients ← write found.coefficients k 0
    return { found with coefficients }

theorem dependenceAt_eq (model : LinearModel α n m) (workspace : Workspace α n m)
    (column : k < n) (position : k < m + 1) (found : Workspace.Dependence α n m) :
    dependenceAt model workspace k found =
      pure (Workspace.dependenceAt model workspace k found) := by
  simp only [dependenceAt, read_column column, read_constraint position, read_entry _ position,
    write_of_lt _ position, pure_bind]
  unfold Workspace.dependenceAt
  dsimp only
  split
  · rfl
  · rfl

/-- Expresses a gradient by the active ones; each of them needs a column and a position. -/
def dependence (model : LinearModel α n m) (workspace : Workspace α n m)
    (gradient : Vector α n) : Except Fault (Workspace.Dependence α n m) :=
  Fin.foldrM workspace.active (fun k => dependenceAt model workspace k)
    ⟨gradient, workspace.candidates, none⟩

theorem dependence_eq (model : LinearModel α n m) (few : workspace.active ≤ n)
    (room : workspace.active ≤ m + 1) (gradient : Vector α n) :
    dependence model workspace gradient = pure (Workspace.dependence model workspace gradient) :=
  foldrM_eq (fun _ _ => True) trivial fun k found _ =>
    ⟨dependenceAt_eq model workspace (k.isLt.trans_le few) (k.isLt.trans_le room) found, trivial⟩

/-- Lets the constraint at the incoming position take the place of the last active one.  The
multipliers of all active constraints are lowered first, and so each of them needs a coefficient. -/
def enterDependent (model : LinearModel α n m) (workspace : Workspace α n m)
    (gradient : Vector α n) : Except Fault (Workspace α n m × Bool) := do
  let found ← dependence model workspace gradient
  let workspace := { workspace with trial := found.rest, candidates := found.coefficients }
  match found.ratio with
  | none => return (workspace, false)
  | some ratio =>
    let multipliers ← change 0 workspace.active (fun k multiplier => do
      let coefficient ← read found.coefficients k
      return larger (multiplier - ratio * coefficient) 0) workspace.multipliers
    let last ← minus workspace.active 1
    let column ← read workspace.basis last
    let pivot := dot column gradient
    if pivot == 0 then return ({ workspace with multipliers }, false)
    else
      let pivots ← write workspace.pivots last pivot
      let multipliers ← write multipliers workspace.incoming 0
      let multipliers ← write multipliers last ratio
      return ({ workspace with pivots, multipliers }, true)

/-- A constraint takes the place of an active one only if there is one. -/
theorem enterDependent_eq (model : LinearModel α n m) (inBounds : workspace.InBounds)
    (gradient : Vector α n) :
    enterDependent model workspace gradient =
      pure (Workspace.enterDependent model workspace gradient) := by
  have few := inBounds.few
  have room := inBounds.active_le
  have incoming := inBounds.incoming_lt
  rw [enterDependent, dependence_eq model few room, pure_bind, Workspace.enterDependent_eq]
  cases known : (Workspace.dependence model workspace gradient).ratio with
  | none => rfl
  | some ratio =>
    have some : 0 < workspace.active := Workspace.active_pos_of_ratio known
    have last : workspace.active - 1 < workspace.active := Nat.sub_lt some Nat.one_pos
    have lowered : change 0 workspace.active (fun k multiplier => do
        let coefficient ← read (Workspace.dependence model workspace gradient).coefficients k
        return larger (multiplier - ratio * coefficient) 0) workspace.multipliers =
          pure (workspace.lowered (Workspace.dependence model workspace gradient) ratio) := by
      rw [change_eq (fun k multiplier => larger (multiplier - ratio *
        entry (Workspace.dependence model workspace gradient).coefficients k) 0) _ room]
      · refine congrArg pure (Vector.ext fun i inside => ?_)
        simp only [Workspace.lowered, Vector.getElem_ofFn, Nat.zero_le, true_and,
          entry_of_lt _ inside, get_eq_getElem]
      · intro position before _ below
        rw [read_entry _ (below.trans_le room), pure_bind]
    simp only [lowered, minus_of_le some, read_column (last.trans_le few), pure_bind,
      write_of_lt _ (last.trans_le room), write_of_lt _ incoming]
    split
    · rfl
    · rfl

/-- Lets the constraint at the incoming position become the last active one, for which there must be
a position left. -/
def enterIndependent (workspace : Workspace α n m) (component : α) :
    Except Fault (Workspace α n m) := do
  let last := workspace.active
  let pivots ← write workspace.pivots last component
  let multiplier ← read workspace.multipliers last
  let multipliers ← write workspace.multipliers workspace.incoming multiplier
  let multipliers ← write multipliers last 0
  return { workspace with active := workspace.active + 1, pivots, multipliers }

theorem enterIndependent_eq (inBounds : workspace.InBounds)
    (inactive : workspace.active ≤ workspace.incoming) (component : α) :
    enterIndependent workspace component = pure (workspace.enterIndependent component) := by
  have incoming := inBounds.incoming_lt
  have last := inactive.trans_lt incoming
  simp only [enterIndependent, read_entry _ last, write_of_lt _ last, write_of_lt _ incoming,
    pure_bind]
  rfl

/-- Moves the constraint that has entered to its active position and finds the new direction.  With
the objective active, the last active constraint must have one before it. -/
def settleEntry (model : LinearModel α n m) (workspace : Workspace α n m) :
    Except Fault (Workspace α n m) := do
  let last ← minus workspace.active 1
  let entered ← read workspace.order workspace.incoming
  let order ← swap workspace.order workspace.incoming last
  let placed := { workspace with order }
  if placed.secondStage then
    if entered ≠ Fin.last m ∧ 1 ≤ last then
      let before ← minus last 1
      let exchanged ← exchange model placed before
      descend exchanged
    else descend placed
  else approach model placed

theorem settleEntry_eq (model : LinearModel α n m) (inBounds : workspace.InBounds)
    (some : 0 < workspace.active) :
    settleEntry model workspace = pure (workspace.settleEntry model) := by
  have few := inBounds.few
  have room := inBounds.active_le
  have incoming := inBounds.incoming_lt
  have last : workspace.active - 1 < workspace.active := Nat.sub_lt some Nat.one_pos
  simp only [settleEntry, minus_of_le some, read_constraint incoming,
    swap_of_lt _ incoming (last.trans_le room), pure_bind]
  change (if workspace.placed.secondStage then _ else _) = _
  rw [Workspace.settleEntry_eq]
  by_cases second : workspace.placed.secondStage = true
  · rw [if_pos second, if_pos second]
    by_cases both : workspace.constraintAt workspace.incoming ≠ Fin.last m ∧
        1 ≤ workspace.active - 1
    · rw [if_pos both, if_pos both, minus_of_le both.2, pure_bind,
        exchange_eq model _ (by omega) (by omega), pure_bind]
      exact descend_eq some few room
    · rw [if_neg both, if_neg both]
      exact descend_eq some few room
  · rw [if_neg second, if_neg second]
    exact approach_eq model some few room

/-- Adds the constraint at the incoming position to the active set. -/
def activate (model : LinearModel α n m) (workspace : Workspace α n m) :
    Except Fault (Workspace α n m × Bool) := do
  let constraint ← read workspace.order workspace.incoming
  let gradient := model.gradients.get constraint
  let (basis, component) ← alignBasis workspace gradient
  let aligned := { workspace with basis, trial := gradient }
  if component == 0 then
    match ← enterDependent model aligned gradient with
    | (entered, true) =>
      let settled ← settleEntry model entered
      return (settled, true)
    | (stuck, false) => return (stuck, false)
  else
    let entered ← enterIndependent aligned component
    let settled ← settleEntry model entered
    return (settled, true)

theorem activate_eq (zero : ((0 : α) == 0) = true) (model : LinearModel α n m)
    (inBounds : workspace.InBounds) (inactive : workspace.active ≤ workspace.incoming) :
    activate model workspace = pure (workspace.activate model) := by
  have incoming := inBounds.incoming_lt
  have aligned := inBounds.aligned model
  have gathered : activate model workspace =
      if (workspace.alignBasis (workspace.gradientAt model workspace.incoming)).2 == 0 then do
        match ← enterDependent model (workspace.aligned model)
          (workspace.gradientAt model workspace.incoming) with
        | (entered, true) =>
          let settled ← settleEntry model entered
          return (settled, true)
        | (stuck, false) => return (stuck, false)
      else do
        let entered ← enterIndependent (workspace.aligned model)
          (workspace.alignBasis (workspace.gradientAt model workspace.incoming)).2
        let settled ← settleEntry model entered
        return (settled, true) := by
    simp only [activate, read_constraint incoming, alignBasis_eq zero, pure_bind]
    rfl
  rw [gathered, Workspace.activate_eq]
  split
  case isTrue =>
    obtain ⟨dependent, done, entered⟩ : ∃ dependent done, Workspace.enterDependent model
        (workspace.aligned model) (workspace.gradientAt model workspace.incoming) =
          (dependent, done) := ⟨_, _, rfl⟩
    rw [enterDependent_eq model aligned, pure_bind, entered]
    cases done with
    | false => rfl
    | true =>
      have some := Workspace.active_pos_of_enterDependent entered
      have kept := aligned.enterDependent entered
      obtain ⟨pivots, multipliers, candidates, trial, rfl⟩ := Workspace.enterDependent_frame entered
      exact congrArg (fun settling => settling >>= fun settled => pure (settled, true))
        (settleEntry_eq model kept some)
  case isFalse independent =>
    have free := Workspace.InBounds.free_of_component zero independent
    have entered := aligned.enterIndependent free inactive
      (workspace.alignBasis (workspace.gradientAt model workspace.incoming)).2
    rw [enterIndependent_eq aligned inactive, pure_bind,
      settleEntry_eq model entered (Nat.succ_pos _), pure_bind]

/-- Removes the incoming constraint if it is active, and adds it if it is not. -/
def revise (model : LinearModel α n m) (workspace : Workspace α n m) :
    Except Fault (Workspace α n m × Bool) :=
  if workspace.incoming < workspace.active then deactivate model workspace
  else activate model workspace

theorem revise_eq (zero : ((0 : α) == 0) = true) (model : LinearModel α n m)
    (inBounds : workspace.InBounds) : revise model workspace = pure (workspace.revise model) := by
  unfold revise Workspace.revise
  split
  case isTrue member => exact deactivate_eq model inBounds member
  case isFalse inactive => exact activate_eq zero model inBounds (Nat.le_of_not_lt inactive)

/-! ## Walks -/

/-- The greatest violation of an active constraint after the trial step. -/
def trialViolation (model : LinearModel α n m) (workspace : Workspace α n m) : Except Fault α :=
  Fin.foldlM workspace.active (fun greatest k => do
    let constraint ← read workspace.order k
    return larger greatest
      (model.bounds.get constraint - dot workspace.trial (model.gradients.get constraint))) 0

theorem trialViolation_eq (model : LinearModel α n m) (room : workspace.active ≤ m + 1) :
    trialViolation model workspace = pure (workspace.trialViolation model) := by
  have known : ∀ k : Fin workspace.active,
      read workspace.order k = pure (workspace.constraintAt k) :=
    fun k => read_constraint (k.isLt.trans_le room)
  simp only [trialViolation, known, pure_bind, Fin.foldlM_pure]
  rfl

/-- Takes a walk of the given length, and judges the active constraints in the first stage. -/
def walked (model : LinearModel α n m) (workspace : Workspace α n m) (length : α) :
    Except Fault (Workspace α n m) :=
  if (workspace.walk length).secondStage then pure (workspace.walk length)
  else do
    let violation ← trialViolation model (workspace.walk length)
    return { workspace.walk length with violation }

theorem walked_eq (model : LinearModel α n m) (room : workspace.active ≤ m + 1) (length : α) :
    walked model workspace length = pure (workspace.walked model length) := by
  have known : trialViolation model (workspace.walk length) =
      pure ((workspace.walk length).trialViolation model) := trialViolation_eq model room
  rw [walked, known, pure_bind, Workspace.walked]
  split
  · rfl
  · rfl

/-- Finds the multiplier of the active constraint at position `k` in what is left of the trial
step. -/
def multiplierAt (model : LinearModel α n m) (workspace : Workspace α n m) (k : Nat)
    (state : Vector α n × Vector α (m + 1)) : Except Fault (Vector α n × Vector α (m + 1)) := do
  let column ← read workspace.basis k
  let pivot ← read workspace.pivots k
  let constraint ← read workspace.order k
  let multiplier := roundedDot column state.1 / pivot
  let candidates ← write state.2 k multiplier
  return (if 1 ≤ k then state.1 - multiplier * model.gradients.get constraint else state.1,
    candidates)

theorem multiplierAt_eq (model : LinearModel α n m) (workspace : Workspace α n m)
    (column : k < n) (position : k < m + 1) (state : Vector α n × Vector α (m + 1)) :
    multiplierAt model workspace k state =
      pure (Workspace.multiplierAt model workspace k state) := by
  simp only [multiplierAt, read_column column, read_constraint position, read_entry _ position,
    write_of_lt _ position, pure_bind]
  rfl

/-- The candidates with the multipliers of the active constraints.  The last of them is raised to
zero only where there is one. -/
def activeCandidates (model : LinearModel α n m) (workspace : Workspace α n m) :
    Except Fault (Vector α (m + 1)) := do
  let (_, candidates) ← Fin.foldrM workspace.active (fun k => multiplierAt model workspace k)
    (workspace.trial, workspace.candidates)
  if workspace.secondStage ∧ 0 < workspace.active then
    let last ← minus workspace.active 1
    let multiplier ← read candidates last
    write candidates last (larger multiplier 0)
  else return candidates

theorem activeCandidates_eq (model : LinearModel α n m) (few : workspace.active ≤ n)
    (room : workspace.active ≤ m + 1) :
    activeCandidates model workspace = pure (workspace.activeCandidates model) := by
  have found : Fin.foldrM workspace.active (fun k => multiplierAt model workspace k)
      (workspace.trial, workspace.candidates) =
        pure (Fin.foldr workspace.active (fun k => Workspace.multiplierAt model workspace k)
          (workspace.trial, workspace.candidates)) :=
    foldrM_eq (fun _ _ => True) trivial fun k state _ =>
      ⟨multiplierAt_eq model workspace (k.isLt.trans_le few) (k.isLt.trans_le room) state, trivial⟩
  simp only [activeCandidates, found, pure_bind, Workspace.activeCandidates]
  split
  case isTrue second =>
    have last : workspace.active - 1 < m + 1 := (Nat.sub_lt second.2 Nat.one_pos).trans_le room
    rw [minus_of_le second.2, pure_bind, read_entry _ last, pure_bind, write_of_lt _ last]
  case isFalse => rfl

/-- Finds the multipliers of the active constraints, and the residuals of the others that are
considered. -/
def withCandidates (model : LinearModel α n m) (workspace : Workspace α n m) :
    Except Fault (Workspace α n m) := do
  let candidates ← activeCandidates model workspace
  let candidates ← change workspace.active workspace.considered (fun k _ => do
    let constraint ← read workspace.order k
    return workspace.residual model constraint) candidates
  return { workspace with candidates }

theorem withCandidates_eq (model : LinearModel α n m) (few : workspace.active ≤ n)
    (room : workspace.active ≤ m + 1) (within : workspace.considered ≤ m + 1) :
    withCandidates model workspace = pure (workspace.withCandidates model) := by
  rw [withCandidates, activeCandidates_eq model few room, pure_bind,
    change_eq (fun k _ => workspace.residual model (workspace.constraintAt k)) _ within]
  · rfl
  · intro k before _ below
    rw [read_constraint (below.trans_le within), pure_bind]

/-- The part of the trial step that can be taken, and the first position that allows no more. -/
def blocking (workspace : Workspace α n m) : Except Fault (α × Option Nat) :=
  Fin.foldlM workspace.considered (fun (found : α × Option Nat) k => do
    let candidate ← read workspace.candidates k
    if candidate < 0 then
      let current ← read workspace.multipliers k
      let ratio := current / (current - candidate)
      return if ratio < found.1 then (ratio, some k.val) else found
    else return found) (1, none)

theorem blocking_eq (within : workspace.considered ≤ m + 1) :
    blocking workspace = pure workspace.blocking := by
  have known : ∀ k : Fin workspace.considered, ∀ v : Vector α (m + 1),
      read v k = pure (entry v k) :=
    fun k v => read_entry v (k.isLt.trans_le within)
  have step : ∀ (found : α × Option Nat) (k : Fin workspace.considered), (do
      let candidate ← read workspace.candidates k
      if candidate < 0 then
        let current ← read workspace.multipliers k
        let ratio := current / (current - candidate)
        return if ratio < found.1 then (ratio, some k.val) else found
      else return found : Except Fault (α × Option Nat)) =
        pure (if entry workspace.candidates k < 0 then
          if entry workspace.multipliers k / (entry workspace.multipliers k -
            entry workspace.candidates k) < found.1 then
              (entry workspace.multipliers k / (entry workspace.multipliers k -
                entry workspace.candidates k), some k.val)
          else found
        else found) := by
    intro found k
    simp only [known, pure_bind]
    split
    · rfl
    · rfl
  simp only [blocking, step, Fin.foldlM_pure]
  rfl

/-- Takes a part of the trial step; every constraint that is considered needs a multiplier and a
candidate. -/
def advance (workspace : Workspace α n m) (part before : α) : Except Fault (Workspace α n m) := do
  let multipliers ← change 0 workspace.considered (fun k multiplier => do
    let candidate ← read workspace.candidates k
    return larger ((1 - part) * multiplier + part * candidate) 0) workspace.multipliers
  return { workspace with
    step := (1 - part) * workspace.step + part * workspace.trial
    multipliers
    violation := if workspace.secondStage then workspace.violation
      else before + part * (workspace.violation - before) }

theorem advance_eq (within : workspace.considered ≤ m + 1) (part before : α) :
    advance workspace part before = pure (workspace.advance part before) := by
  rw [advance, change_eq (fun k multiplier => larger ((1 - part) * multiplier +
    part * entry workspace.candidates k) 0) _ within]
  · rw [pure_bind]
    refine congrArg pure (congrArg (fun multipliers : Vector α (m + 1) =>
      { workspace.advance part before with multipliers }) (Vector.ext fun i inside => ?_))
    simp only [Vector.getElem_ofFn, Nat.zero_le, true_and, entry_of_lt _ inside, get_eq_getElem]
  · intro k multiplier _ below
    rw [read_entry _ (below.trans_le within), pure_bind]

/-! ## Turns and stages -/

/-- Brings the progress of a stage up to date; a turn without progress lowers the patience. -/
def watch (model : LinearModel α n m) (stage : Stage α n m) : Except Fault (Stage α n m) := do
  if stage.patience = 0 ∨ stage.target model < stage.least then
    return { stage with
      least := stage.target model
      activeRecord := stage.workspace.active
      patience := patienceLimit }
  else if stage.activeRecord < stage.workspace.active then
    return { stage with activeRecord := stage.workspace.active, patience := patienceLimit }
  else
    let patience ← minus stage.patience 1
    return { stage with patience }

/-- The patience is lowered only if there is some left. -/
theorem watch_eq (model : LinearModel α n m) (stage : Stage α n m) :
    watch model stage = pure (stage.watch model) := by
  unfold watch Stage.watch
  split
  case isTrue => rfl
  case isFalse going =>
    split
    case isTrue => rfl
    case isFalse =>
      have patient : stage.patience ≠ 0 := fun none => going (.inl none)
      rw [minus_of_le (Nat.one_le_iff_ne_zero.mpr patient), pure_bind]

/-- Walks the given length from a workspace whose active set has been revised. -/
def walkTurn (model : LinearModel α n m) (stage : Stage α n m) (workspace : Workspace α n m)
    (length full : α) : Except Fault (Turn α n m) := do
  let walked ← walked model workspace length
  let judged ← withCandidates model walked
  let (part, blocker) ← blocking judged
  let advanced ← advance judged part workspace.violation
  match blocker with
  | some position =>
    return .another { stage with workspace := { advanced with incoming := position } }
  | none => return .done advanced (if length == full then .boundary else .inside)

theorem walkTurn_eq (model : LinearModel α n m) (stage : Stage α n m)
    (inBounds : workspace.InBounds) (length full : α) :
    walkTurn model stage workspace length full =
      pure (stage.walkTurn model workspace length full) := by
  have few := inBounds.few
  have within := inBounds.considered
  have room := inBounds.active_le
  obtain ⟨trial, violation, frame⟩ := workspace.walked_frame model length
  obtain ⟨candidates, trial', violation', judged⟩ := workspace.judged_frame model length
  have judge : withCandidates model (workspace.walked model length) =
      pure (workspace.judged model length) :=
    withCandidates_eq model (frame ▸ few) (frame ▸ room) (frame ▸ within)
  have inside : (workspace.judged model length).considered ≤ m + 1 := judged ▸ within
  rw [walkTurn, walked_eq model room, pure_bind, judge, pure_bind, blocking_eq inside, pure_bind]
  dsimp only
  rw [advance_eq inside, pure_bind, Stage.walkTurn_judged]
  cases (workspace.judged model length).blocking.2 with
  | none => rfl
  | some => rfl

/-- Makes one turn of a stage. -/
def turn (model : LinearModel α n m) (radius : α) (stage : Stage α n m) :
    Except Fault (Turn α n m) := do
  let stage ← watch model stage
  if stage.patience = 0 then return .done stage.workspace .stalled
  else
    match ← revise model stage.workspace with
    | (stuck, false) => return .done stuck .stalled
    | (revised, true) =>
      let room := revised.room radius
      if room ≤ 0 then return .done revised .stalled
      else
        let full := revised.fullLength room
        if revised.secondStage then walkTurn model stage revised full full
        else if revised.negligibleViolation full then return .done revised .boundary
        else walkTurn model stage revised (smaller full revised.violation) full

/-- **A turn meets no fault** where the positions are in bounds. -/
theorem turn_eq (zero : ((0 : α) == 0) = true) (model : LinearModel α n m) (radius : α)
    {stage : Stage α n m} (inBounds : stage.workspace.InBounds) :
    turn model radius stage = pure (stage.turn model radius) := by
  have revision := inBounds.revise zero model
  obtain ⟨revised, done, known⟩ : ∃ revised done,
      stage.workspace.revise model = (revised, done) := ⟨_, _, rfl⟩
  rw [known] at revision
  rw [turn, watch_eq, pure_bind, Stage.turn, Stage.workspace_watch,
    revise_eq zero model inBounds, pure_bind, known]
  dsimp only
  split
  case isTrue => rfl
  case isFalse =>
    cases done with
    | false => rfl
    | true =>
      dsimp only
      split
      case isTrue => rfl
      case isFalse =>
        split
        case isTrue => exact walkTurn_eq model _ revision _ _
        case isFalse =>
          split
          case isTrue => rfl
          case isFalse => exact walkTurn_eq model _ revision _ _

/-- Makes turns until the stage ends or the fuel is used up. -/
def run (model : LinearModel α n m) (radius : α) :
    Nat → Stage α n m → Except Fault (Option (Workspace α n m × StageEnd))
  | 0, _ => pure none
  | fuel + 1, stage => do
    match ← turn model radius stage with
    | .another stage => run model radius fuel stage
    | .done workspace how => return some (workspace, how)

theorem run_eq (zero : ((0 : α) == 0) = true) (model : LinearModel α n m) (radius : α)
    {stage : Stage α n m} (inBounds : stage.workspace.InBounds) (fuel : Nat) :
    run model radius fuel stage = pure (stage.run model radius fuel) := by
  induction fuel generalizing stage with
  | zero => rfl
  | succ fuel ih =>
    have turned := Stage.inBounds_turn zero model radius inBounds
    rw [run, turn_eq zero model radius inBounds, pure_bind, Stage.run]
    cases known : stage.turn model radius with
    | another next =>
      rw [known] at turned
      exact ih turned
    | done => rfl

/-- The greatest positive bound of a constraint, and the constraint that has it first. -/
def worstBound (model : LinearModel α n m) : Except Fault (α × Nat) :=
  Fin.foldlM m (fun (worst : α × Nat) k => do
    let bound ← read model.bounds k
    return if worst.1 < bound then (bound, k.val) else worst) (0, 0)

theorem worstBound_eq (model : LinearModel α n m) :
    worstBound model = pure (Workspace.worstBound model) := by
  have known : ∀ k : Fin m, read model.bounds k = pure (model.bounds.get k.castSucc) :=
    fun k => (read_entry _ k.castSucc.isLt).trans (congrArg pure (entry_of_lt _ k.castSucc.isLt))
  simp only [worstBound, known, pure_bind, Fin.foldlM_pure]
  rfl

/-- Starts the first stage.  All constraints but the objective get a position and a multiplier. -/
def begin (model : LinearModel α n m) (workspace : Workspace α n m) :
    Except Fault (Workspace α n m) := do
  let worst ← worstBound model
  let order ← change 0 m (fun k _ => constraint k) workspace.order
  let multipliers ← change 0 m (fun k _ => do
    let bound ← read model.bounds k
    return worst.1 - bound) workspace.multipliers
  return { workspace with
    basis := diagonal n 1
    direction := 0
    step := 0
    active := 0
    considered := m
    incoming := worst.2
    violation := worst.1
    order
    multipliers }

theorem begin_eq (model : LinearModel α n m) (workspace : Workspace α n m) :
    begin model workspace = pure (workspace.begin model) := by
  have order : change 0 m (fun k _ => constraint k) workspace.order =
      pure (workspace.begin model).order := by
    rw [change_eq (fun k before => if inside : k < m + 1 then ⟨k, inside⟩ else before) _
      (Nat.le_succ m)]
    · refine congrArg pure (Vector.ext fun i inside => ?_)
      simp only [Workspace.begin, Vector.getElem_ofFn, Nat.zero_le, true_and, inside, dite_true]
    · intro k before _ below
      have inside : k < m + 1 := Nat.lt_succ_of_lt below
      rw [constraint, dif_pos inside, dif_pos inside]
  have multipliers : change 0 m (fun k _ => do
      let bound ← read model.bounds k
      return (Workspace.worstBound model).1 - bound) workspace.multipliers =
        pure (workspace.begin model).multipliers := by
    rw [change_eq (fun k _ => (Workspace.worstBound model).1 - entry model.bounds k) _
      (Nat.le_succ m)]
    · refine congrArg pure (Vector.ext fun i inside => ?_)
      simp only [Workspace.begin, Vector.getElem_ofFn, Nat.zero_le, true_and,
        entry_of_lt _ inside, get_eq_getElem]
    · intro k before _ below
      rw [read_entry _ (Nat.lt_succ_of_lt below), pure_bind]
  rw [begin, worstBound_eq, pure_bind, order, pure_bind, multipliers, pure_bind]
  rfl

/-- Starts the second stage: the objective gets the position after the constraints. -/
def includeObjective (workspace : Workspace α n m) : Except Fault (Workspace α n m) := do
  let order ← write workspace.order m (Fin.last m)
  let multipliers ← write workspace.multipliers m 0
  return { workspace with considered := m + 1, incoming := m, order, multipliers }

theorem includeObjective_eq (workspace : Workspace α n m) :
    includeObjective workspace = pure workspace.includeObjective := by
  have last := Nat.lt_succ_self m
  simp only [includeObjective, write_of_lt _ last, pure_bind, Workspace.includeObjective,
    set_eq_setIfInBounds]

/-- Runs the second stage, and runs it again where it ends inside the trust region. -/
def runSecondStage (model : LinearModel α n m) (radius : α) (fuel : Nat) :
    Nat → Workspace α n m → Except Fault (Option (Workspace α n m × StepEnd))
  | 0, _ => pure none
  | rounds + 1, workspace => do
    let opened ← includeObjective workspace
    match ← run model radius fuel (.first opened) with
    | none => return none
    | some (ended, .boundary) => return some (ended, .boundary)
    | some (ended, .inside) => runSecondStage model radius fuel rounds ended
    | some (ended, .stalled) => return some (ended, .stalled ended.active)

theorem runSecondStage_eq (zero : ((0 : α) == 0) = true) (model : LinearModel α n m) (radius : α)
    (few : workspace.active ≤ n) (room : workspace.active ≤ m + 1) (fuel rounds : Nat) :
    runSecondStage model radius fuel rounds workspace =
      pure (workspace.runSecondStage model radius fuel rounds) := by
  induction rounds generalizing workspace with
  | zero => rfl
  | succ rounds ih =>
    have opened := Workspace.inBounds_includeObjective few room
    rw [runSecondStage, includeObjective_eq, pure_bind, run_eq zero model radius opened, pure_bind,
      Workspace.runSecondStage]
    cases known : (Stage.first workspace.includeObjective).run model radius fuel with
    | none => rfl
    | some result =>
      obtain ⟨ended, how⟩ := result
      have inBounds := Stage.inBounds_run zero opened known
      cases how with
      | inside => exact ih inBounds.few inBounds.active_le
      | boundary | stalled => rfl

/-- Finds the step of a model, unless a routine meets a fault. -/
def solve (model : LinearModel α n m) (radius : α) (fuel : Nat) (workspace : Workspace α n m) :
    Except Fault (Option (Workspace α n m × StepEnd)) := do
  let started ← begin model workspace
  if started.violation == 0 then runSecondStage model radius fuel fuel started
  else
    match ← run model radius fuel (.first started) with
    | none => return none
    | some (ended, .boundary) => return some (ended, .boundary)
    | some (ended, _) => runSecondStage model radius fuel fuel ended

/-- **The search for a step meets no fault.** -/
theorem solve_eq (zero : ((0 : α) == 0) = true) (model : LinearModel α n m) (radius : α)
    (fuel : Nat) (workspace : Workspace α n m) :
    solve model radius fuel workspace = pure (workspace.solve model radius fuel) := by
  have opening := Workspace.inBounds_opening zero model workspace
  rw [solve, begin_eq, pure_bind, Workspace.solve]
  unfold Workspace.opening at opening
  split
  case isTrue =>
    exact runSecondStage_eq zero model radius (Nat.zero_le n) (Nat.zero_le (m + 1)) fuel fuel
  case isFalse violated =>
    rw [if_neg violated] at opening
    rw [run_eq zero model radius opening, pure_bind]
    cases known : (Stage.first (workspace.begin model)).run model radius fuel with
    | none => rfl
    | some result =>
      obtain ⟨ended, how⟩ := result
      have inBounds := Stage.inBounds_run zero opening known
      have later := runSecondStage_eq zero model radius inBounds.few inBounds.active_le fuel fuel
      cases how with
      | boundary => rfl
      | inside | stalled => exact later

end Checked

/-! ## The search for a step -/

variable {α : Type} [Scalar α] {n m : Nat}

/-- The positions and counts that the next turn works with. -/
structure Stage.Sound (model : LinearModel α n m) (stage : Stage α n m) : Prop where
  /-- The positions are in bounds before the active set is revised. -/
  before : stage.workspace.InBounds
  /-- They are in bounds after that. -/
  after : (stage.workspace.revise model).1.InBounds
  /-- Without active constraints none is removed. -/
  removal : stage.workspace.active = 0 →
    stage.workspace.revise model = stage.workspace.activate model
  /-- Without active constraints there is none whose place a dependent one could take. -/
  replacement : stage.workspace.active = 0 → ∀ gradient,
    ((stage.workspace.aligned model).enterDependent model gradient).2 = false
  /-- A stage without patience has some again before it is lowered. -/
  patience : stage.patience = 0 → (stage.watch model).patience = patienceLimit

theorem Stage.Sound.of_inBounds (zero : ((0 : α) == 0) = true) (model : LinearModel α n m)
    {stage : Stage α n m} (inBounds : stage.workspace.InBounds) : stage.Sound model where
  before := inBounds
  after := inBounds.revise zero model
  removal idle := if_neg (idle ▸ Nat.not_lt_zero _)
  replacement idle gradient := by
    obtain ⟨dependent, done, entered⟩ : ∃ dependent done, Workspace.enterDependent model
        (stage.workspace.aligned model) gradient = (dependent, done) := ⟨_, _, rfl⟩
    rw [entered]
    cases done with
    | false => rfl
    | true => exact absurd idle (Workspace.active_pos_of_enterDependent entered).ne'
  patience none := by rw [watch, if_pos (.inl none)]

/-- **The search for a step stays within its vectors, and no count falls below zero**, whatever the
numbers are: with all positions and counts checked it is the same search, and in every stage that
comes up they are as they should be.  All that is needed of the arithmetic is that zero is found
equal to itself. -/
theorem Workspace.solve_faultless (zero : ((0 : α) == 0) = true) (model : LinearModel α n m)
    (radius : α) (workspace : Workspace α n m) :
    (∀ fuel, Checked.solve model radius fuel workspace =
      .ok (workspace.solve model radius fuel)) ∧
    ∀ stage, workspace.Reaches model radius stage → stage.Sound model :=
  ⟨fun fuel => Checked.solve_eq zero model radius fuel workspace,
    fun _ reached => .of_inBounds zero model (reached.inBounds zero)⟩

/-- The constraint has a gradient that is not a number, and the objective an infinite one. -/
def brokenModel : LinearModel Float 1 1 where
  gradients := .ofFn fun k => .ofFn fun _ => if k.val = 0 then 0 / 0 else 1 / 0
  bounds := .ofFn fun _ => 1

theorem Workspace.solve_faultless_in_double_precision :
    ((0 : Float) == 0) = true ∧
      Checked.solve brokenModel 1 4 (.fresh 1 1) = .ok ((fresh 1 1).solve brokenModel 1 4) ∧
      ((fresh 1 1).opening brokenModel).Sound brokenModel := by
  have zero : ((0 : Float) == 0) = true := by decide +kernel
  obtain ⟨checked, sound⟩ := solve_faultless zero brokenModel 1 (fresh 1 1)
  exact ⟨zero, checked 4, sound _ .refl⟩

end DerivativeFree
