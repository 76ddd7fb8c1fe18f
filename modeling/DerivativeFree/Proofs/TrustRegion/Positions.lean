import DerivativeFree.Proofs.TrustRegion.Factored

/-!
# Positions after a revision

A revision of the active set moves constraints to other positions, and their multipliers and
residuals with them.  A constraint that is inactive afterwards has kept its residual, or it has
been active (`Rearranged`).  In that case it has no residual, if the constraint that was to enter
or to leave had none before, as after a walk that this constraint has blocked.  This holds of
every revision (`revise_rearranged`).

No revision makes a multiplier or a residual negative (`Nonneg.revise`).
-/

namespace DerivativeFree.Workspace

set_option autoImplicit false

variable {α : Type} [EuclideanField α] {n m : Nat} {model : LinearModel α n m}
  {workspace revised : Workspace α n m} {k : Nat}

/-! ## Permutations -/

/-- The other workspace has the same constraints with the same multipliers at other positions. -/
def Permuted (σ : Equiv.Perm Nat) (workspace other : Workspace α n m) : Prop :=
  ∀ k, other.constraintAt k = workspace.constraintAt (σ k) ∧
    entry other.multipliers k = entry workspace.multipliers (σ k)

theorem permuted_exchange (model : LinearModel α n m) (workspace : Workspace α n m)
    (inside : k < m) : Permuted (Equiv.swap k (k + 1)) workspace (exchange model workspace k) := by
  have first : k < m + 1 := Nat.lt_succ_of_lt inside
  have second : k + 1 < m + 1 := Nat.succ_lt_succ inside
  intro j
  simp only [constraintAt, entry, exchange, getElem?_swapIfInBounds workspace.order first second,
    getElem?_swapIfInBounds workspace.multipliers first second, and_self]

/-- Exchanges from a position on carry the constraint there to the last of the positions. -/
theorem permuted_exchanges (model : LinearModel α n m) (workspace : Workspace α n m)
    (start length : Nat) (inside : start + length ≤ m) :
    ∃ σ : Equiv.Perm Nat, (∀ k, start + length < k → σ k = k) ∧ σ (start + length) = start ∧
      Permuted σ workspace ((List.range' start length).foldl (exchange model) workspace) := by
  induction length generalizing start workspace with
  | zero => exact ⟨1, fun _ _ => rfl, rfl, fun _ => ⟨rfl, rfl⟩⟩
  | succ length ih =>
    obtain ⟨σ, beyond, last, later⟩ :=
      ih (exchange model workspace start) (start + 1) (by omega)
    have first := permuted_exchange model workspace (by omega : start < m)
    have total : start + (length + 1) = start + 1 + length := by omega
    refine ⟨σ.trans (Equiv.swap start (start + 1)), fun k after => ?_, ?_, fun k => ?_⟩
    · rw [Equiv.trans_apply, beyond k (by omega),
        Equiv.swap_apply_of_ne_of_ne (by omega) (by omega)]
    · rw [total, Equiv.trans_apply, last, Equiv.swap_apply_right]
    · rw [List.range'_succ, List.foldl_cons]
      exact ⟨(later k).1.trans (first (σ k)).1, (later k).2.trans (first (σ k)).2⟩

/-- The constraint that leaves is carried to the last active position. -/
theorem permuted_released (model : LinearModel α n m)
    (among : workspace.incoming < workspace.active) (few : workspace.active ≤ m + 1) :
    ∃ σ : Equiv.Perm Nat, (∀ k, workspace.active ≤ k → σ k = k) ∧
      σ (workspace.active - 1) = workspace.incoming ∧
      Permuted σ workspace (workspace.released model) := by
  obtain ⟨σ, beyond, last, permuted⟩ := permuted_exchanges model workspace workspace.incoming
    (workspace.active - 1 - workspace.incoming) (by omega)
  have total : workspace.incoming + (workspace.active - 1 - workspace.incoming) =
      workspace.active - 1 := by omega
  rw [total] at beyond last
  exact ⟨σ, fun k inactive => beyond k (by omega), last, permuted⟩

/-- A permutation that leaves the positions from a bound on alone keeps to those before it. -/
theorem lt_of_fixed {σ : Equiv.Perm Nat} {bound : Nat} (fixed : ∀ k, bound ≤ k → σ k = k)
    (inside : k < bound) : σ k < bound := by
  by_contra outside
  have same := σ.injective (fixed (σ k) (Nat.le_of_not_lt outside))
  omega

/-! ## Dependent constraints -/

theorem entry_lowered (found : Dependence α n m) (ratio : α) (inside : k < m + 1) :
    entry (workspace.lowered found ratio) k =
      if k < workspace.active then
        max (entry workspace.multipliers k - ratio * entry found.coefficients k) 0
      else entry workspace.multipliers k := by
  simp only [lowered, entry_of_lt _ inside, Vector.getElem_ofFn, larger_eq_max, get_eq_getElem]

theorem enterDependent_true {gradient : Vector α n} {dependent : Workspace α n m}
    (entered : enterDependent model workspace gradient = (dependent, true)) :
    ∃ ratio, (dependence model workspace gradient).ratio = some ratio ∧
      dot (workspace.basisAt (workspace.active - 1)) gradient ≠ 0 ∧
      dependent = { workspace.expressing (dependence model workspace gradient) with
        pivots := workspace.pivots.setIfInBounds (workspace.active - 1)
          (dot (workspace.basisAt (workspace.active - 1)) gradient)
        multipliers := ((workspace.lowered (dependence model workspace gradient)
          ratio).setIfInBounds workspace.incoming 0).setIfInBounds (workspace.active - 1)
            ratio } := by
  rw [enterDependent_eq] at entered
  split at entered
  case h_1 => cases entered
  case h_2 ratio known =>
    split at entered
    case isTrue => cases entered
    case isFalse pivot =>
      cases entered
      exact ⟨ratio, known, by simpa using pivot, rfl⟩

theorem enterDependent_false {gradient : Vector α n} {dependent : Workspace α n m}
    (entered : enterDependent model workspace gradient = (dependent, false)) :
    (dependence model workspace gradient).ratio = none ∧
        dependent = workspace.expressing (dependence model workspace gradient) ∨
      ∃ ratio, (dependence model workspace gradient).ratio = some ratio ∧
        dot (workspace.basisAt (workspace.active - 1)) gradient = 0 ∧
        dependent = { workspace.expressing (dependence model workspace gradient) with
          multipliers := workspace.lowered (dependence model workspace gradient) ratio } := by
  rw [enterDependent_eq] at entered
  split at entered
  case h_1 none =>
    cases entered
    exact .inl ⟨none, rfl⟩
  case h_2 ratio known =>
    split at entered
    case isTrue pivot =>
      cases entered
      exact .inr ⟨ratio, known, beq_iff_eq.mp pivot, rfl⟩
    case isFalse => cases entered

/-! ## Independent constraints -/

/-- A constraint enters without a multiplier, and the residual at the first inactive position makes
room for it. -/
theorem entry_enterIndependent (workspace : Workspace α n m) (place : workspace.incoming < m + 1)
    (last : workspace.active < m + 1) (component : α) (k : Nat) :
    entry (workspace.enterIndependent component).multipliers k =
      if workspace.active = k then 0 else if workspace.incoming = k then
        entry workspace.multipliers workspace.active else entry workspace.multipliers k := by
  simp only [enterIndependent, entry_setIfInBounds _ place, entry_setIfInBounds _ last]

/-- The same after the basis has been aligned and the constraint has been put into its place. -/
theorem entry_added (model : LinearModel α n m) (place : workspace.incoming < m + 1)
    (last : workspace.active < m + 1) (component : α) (k : Nat) :
    entry ((workspace.aligned model).enterIndependent component).placed.multipliers k =
      if workspace.active = k then 0 else if workspace.incoming = k then
        entry workspace.multipliers workspace.active else entry workspace.multipliers k :=
  (workspace.aligned model).entry_enterIndependent place last component k

/-! ## Rearrangements -/

/-- What a revision does to the positions of the constraints and to what is known about them
there. -/
structure Rearranged (workspace revised : Workspace α n m) : Prop where
  /-- What is active has been active before, or has entered. -/
  active : ∀ k < revised.active, ∃ j, (j < workspace.active ∨ j = workspace.incoming) ∧
    revised.constraintAt k = workspace.constraintAt j
  /-- What is inactive has kept its residual, or has been active and has none; at least if the
  constraint that enters or leaves had none. -/
  inactive : ∀ k, revised.active ≤ k → k < workspace.considered →
    (∃ j, workspace.active ≤ j ∧ j < workspace.considered ∧
      revised.constraintAt k = workspace.constraintAt j ∧
        entry revised.multipliers k = entry workspace.multipliers j) ∨
    (∃ j < workspace.active, revised.constraintAt k = workspace.constraintAt j ∧
      (entry workspace.multipliers workspace.incoming = 0 → entry revised.multipliers k = 0))
  /-- All constraints that are considered still have a position. -/
  order : ∃ σ : Equiv.Perm Nat, (∀ k, workspace.considered ≤ k → σ k = k) ∧
    ∀ k, revised.constraintAt k = workspace.constraintAt (σ k)

namespace Rearranged

/-- Active constraints may change places. -/
theorem permuted (rearranged : Rearranged workspace revised) {other : Workspace α n m}
    {σ : Equiv.Perm Nat} (active : other.active = revised.active)
    (few : revised.active ≤ workspace.considered) (fixed : ∀ k, revised.active ≤ k → σ k = k)
    (permuted : Permuted σ revised other) : Rearranged workspace other where
  active k inside := by
    obtain ⟨j, place, known⟩ := rearranged.active (σ k) (lt_of_fixed fixed (inside.trans_eq active))
    exact ⟨j, place, (permuted k).1.trans known⟩
  inactive k after inside := by
    have still := permuted k
    rw [fixed k (active.symm.trans_le after)] at still
    rw [still.1, still.2]
    exact rearranged.inactive k (active.symm.trans_le after) inside
  order := by
    obtain ⟨τ, beyond, known⟩ := rearranged.order
    refine ⟨σ.trans τ, fun k outside => ?_, fun k => (permuted k).1.trans (known (σ k))⟩
    rw [Equiv.trans_apply, fixed k (few.trans outside), beyond k outside]

/-- Only the order, the multipliers and the number of active constraints matter. -/
theorem congr (rearranged : Rearranged workspace revised) {other : Workspace α n m}
    (order : other.order = revised.order) (multipliers : other.multipliers = revised.multipliers)
    (active : other.active = revised.active) : Rearranged workspace other := by
  have same : ∀ k, other.constraintAt k = revised.constraintAt k := by
    intro k
    rw [constraintAt, order, constraintAt]
  obtain ⟨before, after, listed⟩ := rearranged
  refine ⟨fun k inside => ?_, fun k beyond inside => ?_, ?_⟩
  · rw [same]
    exact before k (inside.trans_eq active)
  · rw [same, multipliers]
    exact after k (active.symm.trans_le beyond) inside
  · simpa only [same] using listed

theorem listed (rearranged : Rearranged workspace revised) {c : Fin (m + 1)}
    (known : ∃ k < workspace.considered, workspace.constraintAt k = c) :
    ∃ k < workspace.considered, revised.constraintAt k = c := by
  obtain ⟨k, inside, rfl⟩ := known
  obtain ⟨σ, beyond, order⟩ := rearranged.order
  refine ⟨σ.symm k, ?_, by rw [order, Equiv.apply_symm_apply]⟩
  refine lt_of_fixed (fun j outside => ?_) inside
  rw [Equiv.symm_apply_eq, beyond j outside]

end Rearranged

/-! ## Revisions -/

theorem active_exchanges (model : LinearModel α n m) (workspace : Workspace α n m)
    (positions : List Nat) :
    (positions.foldl (exchange model) workspace).active = workspace.active := by
  induction positions generalizing workspace with
  | nil => rfl
  | cons k positions ih => exact ih (exchange model workspace k)

omit [EuclideanField α] in
theorem constraintAt_swap (workspace : Workspace α n m) {i j : Nat} (left : i < m + 1)
    (right : j < m + 1) (k : Nat) :
    constraintAt { workspace with order := workspace.order.swapIfInBounds i j } k =
      workspace.constraintAt (Equiv.swap i j k) := by
  simp only [constraintAt, getElem?_swapIfInBounds workspace.order left right]

theorem rearranged_released (factored : workspace.Factored model)
    (among : workspace.incoming < workspace.active) :
    Rearranged workspace (workspace.released model) := by
  obtain ⟨σ, fixed, last, permuted⟩ :=
    permuted_released model among (factored.room.trans factored.most)
  have fewer : (workspace.released model).active = workspace.active - 1 :=
    congrArg (· - 1) (active_exchanges model workspace _)
  refine ⟨fun k inside => ?active, fun k after inside => ?inactive,
    σ, fun k outside => fixed k (factored.room.trans outside), fun k => (permuted k).1⟩
  case active =>
    exact ⟨σ k, .inl (lt_of_fixed fixed (by omega)), (permuted k).1⟩
  case inactive =>
    rcases Nat.lt_or_ge k workspace.active with freed | before
    · obtain rfl : k = workspace.active - 1 := by omega
      have known := permuted (workspace.active - 1)
      rw [last] at known
      exact .inr ⟨workspace.incoming, among, known.1, known.2.trans⟩
    · have known := permuted k
      rw [fixed k before] at known
      exact .inl ⟨k, before, inside, known⟩

/-- The constraint that was in the first inactive position makes room for the one that enters. -/
theorem rearranged_added (factored : workspace.Factored model)
    (inactive : workspace.active ≤ workspace.incoming) (component : α) :
    Rearranged workspace ((workspace.aligned model).enterIndependent component).placed := by
  have inside := factored.inside
  have most := factored.most
  have place : workspace.incoming < m + 1 := inside.trans_le most
  have last : workspace.active < m + 1 := inactive.trans_lt place
  have order : ∀ k, ((workspace.aligned model).enterIndependent component).placed.constraintAt k =
      workspace.constraintAt (Equiv.swap workspace.incoming workspace.active k) :=
    constraintAt_swap ((workspace.aligned model).enterIndependent component) place last
  have multiplier := entry_added model place last component
  refine ⟨fun k below => ?active, fun k after within => ?inactive,
    Equiv.swap workspace.incoming workspace.active, fun k outside => ?fixed, order⟩
  case active =>
    refine ⟨_, ?_, order k⟩
    have below : k < workspace.active + 1 := below
    rcases Nat.eq_or_lt_of_le (Nat.le_of_lt_succ below) with rfl | before
    · exact .inr (Equiv.swap_apply_right ..)
    · rw [Equiv.swap_apply_of_ne_of_ne (by omega) (by omega)]
      exact .inl before
  case inactive =>
    have after : workspace.active + 1 ≤ k := after
    rw [order, multiplier, if_neg (by omega)]
    by_cases moved : workspace.incoming = k
    · rw [if_pos moved, ← moved, Equiv.swap_apply_left]
      exact .inl ⟨workspace.active, le_rfl, by omega, rfl, rfl⟩
    · rw [if_neg moved, Equiv.swap_apply_of_ne_of_ne (Ne.symm moved) (by omega)]
      exact .inl ⟨k, by omega, within, rfl, rfl⟩
  case fixed =>
    have other : k ≠ workspace.incoming := (inside.trans_le outside).ne'
    have further : k ≠ workspace.active := (inactive.trans_lt (inside.trans_le outside)).ne'
    exact Equiv.swap_apply_of_ne_of_ne other further

/-- The last active constraint leaves without a residual. -/
theorem rearranged_replaced (factored : workspace.Factored model)
    (inactive : workspace.active ≤ workspace.incoming) {gradient : Vector α n}
    {dependent : Workspace α n m}
    (entered : enterDependent model (workspace.aligned model) gradient = (dependent, true)) :
    Rearranged workspace dependent.placed := by
  have some := active_pos_of_enterDependent entered
  have some : 0 < workspace.active := some
  obtain ⟨ratio, -, -, rfl⟩ := enterDependent_true entered
  have inside := factored.inside
  have most := factored.most
  have place : workspace.incoming < m + 1 := inside.trans_le most
  have last : workspace.active - 1 < m + 1 := by omega
  generalize dependence model (workspace.aligned model) gradient = found
  generalize enters : Workspace.placed { (workspace.aligned model).expressing found with
    pivots := (workspace.aligned model).pivots.setIfInBounds ((workspace.aligned model).active - 1)
      (dot ((workspace.aligned model).basisAt ((workspace.aligned model).active - 1)) gradient)
    multipliers := (((workspace.aligned model).lowered found ratio).setIfInBounds
      (workspace.aligned model).incoming 0).setIfInBounds ((workspace.aligned model).active - 1)
        ratio } = placed
  have order : ∀ k, placed.constraintAt k =
      workspace.constraintAt (Equiv.swap workspace.incoming (workspace.active - 1) k) := by
    rw [← enters]
    exact constraintAt_swap workspace place last
  have active : placed.active = workspace.active := by
    rw [← enters]
    rfl
  have multiplier : ∀ k, workspace.active ≤ k → k < m + 1 → entry placed.multipliers k =
      if workspace.incoming = k then 0 else entry workspace.multipliers k := by
    intro k after within
    have other : ¬ workspace.active - 1 = k := by omega
    have beyond : ¬ k < workspace.active := not_lt.mpr after
    rw [← enters]
    change entry (Vector.setIfInBounds (Vector.setIfInBounds
      ((workspace.aligned model).lowered found ratio) workspace.incoming 0)
        (workspace.active - 1) ratio) k = _
    rw [entry_setIfInBounds _ last, if_neg other, entry_setIfInBounds _ place,
      entry_lowered found ratio within]
    exact if_congr Iff.rfl rfl (if_neg beyond)
  refine ⟨fun k below => ?active, fun k after within => ?inactive,
    Equiv.swap workspace.incoming (workspace.active - 1), fun k outside => ?fixed, order⟩
  case active =>
    refine ⟨_, ?_, order k⟩
    rw [active] at below
    rcases Nat.eq_or_lt_of_le (Nat.le_sub_one_of_lt below) with rfl | before
    · exact .inr (Equiv.swap_apply_right ..)
    · rw [Equiv.swap_apply_of_ne_of_ne (by omega) before.ne]
      exact .inl below
  case inactive =>
    rw [active] at after
    rw [order, multiplier k after (within.trans_le most)]
    by_cases moved : workspace.incoming = k
    · rw [if_pos moved, ← moved, Equiv.swap_apply_left]
      exact .inr ⟨workspace.active - 1, Nat.sub_lt some Nat.one_pos, rfl, fun _ => rfl⟩
    · rw [if_neg moved, Equiv.swap_apply_of_ne_of_ne (Ne.symm moved) (by omega)]
      exact .inl ⟨k, after, within, rfl, rfl⟩
  case fixed =>
    have other : k ≠ workspace.incoming := (inside.trans_le outside).ne'
    have further : k ≠ workspace.active - 1 := by omega
    exact Equiv.swap_apply_of_ne_of_ne other further

theorem Rearranged.settleEntry {entered : Workspace α n m}
    (rearranged : Rearranged workspace entered.placed)
    (few : entered.active ≤ workspace.considered) (most : workspace.considered ≤ m + 1) :
    Rearranged workspace (entered.settleEntry model) := by
  rw [settleEntry_eq]
  split
  case isTrue =>
    split
    case isTrue among =>
      have exchanged := permuted_exchange model entered.placed
        (by omega : entered.active - 1 - 1 < m)
      have moved : Rearranged workspace
          (exchange model entered.placed (entered.active - 1 - 1)) := by
        refine rearranged.permuted rfl few (fun k after => ?_) exchanged
        have after : entered.active ≤ k := after
        exact Equiv.swap_apply_of_ne_of_ne (by omega) (by omega)
      exact moved.congr rfl rfl rfl
    case isFalse => exact rearranged.congr rfl rfl rfl
  case isFalse => exact rearranged.congr rfl rfl rfl

/-- What cannot enter changes nothing but the multipliers of the active constraints. -/
theorem rearranged_stuck (factored : workspace.Factored model) {gradient : Vector α n}
    {dependent : Workspace α n m}
    (entered : enterDependent model (workspace.aligned model) gradient = (dependent, false)) :
    Rearranged workspace dependent := by
  have still : Rearranged workspace workspace :=
    ⟨fun k inside => ⟨k, .inl inside, rfl⟩, fun k after inside => .inl ⟨k, after, inside, rfl, rfl⟩,
      1, fun _ _ => rfl, fun _ => rfl⟩
  rcases enterDependent_false entered with ⟨-, rfl⟩ | ⟨ratio, -, -, rfl⟩
  · exact still.congr rfl rfl rfl
  · refine ⟨still.active, fun k after inside => .inl ⟨k, after, inside, rfl, ?_⟩, still.order⟩
    have after : workspace.active ≤ k := after
    exact (entry_lowered _ ratio (inside.trans_le factored.most)).trans
      (if_neg (not_lt.mpr after))

/-- **A revision rearranges the positions.** -/
theorem revise_rearranged (factored : workspace.Factored model) :
    Rearranged workspace (workspace.revise model).1 := by
  have outcome := revise_outcome model workspace
  generalize workspace.revise model = result at outcome
  cases outcome with
  | emptied _ among => exact rearranged_released factored among
  | left _ _ among => exact (rearranged_released factored among).congr rfl rfl rfl
  | receded _ among => exact (rearranged_released factored among).congr rfl rfl rfl
  | stuck entered => exact rearranged_stuck factored entered
  | replaced inactive _ entered =>
    obtain ⟨_, _, _, rfl, -⟩ := enterDependent_outcome entered
    exact (rearranged_replaced factored inactive entered).settleEntry factored.room factored.most
  | added inactive =>
    exact (rearranged_added factored inactive _).settleEntry (inactive.trans_lt factored.inside)
      factored.most

/-! ## Signs -/

/-- No multiplier and no residual is negative. -/
def Nonneg (workspace : Workspace α n m) : Prop :=
  ∀ k < workspace.considered, 0 ≤ entry workspace.multipliers k

namespace Nonneg

theorem permuted (nonneg : workspace.Nonneg) {other : Workspace α n m} {σ : Equiv.Perm Nat}
    (considered : other.considered = workspace.considered)
    (fixed : ∀ k, workspace.considered ≤ k → σ k = k) (permuted : Permuted σ workspace other) :
    other.Nonneg := by
  intro k inside
  rw [(permuted k).2]
  exact nonneg _ (lt_of_fixed fixed (inside.trans_eq considered))

/-- The ratio that a dependent constraint enters with is one of multipliers to positive
coefficients. -/
theorem dependence_ratio (nonneg : workspace.Nonneg)
    (room : workspace.active ≤ workspace.considered) (gradient : Vector α n) {ratio : α}
    (known : (dependence model workspace gradient).ratio = some ratio) : 0 ≤ ratio := by
  obtain ⟨k, active, -, coefficient, positive, rfl⟩ := limiting_of_ratio known
  exact div_nonneg (nonneg k (active.trans_le room)) positive.le

theorem lowered (nonneg : workspace.Nonneg) (found : Dependence α n m) (ratio : α)
    (inside : k < workspace.considered) (most : workspace.considered ≤ m + 1) :
    0 ≤ entry (workspace.lowered found ratio) k := by
  rw [entry_lowered found ratio (inside.trans_le most)]
  split_ifs
  · exact le_max_right _ _
  · exact nonneg k inside

theorem released (nonneg : workspace.Nonneg) (factored : workspace.Factored model)
    (among : workspace.incoming < workspace.active) : (workspace.released model).Nonneg := by
  obtain ⟨σ, fixed, -, permuted⟩ := permuted_released model among
    (factored.room.trans factored.most)
  exact nonneg.permuted (considered_exchanges model workspace _)
    (fun k outside => fixed k (factored.room.trans outside)) permuted

theorem enterDependent (nonneg : workspace.Nonneg) (factored : workspace.Factored model)
    {gradient : Vector α n} {dependent : Workspace α n m} {done : Bool}
    (entered : enterDependent model workspace gradient = (dependent, done)) :
    dependent.Nonneg := by
  have place := factored.inside.trans_le factored.most
  have few := factored.room.trans factored.most
  cases done with
  | false =>
    rcases enterDependent_false entered with ⟨-, rfl⟩ | ⟨ratio, -, -, rfl⟩
    · exact nonneg
    · exact fun k inside => nonneg.lowered _ ratio inside factored.most
  | true =>
    obtain ⟨ratio, known, -, rfl⟩ := enterDependent_true entered
    intro k inside
    rw [entry_setIfInBounds _ (by omega), entry_setIfInBounds _ place]
    split_ifs
    · exact nonneg.dependence_ratio factored.room gradient known
    · exact le_rfl
    · exact nonneg.lowered _ ratio inside factored.most

theorem enterIndependent (nonneg : workspace.Nonneg) (factored : workspace.Factored model)
    (inactive : workspace.active ≤ workspace.incoming) (component : α) :
    (workspace.enterIndependent component).Nonneg := by
  have place := factored.inside.trans_le factored.most
  intro k inside
  rw [entry_enterIndependent _ place (inactive.trans_lt place)]
  split_ifs
  · exact le_rfl
  · exact nonneg _ (inactive.trans_lt factored.inside)
  · exact nonneg k inside

theorem settleEntry (nonneg : workspace.Nonneg) (room : workspace.active ≤ workspace.considered)
    (most : workspace.considered ≤ m + 1) : (workspace.settleEntry model).Nonneg := by
  rw [settleEntry_eq]
  split
  case isTrue =>
    split
    case isTrue among =>
      have placed : workspace.placed.Nonneg := nonneg
      have exchanged := permuted_exchange model workspace.placed
        (by omega : workspace.active - 1 - 1 < m)
      refine placed.permuted rfl (fun k outside => ?_) exchanged
      have outside : workspace.considered ≤ k := outside
      exact Equiv.swap_apply_of_ne_of_ne (by omega) (by omega)
    case isFalse => exact nonneg
  case isFalse => exact nonneg

/-- **A revision makes no multiplier negative.** -/
theorem revise (nonneg : workspace.Nonneg) (factored : workspace.Factored model) :
    (workspace.revise model).1.Nonneg := by
  have aligned : (workspace.aligned model).Nonneg := nonneg
  have outcome := revise_outcome model workspace
  generalize workspace.revise model = result at outcome
  cases outcome with
  | emptied _ among => exact nonneg.released factored among
  | left _ _ among => exact nonneg.released factored among
  | receded _ among => exact nonneg.released factored among
  | stuck entered => exact aligned.enterDependent factored.aligned entered
  | replaced inactive component entered =>
    have dependent := aligned.enterDependent factored.aligned entered
    obtain ⟨_, _, _, rfl, -⟩ := enterDependent_outcome entered
    exact dependent.settleEntry factored.room factored.most
  | added inactive =>
    exact (aligned.enterIndependent factored.aligned inactive _).settleEntry
      (inactive.trans_lt factored.inside) factored.most

end Nonneg

end DerivativeFree.Workspace
