import DerivativeFree.Proofs.TrustRegion.Positions
import DerivativeFree.Proofs.TrustRegion.Reuse
import DerivativeFree.Proofs.TrustRegion.Step

/-!
# The first stage of a step

The first stage of a step lowers the violations.  As long as it goes on, some violation is left,
the direction lowers those of all active constraints, no multiplier is negative, and every
constraint has a position (`Rising`).  A revision of the active set keeps this
(`Rising.revise`), and so does a walk that is blocked (`Rising.blocked`).

A walk to the boundary along a direction that is not zero ends at a step that has a positive
inner product with the direction (`fullLength_forward`).  The first stage has such a direction
as long as a constraint is active.  If none is left, then the walk stays where it is; and at the
pole itself the violated constraints, each of which has a position and a residual there, block
it.  So a walk that reaches the boundary does not end at the pole (`Rising.boundary`).
-/

namespace DerivativeFree.Workspace

set_option autoImplicit false

variable {α : Type} [EuclideanField α] {n m : Nat} {model : LinearModel α n m}
  {workspace revised : Workspace α n m} {k : Nat} {length part : α}

/-! ## The end of a walk -/

/-- A component that is negligible against the root is negligible against the sum of the two. -/
theorem along_le {root along : α} (small : |along| < 1e-6 * root) :
    along * along ≤ 2 * 1e-12 * ((root + along) * (root + along)) := by
  obtain ⟨above, below⟩ := abs_lt.mp small
  norm_num at above below ⊢
  nlinarith

/-- The length of a walk to the boundary is the room that is left, divided by a root and the
component of the step along the direction.  The root is exact or, where that component is
negligible, without it. -/
theorem fullLength_root (workspace : Workspace α n m) {room : α} (left : 0 < room)
    (moving : workspace.direction ≠ 0) :
    ∃ root, 0 < root ∧ 0 < root + dot workspace.step workspace.direction ∧
      root * root ≤ dot workspace.direction workspace.direction * room +
        dot workspace.step workspace.direction * dot workspace.step workspace.direction ∧
      dot workspace.direction workspace.direction * room +
          dot workspace.step workspace.direction * dot workspace.step workspace.direction ≤
        root * root + 2 * 1e-12 * ((root + dot workspace.step workspace.direction) *
          (root + dot workspace.step workspace.direction)) ∧
      workspace.fullLength room = room / (root + dot workspace.step workspace.direction) := by
  have size := dot_self_pos moving
  rw [fullLength]
  generalize dot workspace.step workspace.direction = along
  generalize dot workspace.direction workspace.direction = square at size
  have product : 0 < square * room := mul_pos size left
  have short := sqrt_mul_sqrt product.le
  have positive := sqrt_pos product
  generalize Scalar.sqrt (square * room) = root at short positive
  simp only [abs_exact]
  split
  case isTrue far =>
    have total : 0 < square * room + along * along :=
      add_pos_of_pos_of_nonneg product (mul_self_nonneg _)
    have whole := sqrt_mul_sqrt total.le
    have above := sqrt_pos total
    refine ⟨_, above, by nlinarith, whole.le, whole.ge.trans (le_add_of_nonneg_right ?_), rfl⟩
    exact mul_nonneg (by norm_num) (mul_self_nonneg _)
  case isFalse near =>
    have bound := not_le.mp near
    have small : |along| < root := by
      have tiny : (1e-6 : α) * root ≤ root := by norm_num; linarith
      exact bound.trans_le tiny
    refine ⟨root, positive, by linarith [(abs_lt.mp small).1], ?_,
      add_le_add short.ge (along_le bound), rfl⟩
    exact short.le.trans (le_add_of_nonneg_right (mul_self_nonneg _))

theorem fullLength_pos (workspace : Workspace α n m) {room : α} (left : 0 < room)
    (moving : workspace.direction ≠ 0) : 0 < workspace.fullLength room := by
  obtain ⟨root, -, ahead, -, -, length⟩ := workspace.fullLength_root left moving
  exact length ▸ div_pos left ahead

/-- **A walk to the boundary goes forwards.** -/
theorem fullLength_forward (workspace : Workspace α n m) {room : α} (left : 0 < room)
    (moving : workspace.direction ≠ 0) :
    0 < dot (workspace.step + workspace.fullLength room * workspace.direction)
      workspace.direction := by
  obtain ⟨root, positive, ahead, square, -, length⟩ := workspace.fullLength_root left moving
  rw [add_dot, smul_dot, length]
  generalize dot workspace.step workspace.direction = along at *
  generalize dot workspace.direction workspace.direction = size at *
  have quotient : along + room / (root + along) * size =
      (along * (root + along) + size * room) / (root + along) := by
    field_simp
  rw [quotient]
  have product := mul_pos positive ahead
  exact div_pos (by nlinarith) ahead

/-- **A walk to the boundary takes all the room that is left**, and hardly more. -/
theorem dot_fullLength (workspace : Workspace α n m) {room : α} (left : 0 < room)
    (moving : workspace.direction ≠ 0) :
    ∃ excess, 0 ≤ excess ∧ excess ≤ 2 * 1e-12 ∧
      dot (workspace.step + workspace.fullLength room * workspace.direction)
          (workspace.step + workspace.fullLength room * workspace.direction) =
        dot workspace.step workspace.step + room * (1 + excess) := by
  obtain ⟨root, -, ahead, above, below, length⟩ := workspace.fullLength_root left moving
  have back := dot_comm workspace.direction workspace.step
  simp only [add_dot, dot_add, smul_dot, dot_smul, back, length]
  generalize dot workspace.step workspace.direction = along at *
  generalize dot workspace.direction workspace.direction = size at *
  -- What the root leaves out, in units of the divisor.
  refine ⟨(size * room + along * along - root * root) / ((root + along) * (root + along)),
    ?_, ?_, ?_⟩
  · exact div_nonneg (sub_nonneg.mpr above) (mul_self_nonneg _)
  · rw [div_le_iff₀ (mul_pos ahead ahead)]
    exact sub_le_iff_le_add'.mpr below
  · field_simp
    ring

/-- A walk to the boundary does not end short of it. -/
theorem room_le_fullLength (workspace : Workspace α n m) {room : α} (left : 0 < room)
    (moving : workspace.direction ≠ 0) :
    dot workspace.step workspace.step + room ≤
      dot (workspace.step + workspace.fullLength room * workspace.direction)
        (workspace.step + workspace.fullLength room * workspace.direction) := by
  obtain ⟨excess, nonneg, -, taken⟩ := workspace.dot_fullLength left moving
  rw [taken, add_le_add_iff_left]
  exact le_mul_of_one_le_right left.le (le_add_of_nonneg_right nonneg)

theorem judged_trial (model : LinearModel α n m) (workspace : Workspace α n m) (length : α) :
    (workspace.judged model length).trial =
      workspace.step + length * workspace.direction := by
  unfold judged walked
  split <;> rfl

theorem advance_one (workspace : Workspace α n m) (before : α) :
    (workspace.advance 1 before).step = workspace.trial := by
  refine vector_ext fun i => ?_
  simp [advance]

/-! ## What blocks a walk -/

/-- A position whose number is not negative before a walk and negative after it allows a part of
the walk that is not the whole, and at the end of that part its number is zero. -/
theorem share_spec (nonneg : 0 ≤ entry workspace.multipliers k)
    (negative : entry workspace.candidates k < 0) :
    0 ≤ workspace.share k ∧ workspace.share k < 1 ∧
      workspace.share k * (entry workspace.multipliers k - entry workspace.candidates k) =
        entry workspace.multipliers k := by
  have whole : 0 < entry workspace.multipliers k - entry workspace.candidates k := by linarith
  refine ⟨div_nonneg nonneg whole.le, (div_lt_one whole).mpr ?_, div_mul_cancel₀ _ whole.ne'⟩
  linarith

/-- **No more of a walk is taken than each position allows.** -/
theorem blocking_least (workspace : Workspace α n m) :
    workspace.blocking.1 ≤ 1 ∧ ∀ k < workspace.considered, entry workspace.candidates k < 0 →
      workspace.blocking.1 ≤ workspace.share k := by
  refine workspace.blocking_invariant (fun taken found => found.1 ≤ 1 ∧
    ∀ k < taken, entry workspace.candidates k < 0 → found.1 ≤ workspace.share k)
    ⟨le_rfl, fun _ taken => absurd taken (Nat.not_lt_zero _)⟩ ?_ ?_
  · rintro k - found ⟨unit, least⟩ passes
    refine ⟨unit, fun j taken negative => ?_⟩
    rcases Nat.lt_succ_iff_lt_or_eq.mp taken with earlier | rfl
    · exact least j earlier negative
    · exact not_lt.mp (passes negative)
  · rintro k - found ⟨unit, least⟩ - less
    refine ⟨less.le.trans unit, fun j taken negative => ?_⟩
    rcases Nat.lt_succ_iff_lt_or_eq.mp taken with earlier | rfl
    · exact less.le.trans (least j earlier negative)
    · exact le_rfl

/-- If no multiplier is negative before a walk, then a part of the walk that is neither negative
nor the whole can be taken when it is blocked, and otherwise none is negative after it. -/
theorem blocking_spec (nonneg : ∀ k < workspace.considered, 0 ≤ entry workspace.multipliers k) :
    (workspace.blocking.2 = none → ∀ k < workspace.considered, 0 ≤ entry workspace.candidates k) ∧
      ∀ position, workspace.blocking.2 = some position →
        0 ≤ workspace.blocking.1 ∧ workspace.blocking.1 < 1 := by
  refine ⟨fun free k inside => le_of_not_gt fun negative => ?_, fun position blocked => ?_⟩
  · have least := workspace.blocking_least.2 k inside negative
    rw [blocking_free free] at least
    exact absurd (share_spec (nonneg k inside) negative).2.1 (not_lt.mpr least)
  · obtain ⟨inside, negative, part⟩ := blocking_some blocked
    obtain ⟨start, less, -⟩ := share_spec (nonneg position inside) negative
    rw [part]
    exact ⟨start, less⟩

/-- **The part of a walk that is taken makes no multiplier negative**, and that of the constraint
that blocks the walk becomes zero. -/
theorem blocking_keeps (nonneg : workspace.Nonneg) :
    0 ≤ workspace.blocking.1 ∧ workspace.blocking.1 ≤ 1 ∧
      (∀ k < workspace.considered, 0 ≤ (1 - workspace.blocking.1) * entry workspace.multipliers k +
        workspace.blocking.1 * entry workspace.candidates k) ∧
      ∀ position, workspace.blocking.2 = some position →
        (1 - workspace.blocking.1) * entry workspace.multipliers position +
          workspace.blocking.1 * entry workspace.candidates position = 0 := by
  obtain ⟨unit, least⟩ := workspace.blocking_least
  have start : 0 ≤ workspace.blocking.1 := by
    cases blocked : workspace.blocking.2 with
    | none => exact (blocking_free blocked).symm ▸ zero_le_one
    | some position => exact ((blocking_spec nonneg).2 position blocked).1
  refine ⟨start, unit, fun k inside => ?_, fun position blocked => ?_⟩
  · have current := nonneg k inside
    rcases le_or_gt 0 (entry workspace.candidates k) with rises | falls
    · exact add_nonneg (mul_nonneg (sub_nonneg.mpr unit) current) (mul_nonneg start rises)
    · have whole := (share_spec current falls).2.2
      have enough := mul_le_mul_of_nonneg_right (least k inside falls)
        (sub_nonneg.mpr (falls.le.trans current))
      linarith
  · obtain ⟨inside, negative, part⟩ := blocking_some blocked
    have whole := (share_spec (nonneg position inside) negative).2.2
    rw [part]
    linear_combination -whole

/-! ## The multipliers of the first stage -/

/-- No multiplier and no residual of the first stage is negative, and every constraint has a
position. -/
structure Orderly (workspace : Workspace α n m) : Prop where
  nonneg : ∀ k < m, 0 ≤ entry workspace.multipliers k
  listed : ∀ c : Fin m, ∃ k < m, workspace.constraintAt k = c.castSucc

namespace Orderly

theorem nonneg_all (orderly : workspace.Orderly) (considered : workspace.considered = m) :
    workspace.Nonneg :=
  fun k inside => orderly.nonneg k (inside.trans_eq considered)

/-- A revision in the first stage makes no multiplier negative. -/
theorem revise (orderly : workspace.Orderly) (factored : workspace.Factored model)
    (first : workspace.FirstStage) : (workspace.revise model).1.Orderly where
  nonneg k inside :=
    (orderly.nonneg_all first.considered).revise factored k
      (inside.trans_eq ((considered_revise model workspace).trans first.considered).symm)
  listed c := by
    have listed := (revise_rearranged factored).listed (c := c.castSucc)
    rw [first.considered] at listed
    exact listed (orderly.listed c)

end Orderly

/-! ## The first stage -/

/-- A first stage that goes on: some violation is left, and the direction lowers those of all
active constraints. -/
structure Rising (model : LinearModel α n m) (workspace : Workspace α n m) : Prop where
  factored : workspace.Factored model
  steady : workspace.Steady model
  orderly : workspace.Orderly
  first : workspace.FirstStage
  violated : 0 < workspace.violation
  unmet : ∃ c : Fin m, 0 < model.bounds.get c.castSucc

theorem judged_violation (first : workspace.secondStage = false) (length : α) :
    (workspace.judged model length).violation = (workspace.walk length).trialViolation model := by
  have walk : ¬ (workspace.walk length).secondStage = true := Bool.eq_false_iff.mp first
  rw [judged, walked, if_neg walk]
  rfl

/-- The residual of a constraint at the end of a walk. -/
theorem judged_candidate (inactive : workspace.active ≤ k) (considered : k < workspace.considered)
    (inside : k < m + 1) :
    entry (workspace.judged model length).candidates k =
      (workspace.judged model length).violation - model.bounds.get (workspace.constraintAt k) +
        dot (model.gradients.get (workspace.constraintAt k))
          (workspace.judged model length).trial := by
  obtain ⟨violation, walked⟩ : ∃ violation, workspace.walked model length =
      { workspace.walk length with violation } := by
    unfold walked
    split
    · exact ⟨_, rfl⟩
    · exact ⟨_, rfl⟩
  have found := @candidate_of_inactive α n m _ model { workspace.walk length with violation }
    ⟨k, inside⟩ inactive considered
  rw [judged, walked, entry_of_lt _ inside]
  refine found.trans ?_
  rw [residual, rounded_exact, sumFrom_eq_sum, dot_eq_sum]
  rfl

theorem revise_frame (model : LinearModel α n m) (workspace : Workspace α n m) :
    (workspace.revise model).1.step = workspace.step ∧
      (workspace.revise model).1.violation = workspace.violation := by
  have exchanges : ∀ (positions : List Nat) (state : Workspace α n m),
      (positions.foldl (exchange model) state).step = state.step ∧
        (positions.foldl (exchange model) state).violation = state.violation := by
    intro positions state
    let Kept (other : Workspace α n m) : Prop :=
      other.step = state.step ∧ other.violation = state.violation
    have start : Kept state := ⟨rfl, rfl⟩
    exact List.foldlRecOn positions (exchange model) start fun _ (same : Kept _) k _ => same
  have settled : ∀ state : Workspace α n m, (state.settleEntry model).step = state.step ∧
      (state.settleEntry model).violation = state.violation := by
    intro state
    rw [settleEntry_eq]
    split
    · split
      · exact ⟨rfl, rfl⟩
      · exact ⟨rfl, rfl⟩
    · exact ⟨rfl, rfl⟩
  have outcome := revise_outcome model workspace
  generalize workspace.revise model = result at outcome
  cases outcome with
  | emptied => exact exchanges _ workspace
  | left => exact exchanges _ workspace
  | receded => exact exchanges _ workspace
  | stuck entered =>
    obtain ⟨multipliers, candidates, trial, rfl, -⟩ := enterDependent_outcome entered
    exact ⟨rfl, rfl⟩
  | replaced _ _ entered =>
    obtain ⟨multipliers, candidates, trial, rfl, -⟩ := enterDependent_outcome entered
    exact settled _
  | added => exact settled _

namespace Rising

theorem revise (rising : workspace.Rising model)
    (revision : workspace.revise model = (revised, true)) : revised.Rising model := by
  have early := rising.first.not_secondStage
  have steady := rising.factored.revise_steady rising.steady early revision
  have factored := rising.factored.revise
  have orderly := rising.orderly.revise rising.factored rising.first
  have first := rising.first.revise model
  have frame := (revise_frame model workspace).2
  rw [revision] at factored orderly first frame
  exact ⟨factored, steady, orderly, first, frame ▸ rising.violated, rising.unmet⟩

theorem advanced (rising : workspace.Rising model) {candidates : Vector α (m + 1)}
    {trial : Vector α n} {violation : α} (least : 0 ≤ violation) {position : Nat}
    (blocked : blocking { workspace with candidates, trial, violation } = (part, some position)) :
    Rising model { advance { workspace with candidates, trial, violation } part
      workspace.violation with incoming := position } := by
  obtain ⟨factored, steady, orderly, first, violated, unmet⟩ := rising
  have place := blocking_lt (congrArg Prod.snd blocked)
  have known : ∀ k < considered { workspace with candidates, trial, violation },
      0 ≤ entry (multipliers { workspace with candidates, trial, violation }) k :=
    fun k inside => orderly.nonneg k (inside.trans_eq first.considered)
  obtain ⟨nonneg, less⟩ := (blocking_spec known).2 position (congrArg Prod.snd blocked)
  rw [blocked] at nonneg less
  refine ⟨factored.frame _ _ _ _ _ _ place, steady, ⟨fun k inside => ?multiplier, orderly.listed⟩,
    ⟨first.considered, first.active, place.trans_eq first.considered, first.constraint⟩, ?violation,
    unmet⟩
  case multiplier =>
    have considered : k < workspace.considered := inside.trans_eq first.considered.symm
    simp only [advance, entry_of_lt _ (Nat.lt_succ_of_lt inside), Vector.getElem_ofFn, considered,
      if_true, larger_eq_max]
    exact le_max_right _ _
  case violation =>
    have here : secondStage { workspace with candidates, trial, violation } = false :=
      first.not_secondStage
    simp only [advance, here, Bool.false_eq_true, if_false]
    have split : workspace.violation + part * (violation - workspace.violation) =
        (1 - part) * workspace.violation + part * violation := by ring
    rw [split]
    exact add_pos_of_pos_of_nonneg (mul_pos (sub_pos.mpr less) violated) (mul_nonneg nonneg least)

/-- What blocks a walk of the first stage leaves some violation. -/
theorem blocked (rising : workspace.Rising model) {position : Nat}
    (blocked : (workspace.judged model length).blocking.2 = some position) :
    Rising model { (workspace.judged model length).advance
      (workspace.judged model length).blocking.1 workspace.violation with
        incoming := position } := by
  have least : 0 ≤ (workspace.judged model length).violation := by
    rw [judged_violation rising.first.not_secondStage]
    exact start_le_largestFrom ..
  obtain ⟨candidates, trial, violation, judged⟩ := judged_frame model workspace length
  rw [judged] at blocked least ⊢
  exact rising.advanced least (Prod.ext rfl blocked)

/-- Along a direction of zero no violation could fall, and so no constraint is active. -/
theorem idle (rising : workspace.Rising model) (still : workspace.direction = 0) :
    workspace.active = 0 := by
  by_contra some
  have rate := rising.steady 0 (Nat.pos_of_ne_zero some)
  rw [still, zero_dot] at rate
  exact zero_ne_one rate

/-- Without active constraints a walk that nothing blocks ends where all constraints hold. -/
theorem satisfied (rising : workspace.Rising model) (idle : workspace.active = 0)
    (free : (workspace.judged model length).blocking.2 = none) (c : Fin m) :
    model.bounds.get c.castSucc ≤
      dot (model.gradients.get c.castSucc) (workspace.step + length * workspace.direction) := by
  have first := rising.first
  obtain ⟨k, inside, known⟩ := rising.orderly.listed c
  have considered : k < workspace.considered := inside.trans_eq first.considered.symm
  have none : (workspace.judged model length).violation ≤ 0 := by
    rw [judged_violation first.not_secondStage]
    exact largestFrom_le_iff.mpr ⟨le_rfl, fun k => absurd k.isLt (by simp [walk, idle])⟩
  have same : (workspace.judged model length).considered = workspace.considered ∧
      (workspace.judged model length).multipliers = workspace.multipliers := by
    obtain ⟨candidates, trial, violation, judged⟩ := judged_frame model workspace length
    rw [judged]
    exact ⟨rfl, rfl⟩
  have nonneg : ∀ k < (workspace.judged model length).considered,
      0 ≤ entry (workspace.judged model length).multipliers k := by
    rw [same.1, same.2, first.considered]
    exact rising.orderly.nonneg
  have candidate := (blocking_spec nonneg).1 free k (considered.trans_eq same.1.symm)
  rw [judged_candidate (idle ▸ Nat.zero_le k) considered (Nat.lt_succ_of_lt inside), known,
    judged_trial] at candidate
  linarith

/-- A walk of the first stage that reaches the boundary does not end at the pole. -/
theorem boundary (rising : workspace.Rising model) {room : α} (left : 0 < room)
    (free : (workspace.judged model (workspace.fullLength room)).blocking.2 = none) :
    workspace.step + workspace.fullLength room * workspace.direction ≠ 0 := by
  by_cases still : workspace.direction = 0
  case neg => exact ne_zero_of_dot_ne_zero (workspace.fullLength_forward left still).ne'
  intro zero
  obtain ⟨c, bound⟩ := rising.unmet
  have holds := rising.satisfied (rising.idle still) free c
  rw [zero, dot_zero] at holds
  exact absurd bound holds.not_gt

end Rising

end DerivativeFree.Workspace
