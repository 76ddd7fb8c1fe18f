import DerivativeFree.Proofs.TrustRegion.Balanced

/-!
# What the first stage settles

The first stage makes the greatest violation as small as it can be within the trust region, and the
multipliers of the active constraints prove it.  If the step has reached the boundary, then another
step within it has not more of the combination of the active gradients that the step is, and so it
does not do better with all of them (`floor_of_far`).  If a constraint depends on the active ones
and cannot enter, then a step that does better with the active ones does worse with this one
(`floor_of_stuck`).  And otherwise no violation is left.  So the stage ends with a workspace that is
`Settled` (`Stage.settled_done`), unless it runs out of patience.
-/

namespace DerivativeFree

set_option autoImplicit false

variable {α : Type} [EuclideanField α] {n m : Nat}

/-- No step within the radius leaves less than the level as the greatest violation. -/
def LinearModel.Floor (model : LinearModel α n m) (radius level : α) : Prop :=
  ∀ step : Vector α n, dot step step ≤ radius * radius → level ≤ model.predictedViolation step

theorem LinearModel.violation_le (model : LinearModel α n m) (step : Vector α n) (c : Fin m) :
    model.bounds.get c.castSucc - model.slope c.castSucc step ≤ model.predictedViolation step :=
  (largestFrom_le_iff.mp (le_refl (model.predictedViolation step))).2 c

theorem LinearModel.predictedViolation_nonneg (model : LinearModel α n m) (step : Vector α n) :
    0 ≤ model.predictedViolation step :=
  start_le_largestFrom ..

namespace Workspace

variable {model : LinearModel α n m} {workspace : Workspace α n m} {radius : α} {k : Nat}

/-! ## What a better step would have to do -/

/-- A step with less violation has more of the gradient of every constraint that is violated like
the active ones. -/
theorem gap_le (tight : workspace.shortfall model k = workspace.violation)
    (constraint : workspace.constraintAt k ≠ Fin.last m) (step : Vector α n) :
    workspace.violation - model.predictedViolation step ≤
      dot step (workspace.gradientAt model k) -
        dot workspace.step (workspace.gradientAt model k) := by
  obtain ⟨c, known⟩ := Fin.exists_castSucc_eq.mpr constraint
  have bound := model.violation_le step c
  rw [LinearModel.slope, known] at bound
  rw [shortfall] at tight
  have slope : dot step (workspace.gradientAt model k) =
    dot step (model.gradients.get (workspace.constraintAt k)) := rfl
  linarith

theorem gap_sum_le (gauged : workspace.Gauged model)
    (constraint : ∀ k < workspace.active, workspace.constraintAt k ≠ Fin.last m)
    {weights : Nat → α} (nonneg : ∀ k < workspace.active, 0 ≤ weights k) (step : Vector α n) :
    (∑ k ∈ Finset.range workspace.active, weights k) *
        (workspace.violation - model.predictedViolation step) ≤
      dot step (combination workspace.active weights (workspace.gradientAt model)) -
        dot workspace.step (combination workspace.active weights (workspace.gradientAt model)) := by
  rw [dot_combination, dot_combination, ← Finset.sum_sub_distrib, Finset.sum_mul]
  refine Finset.sum_le_sum fun k among => ?_
  have inside := Finset.mem_range.mp among
  rw [← mul_sub]
  exact mul_le_mul_of_nonneg_left (gap_le (gauged.active k inside) (constraint k inside) step)
    (nonneg k inside)

/-- **A balanced step that has reached the boundary cannot be improved.** -/
theorem floor_of_far (gauged : workspace.Gauged model) (balanced : workspace.Balanced model)
    (nonneg : ∀ k < workspace.active, 0 ≤ entry workspace.multipliers k)
    (constraint : ∀ k < workspace.active, workspace.constraintAt k ≠ Fin.last m)
    (valid : 0 < radius) (far : radius * radius ≤ dot workspace.step workspace.step) :
    model.Floor radius workspace.violation := by
  intro step inside
  by_contra less
  have less := sub_pos.mpr (not_le.mp less)
  have gap := gap_sum_le gauged constraint nonneg step
  rw [← balanced.combined] at gap
  -- Some multiplier is positive, as the step is not zero.
  have weight : 0 < ∑ k ∈ Finset.range workspace.active, entry workspace.multipliers k := by
    by_contra none
    have zero := (Finset.sum_nonneg fun k among => nonneg k (Finset.mem_range.mp among)).antisymm
      (not_lt.mp none)
    have each := (Finset.sum_eq_zero_iff_of_nonneg fun k among =>
      nonneg k (Finset.mem_range.mp among)).mp zero.symm
    have still : dot workspace.step workspace.step = 0 := by
      nth_rewrite 2 [balanced.combined]
      rw [dot_combination]
      exact Finset.sum_eq_zero fun k among => by rw [each k among, zero_mul]
    exact absurd (mul_pos valid valid) (not_lt.mpr (far.trans still.le))
  have ahead : dot workspace.step workspace.step < dot step workspace.step :=
    sub_pos.mp ((mul_pos weight less).trans_le gap)
  have distance := dot_self_nonneg (step - workspace.step)
  rw [dot_sub, sub_dot, sub_dot, dot_comm workspace.step step] at distance
  linarith

/-- **If a constraint cannot enter, then the violation cannot be lowered.** -/
theorem floor_of_stuck (lowering : workspace.Lowering model) (limits : workspace.LastLimits model)
    {stuck : Workspace α n m} (revision : workspace.revise model = (stuck, false)) :
    model.Floor radius workspace.violation := by
  obtain ⟨⟨rising, gauged, balanced⟩, idle⟩ := lowering
  have factored := rising.factored
  have first := rising.first
  have outcome := revise_outcome model workspace
  rw [revision] at outcome
  cases outcome with
  | emptied second =>
    rw [first.not_secondStage] at second
    cases second
  | stuck entered inactive component =>
    have free : ∀ j, workspace.active ≤ j → dot ((workspace.aligned model).basisAt j)
        (workspace.gradientAt model workspace.incoming) = 0 := by
      intro j free
      have known := (AlignedFrom.alignBasis factored.ortho
        (workspace.gradientAt model workspace.incoming)).component j free
      rwa [component, ite_self] at known
    obtain ⟨expressed, limited⟩ := dependence_combination factored.aligned free
    rcases enterDependent_false entered with ⟨none, -⟩ | ⟨ratio, known, pivot, -⟩
    case inl =>
      -- What would be gained of the active gradients would be lost of the one that is to enter.
      intro step _
      have below : ∀ k < workspace.active, 0 ≤ -entry (dependence model (workspace.aligned model)
          (workspace.gradientAt model workspace.incoming)).coefficients k := fun k inside =>
        neg_nonneg.mpr (limited.none none k (Nat.zero_le k) inside
          (Fin.val_lt_last (first.constraint k (inside.trans_le first.active))))
      have gain := gap_sum_le gauged
        (fun k inside => first.constraint k (inside.trans_le first.active)) below step
      have loss := gap_le (gauged.incoming factored idle) (first.constraint _ first.incoming) step
      have weight := Finset.sum_nonneg fun k among => below k (Finset.mem_range.mp among)
      rw [expressed] at loss
      change _ ≤ dot _ (combination workspace.active _ (workspace.gradientAt model)) -
        dot _ (combination workspace.active _ (workspace.gradientAt model)) at loss
      simp only [dot_combination, neg_mul, Finset.sum_neg_distrib] at gain loss weight
      by_contra less
      have less := sub_pos.mpr (not_le.mp less)
      have lost := mul_nonneg weight less.le
      linarith
    case inr =>
      -- The constraint that limits the multipliers is the last one, and so it has a coefficient.
      have some : 0 < workspace.active := by
        by_contra empty
        have empty : (workspace.aligned model).active = 0 := Nat.eq_zero_of_not_pos empty
        rw [dependence, empty, Fin.foldr_zero] at known
        cases known
      have positive := (limits inactive component ratio known).1
      have last := factored.aligned.dot_combination_last some (entry (dependence model
        (workspace.aligned model) (workspace.gradientAt model workspace.incoming)).coefficients)
      rw [← expressed, pivot] at last
      exact absurd last.symm (mul_ne_zero positive.ne'
        (factored.pivot_ne_zero _ (Nat.sub_lt some Nat.one_pos)))

/-! ## What the first stage ends with -/

/-- No step leaves less violation, and no constraint is violated more. -/
structure Settled (model : LinearModel α n m) (radius : α) (workspace : Workspace α n m) :
    Prop where
  floor : model.Floor radius workspace.violation
  guarded : ∀ c : Fin m,
    workspace.Guarded model c.castSucc (model.bounds.get c.castSucc - workspace.violation)

/-- All constraints are gauged, as each of them has a position. -/
theorem Gauged.guarded (gauged : workspace.Gauged model) (orderly : workspace.Orderly)
    (considered : workspace.considered = m) (c : Fin m) :
    workspace.Guarded model c.castSucc (model.bounds.get c.castSucc - workspace.violation) := by
  obtain ⟨k, inside, known⟩ := orderly.listed c
  have shortfall : ∀ j, workspace.constraintAt j = c.castSucc → workspace.shortfall model j =
      model.bounds.get c.castSucc - model.slope c.castSucc workspace.step := by
    intro j same
    rw [Workspace.shortfall, gradientAt, same, LinearModel.slope]
  refine ⟨?_, fun j inactive within same => ?_, k, inside.trans_eq considered.symm, known⟩
  · rcases Nat.lt_or_ge k workspace.active with active | inactive
    · have tight := gauged.active k active
      rw [shortfall k known] at tight
      linarith
    · have residual := gauged.inactive k inactive (inside.trans_eq considered.symm)
      have nonneg := orderly.nonneg k inside
      rw [shortfall k known] at residual
      linarith
  · rw [gauged.inactive j inactive within, shortfall j same]
    linarith

/-- The entries of the step that are neglected leave the more room. -/
theorem le_room (workspace : Workspace α n m) (radius : α) :
    radius * radius - dot workspace.step workspace.step ≤ workspace.room radius := by
  rw [room_eq_sum, dot_eq_sum]
  refine sub_le_sub_left (Finset.sum_le_sum fun i _ => ?_) _
  split_ifs
  · exact le_rfl
  · exact mul_self_nonneg _

/-- A walk leaves the constraints where they are and no multiplier negative. -/
theorem Orderly.walk (orderly : workspace.Orderly) (model : LinearModel α n m)
    (considered : workspace.considered = m) (length part before : α) :
    ((workspace.judged model length).advance part before).Orderly := by
  obtain ⟨candidates, trial, violation, judged⟩ := workspace.judged_frame model length
  rw [judged]
  refine ⟨fun k inside => ?_, orderly.listed⟩
  have inside : k < workspace.considered := inside.trans_eq considered.symm
  rw [entry_advance { workspace with candidates, trial, violation } part before inside
    (considered.trans_le (Nat.le_succ m))]
  exact le_max_right _ _

theorem FirstStage.walk (first : workspace.FirstStage) (model : LinearModel α n m)
    (length part before : α) :
    ((workspace.judged model length).advance part before).FirstStage := by
  obtain ⟨candidates, trial, violation, judged⟩ := workspace.judged_frame model length
  rw [judged]
  exact ⟨first.considered, first.active, first.incoming, first.constraint⟩

/-- A balanced step that has reached the boundary is settled. -/
theorem settled_of_far (gauged : workspace.Gauged model) (balanced : workspace.Balanced model)
    (orderly : workspace.Orderly) (first : workspace.FirstStage) (valid : 0 < radius)
    (far : radius * radius ≤ dot workspace.step workspace.step) :
    workspace.Settled model radius where
  floor := floor_of_far gauged balanced
    (fun k inside => orderly.nonneg k (inside.trans_le first.active))
    (fun k inside => first.constraint k (inside.trans_le first.active)) valid far
  guarded := gauged.guarded orderly first.considered

/-- Only without active constraints there is no direction, and then the step is zero. -/
theorem Poised.moving (poised : workspace.Poised model) {length : α}
    (ends : workspace.step + length * workspace.direction ≠ 0) : workspace.direction ≠ 0 := by
  intro still
  have idle := poised.rising.idle still
  have combined := poised.balanced.combined
  refine ends (vector_ext fun i => ?_)
  rw [still, combined, idle]
  simp [combination]

/-- A walk that removes the violation leaves none. -/
theorem Poised.none_left (poised : workspace.Poised model) :
    (workspace.judged model workspace.violation).violation = 0 := by
  obtain ⟨rising, gauged, -⟩ := poised
  have first := rising.first.not_secondStage
  rcases Nat.eq_zero_or_pos workspace.active with idle | some
  · refine le_antisymm ?_ ?_
    · rw [judged_violation first]
      refine largestFrom_le_iff.mpr ⟨le_rfl, fun k => ?_⟩
      have inside : k.val < workspace.active := k.isLt
      omega
    · rw [judged_violation first]
      exact start_le_largestFrom ..
  · rw [(gauged.judged rising.steady first rising.factored.most le_rfl).2 some, sub_self]

end Workspace

namespace Stage

open Workspace

variable {model : LinearModel α n m} {stage next : Stage α n m} {radius : α}
  {ended : Workspace α n m} {how : StageEnd}

/-- **The first stage ends with the least violation**, unless it has run out of patience. -/
theorem settled_done (lowering : stage.workspace.Lowering model)
    (limits : stage.workspace.LastLimits model) (patient : (stage.watch model).patience ≠ 0)
    (valid : 0 < radius) (turned : stage.turn model radius = .done ended how) :
    ended.Settled model radius ∧ ∀ k < m, 0 ≤ entry ended.multipliers k := by
  have rising := lowering.poised.rising
  have considered := rising.first.considered
  cases turn_done turned with
  | weary tired => exact absurd tired patient
  | stuck revision =>
    have floor : model.Floor radius stage.workspace.violation :=
      floor_of_stuck lowering limits revision
    have gauged := lowering.poised.gauged.revise rising.factored lowering.idle
    have orderly := rising.orderly.revise rising.factored rising.first
    have violation := (revise_frame model stage.workspace).2
    have same := considered_revise model stage.workspace
    rw [revision] at gauged orderly violation same
    exact ⟨⟨violation ▸ floor, gauged.guarded orderly (same.trans considered)⟩, orderly.nonneg⟩
  | outside revision none =>
    have poised := lowering.revise limits revision
    have rising := poised.rising
    have far := (le_room ended radius).trans none
    exact ⟨settled_of_far poised.gauged poised.balanced rising.orderly rising.first valid
      (sub_nonpos.mp far), rising.orderly.nonneg⟩
  | negligible revision first negligible =>
    have poised := lowering.revise limits revision
    rw [not_negligible poised.rising.violated] at negligible
    cases negligible
  | @reached revised revision left free short =>
    have poised := lowering.revise limits revision
    have rising := poised.rising
    obtain ⟨gauged, balanced⟩ := poised.walk (short rising.first.not_secondStage)
    rw [blocking_free free] at gauged balanced
    have orderly := rising.orderly.walk model rising.first.considered
      (revised.fullLength (revised.room radius)) 1 revised.violation
    have moving := poised.moving (rising.boundary left free)
    have far := revised.room_le_fullLength left moving
    refine ⟨settled_of_far gauged balanced orderly (rising.first.walk ..) valid ?_, orderly.nonneg⟩
    rw [advance_one, judged_trial]
    linarith [revised.le_room radius]
  | @inside revised revision first free =>
    have poised := lowering.revise limits revision
    have rising := poised.rising
    have gauged := (poised.walk le_rfl).1
    rw [blocking_free free] at gauged
    have orderly := rising.orderly.walk model rising.first.considered
      revised.violation 1 revised.violation
    have walked := rising.first.walk model revised.violation 1 revised.violation
    refine ⟨⟨fun step _ => ?_, gauged.guarded orderly walked.considered⟩, orderly.nonneg⟩
    refine Eq.trans_le ?_ (model.predictedViolation_nonneg step)
    have here : (revised.judged model revised.violation).secondStage = false := by
      obtain ⟨candidates, trial, violation, judged⟩ :=
        revised.judged_frame model revised.violation
      exact judged ▸ first
    simp only [advance, here, Bool.false_eq_true, if_false, poised.none_left]
    ring

end Stage

end DerivativeFree
