import DerivativeFree.Proofs.TrustRegion.Settled

/-!
# The least violation

The second stage makes no violation worse.  So a step has the least violation of all steps in the
trust region (`solve_least`), as long as the first stage has not run out of patience, and the
constraints that have left for a dependent one were those that had to.

The first condition is a matter of design, and the first stage may well run out of patience.  On the
line of five constraints below each constraint takes the place of the one before it, and the step
stays where it is until the stage gives up (`violation_not_least`).  The second condition cannot be
left out either.  On the cross below the constraint that would have to leave is not the last one,
and the stage is stuck with all constraints violated (`cross_not_least`).
-/

namespace DerivativeFree

set_option autoImplicit false

variable {α : Type} [EuclideanField α] {n m : Nat}

/-! ## Whole steps -/

namespace Workspace

variable {model : LinearModel α n m} {workspace ended : Workspace α n m} {stage : Stage α n m}
  {radius : α} {fuel : Nat} {how : StepEnd}

/-- The first constraint that is to enter is one that is violated most. -/
theorem worstBound_attained (violated : (worstBound model).1 ≠ 0) :
    ∃ c : Fin m, c.val = (worstBound model).2 ∧
      model.bounds.get c.castSucc = (worstBound model).1 := by
  refine Or.resolve_left (foldl_invariant (fun (worst : α × Nat) (k : Fin m) =>
    if worst.1 < model.bounds.get k.castSucc then (model.bounds.get k.castSucc, k.val) else worst)
    (0, 0) (fun _ worst => worst.1 = 0 ∨
      ∃ c : Fin m, c.val = worst.2 ∧ model.bounds.get c.castSucc = worst.1) (.inl rfl) ?_) violated
  intro k worst before
  split
  · exact .inr ⟨k, rfl, rfl⟩
  · exact before

theorem lowering_begin (violated : ((workspace.begin model).violation == 0) = false) :
    (workspace.begin model).Lowering model := by
  have rising := rising_begin violated
  have still : ∀ v, dot (workspace.begin model).step v = 0 := zero_dot
  refine ⟨⟨rising, ⟨fun k inside => absurd inside (Nat.not_lt_zero k), fun k _ inside => ?gauge⟩,
    ⟨?combined, fun j _ => dot_zero _⟩⟩, ?idle⟩
  case gauge =>
    have inside : k < m := inside
    rw [entry_begin workspace model inside, shortfall, still, sub_zero,
      constraintAt_begin workspace model inside]
    rfl
  case combined =>
    refine vector_ext fun i => ?_
    simp [combination, begin]
  case idle =>
    obtain ⟨c, place, worst⟩ := worstBound_attained (beq_eq_false_iff_ne.mp violated)
    have known := entry_begin workspace model c.isLt
    have incoming : (workspace.begin model).incoming = c := place.symm
    rw [incoming, known, ← worst]
    exact sub_self _

/-- The first stage never runs out of patience. -/
def PatientThroughout (model : LinearModel α n m) (radius : α) (workspace : Workspace α n m) :
    Prop :=
  ∀ stage, workspace.Visits model radius stage → stage.workspace.secondStage = false →
    (stage.watch model).patience ≠ 0

/-- Whenever a constraint enters that depends on the active ones, the last of them is one that has
to leave. -/
def LimitsThroughout (model : LinearModel α n m) (radius : α) (workspace : Workspace α n m) :
    Prop :=
  ∀ stage, workspace.Visits model radius stage → stage.workspace.secondStage = false →
    stage.workspace.LastLimits model

/-- What is known of the stages that come up. -/
structure Leading (model : LinearModel α n m) (radius : α) (workspace : Workspace α n m) :
    Prop where
  first : workspace.secondStage = false → workspace.Lowering model
  second : workspace.secondStage = true → workspace.Sliding model ∧ workspace.Settled model radius

theorem Settled.includeObjective (settled : workspace.Settled model radius)
    (considered : workspace.considered = m) :
    workspace.includeObjective.Settled model radius where
  floor := settled.floor
  guarded c := (settled.guarded c).includeObjective considered (Fin.castSucc_ne_last c)

/-- If no constraint is violated in the pole, then the second stage begins with nothing to be
lowered. -/
theorem settled_begin (satisfied : ((workspace.begin model).violation == 0) = true) :
    (workspace.begin model).Settled model radius where
  floor step _ := (beq_iff_eq.mp satisfied).trans_le (model.predictedViolation_nonneg step)
  guarded c := workspace.guarded_begin model c

theorem leading_second (factored : workspace.includeObjective.Factored model)
    (nonneg : ∀ k < m, 0 ≤ entry workspace.multipliers k)
    (settled : workspace.Settled model radius) (considered : workspace.considered = m) :
    workspace.includeObjective.Leading model radius where
  first early := absurd (early.symm.trans (secondStage_includeObjective workspace)) (by simp)
  second _ := ⟨sliding_includeObjective factored nonneg, settled.includeObjective considered⟩

end Workspace

namespace Stage

open Workspace

variable {model : LinearModel α n m} {stage next : Stage α n m} {radius : α}
  {ended : Workspace α n m} {how : StageEnd}

/-- **A turn of the second stage makes no violation worse.** -/
theorem settled_turn (sliding : stage.workspace.Sliding model)
    (settled : stage.workspace.Settled model radius)
    (turned : stage.turn model radius = .another next) : next.workspace.Settled model radius := by
  have violation := (sliding_turn sliding turned).2
  refine ⟨violation ▸ settled.floor, fun c => violation ▸ ?_⟩
  exact guarded_turn sliding (settled.guarded c) (.inl (sub_add_cancel _ _).le) turned

theorem leading_turn (leading : stage.workspace.Leading model radius)
    (limits : stage.workspace.secondStage = false → stage.workspace.LastLimits model)
    (turned : stage.turn model radius = .another next) : next.workspace.Leading model radius := by
  have same := secondStage_turn turned
  refine ⟨fun early => ?_, fun second => ?_⟩
  · have early := same.symm.trans early
    exact lowering_turn (leading.first early) (limits early) turned
  · obtain ⟨sliding, settled⟩ := leading.second (same.symm.trans second)
    exact ⟨(sliding_turn sliding turned).1, settled_turn sliding settled turned⟩

/-- The last turn of a step leaves the least violation. -/
theorem least_done (leading : stage.workspace.Leading model radius)
    (limits : stage.workspace.secondStage = false → stage.workspace.LastLimits model)
    (patient : stage.workspace.secondStage = false → (stage.watch model).patience ≠ 0)
    (valid : 0 < radius) (turned : stage.turn model radius = .done ended how) :
    ∃ level, model.Floor radius level ∧
      ∀ c : Fin m, model.bounds.get c.castSucc - level ≤ model.slope c.castSucc ended.step := by
  cases stays : stage.workspace.secondStage with
  | false =>
    obtain ⟨⟨floor, guarded⟩, -⟩ :=
      settled_done (leading.first stays) (limits stays) (patient stays) valid turned
    exact ⟨ended.violation, floor, fun c => (guarded c).above⟩
  | true =>
    obtain ⟨sliding, floor, guarded⟩ := leading.second stays
    exact ⟨stage.workspace.violation, floor, fun c =>
      guarded_done sliding (guarded c) (.inl (sub_add_cancel _ _).le) turned⟩

end Stage

namespace Workspace

variable {model : LinearModel α n m} {workspace ended : Workspace α n m} {stage : Stage α n m}
  {radius : α} {fuel : Nat} {how : StepEnd}

theorem Visits.leading (valid : 0 < radius) (patient : workspace.PatientThroughout model radius)
    (limits : workspace.LimitsThroughout model radius)
    (visited : workspace.Visits model radius stage) : stage.workspace.Leading model radius := by
  induction visited with
  | violated violated =>
    have lowering := lowering_begin violated
    refine ⟨fun _ => lowering, fun second => ?_⟩
    exact absurd (second.symm.trans lowering.poised.rising.first.not_secondStage) (by simp)
  | satisfied satisfied =>
    refine leading_second workspace.factored_satisfied (fun k inside => ?_)
      (settled_begin satisfied) rfl
    rw [entry_begin workspace model inside, sub_nonneg]
    exact (worstBound_spec model).1 ⟨k, inside⟩
  | turn visited turned ih => exact Stage.leading_turn ih (limits _ visited) turned
  | @second stage ended how visited turned further ih =>
    have early := Stage.early_of_further turned further
    have lowering := ih.first early
    have considered := ((Stage.turn_done turned).factored visited.factored.1).2
    obtain ⟨settled, nonneg⟩ := Stage.settled_done lowering (limits stage visited early)
      (patient stage visited early) valid turned
    exact leading_second (visited.second turned further).factored.1 nonneg settled
      (considered.trans lowering.poised.rising.first.considered)

/-- **A step has the least violation of all steps in the trust region**, if the first stage does not
run out of patience, and if the constraints that leave for a dependent one are those that have to.
In particular, if all constraints can be satisfied, then the step does that. -/
theorem solve_least (valid : 0 < radius) (patient : workspace.PatientThroughout model radius)
    (limits : workspace.LimitsThroughout model radius)
    (solved : workspace.solve model radius fuel = some (ended, how)) (step : Vector α n)
    (inside : dot step step ≤ radius * radius) :
    model.predictedViolation ended.step ≤ model.predictedViolation step ∧
      ((∀ c : Fin m, model.bounds.get c.castSucc ≤ model.slope c.castSucc step) →
        ∀ c : Fin m, model.bounds.get c.castSucc ≤ model.slope c.castSucc ended.step) := by
  obtain ⟨last, ending, visited, turned, -⟩ := solve_last solved
  have leading := visited.leading valid patient limits
  obtain ⟨level, floor, above⟩ := Stage.least_done leading (limits last visited)
    (patient last visited) valid turned
  have least : model.predictedViolation ended.step ≤ model.predictedViolation step := by
    refine largestFrom_le_iff.mpr ⟨model.predictedViolation_nonneg step, fun c => ?_⟩
    linarith [above c, floor step inside]
  refine ⟨least, fun satisfied c => ?_⟩
  have none : model.predictedViolation step ≤ 0 :=
    largestFrom_le_iff.mpr ⟨le_rfl, fun c => sub_nonpos.mpr (satisfied c)⟩
  have bound := model.violation_le ended.step c
  linarith

end Workspace

/-! ## Turns that begin at the origin -/

/-- The stages that come up before the second stage are the beginning and those that follow it. -/
theorem Workspace.Visits.of_first {model : LinearModel α n m} {workspace : Workspace α n m}
    {radius : α} {stage : Stage α n m} (visited : workspace.Visits model radius stage)
    (P : Stage α n m → Prop) (start : P (.first (workspace.begin model)))
    (step : ∀ before next, P before → before.turn model radius = .another next → P next)
    (early : stage.workspace.secondStage = false) : P stage := by
  induction visited with
  | violated _ => exact start
  | satisfied _ => exact absurd (early.symm.trans (secondStage_includeObjective _)) (by simp)
  | turn visited turned ih =>
    exact step _ _ (ih ((Stage.secondStage_turn turned).symm.trans early)) turned
  | second _ _ _ => exact absurd (early.symm.trans (secondStage_includeObjective _)) (by simp)

namespace Stage

open Workspace

variable {model : LinearModel α n m} {stage watched : Stage α n m}
  {revised judged held : Workspace α n m} {radius length part : α} {position : Nat}

/-- The first stage sees progress only in the number of active constraints, as long as the violation
stays what it is. -/
theorem watch_of_same {workspace : Workspace α n m} {level : α}
    (first : workspace.secondStage = false) (same : workspace.violation = level)
    (activeRecord patience : Nat) :
    watch model ⟨workspace, level, activeRecord, patience⟩ =
      if patience = 0 then ⟨workspace, level, workspace.active, 3⟩
      else if activeRecord < workspace.active then ⟨workspace, level, workspace.active, 3⟩
      else ⟨workspace, level, activeRecord, patience - 1⟩ := by
  have target : Stage.target model ⟨workspace, level, activeRecord, patience⟩ = level := by
    simp only [Stage.target, first, Bool.false_eq_true, if_false, same]
  simp only [watch, target, lt_self_iff_false, or_false, patienceLimit]

variable (watch : stage.watch model = watched) (patient : watched.patience ≠ 0)
  (revision : watched.workspace.revise model = (revised, true))
  (first : revised.secondStage = false) (violated : 0 < revised.violation)
  (origin : revised.step = 0) (positive : 0 < length)
  (square : length * length = dot revised.direction revised.direction)
  (enough : revised.violation * length ≤ radius)

include watch patient revision first violated origin positive square enough

/-- A walk of the first stage that begins at the origin. -/
theorem turn_of_origin : stage.turn model radius =
    watched.walkTurn model revised revised.violation (radius / length) := by
  have valid : 0 < radius := (mul_pos violated positive).trans_le enough
  have room : revised.room radius = radius * radius := by
    rw [room_eq _ (fun i => .inl (by rw [origin, get_zero])), origin, dot_zero, sub_zero]
  have along : dot revised.step revised.direction = 0 := by
    rw [origin, zero_dot]
  have root : length * radius * (length * radius) =
      dot revised.direction revised.direction * (radius * radius) + 0 * 0 := by
    rw [← square]
    ring
  have full : revised.fullLength (radius * radius) = radius / length := by
    rw [fullLength_eq _ (mul_pos valid valid).le along (mul_pos positive valid).le root (.inl rfl),
      add_zero, mul_comm length, mul_div_mul_left _ _ valid.ne']
  have short : revised.violation ≤ radius / length := (le_div_iff₀ positive).mpr enough
  simp only [turn, watch, revision, room, (mul_pos valid valid).not_ge, full, first,
    not_negligible violated, patient, smaller_eq_min, min_eq_right short, if_false,
    Bool.false_eq_true]

theorem turn_of_blocked (walked : revised.judged model revised.violation = judged)
    (blocked : judged.blocking = (part, some position))
    (advanced : { judged.advance part revised.violation with incoming := position } = held) :
    stage.turn model radius = .another { watched with workspace := held } := by
  rw [turn_of_origin watch patient revision first violated origin positive square enough,
    walkTurn_judged, walked, blocked]
  exact congrArg (fun w => Turn.another { watched with workspace := w }) advanced

theorem turn_of_free (walked : revised.judged model revised.violation = judged)
    (free : judged.blocking = (part, none)) :
    stage.turn model radius = .done (judged.advance part revised.violation)
      (if revised.violation == radius / length then .boundary else .inside) := by
  rw [turn_of_origin watch patient revision first violated origin positive square enough,
    walkTurn_judged, walked, free]

end Stage

namespace Workspace

/-! ## A queue -/

/-- Five constraints on a line, each less steep than the one before it.  The last three of them are
late. -/
noncomputable def queueModel (late : ℚ) : LinearModel ℝ 1 5 where
  gradients := .ofFn ![rationals ![5], rationals ![4], rationals ![3], rationals ![2],
    rationals ![1], rationals ![0]]
  bounds := rationals ![1, 1, late, late, late, 0]

/-- The first constraint is to enter. -/
noncomputable def queueStart (late : ℚ) : Workspace ℝ 1 5 where
  basis := .ofFn ![rationals ![1]]
  pivots := rationals ![0, 0, 0, 0, 0, 0]
  multipliers := rationals ![0, 0, 1 - late, 1 - late, 1 - late, 0]
  candidates := rationals ![0, 0, 0, 0, 0, 0]
  direction := rationals ![0]
  trial := rationals ![0]
  step := rationals ![0]
  order := .ofFn ![0, 1, 2, 3, 4, 0]
  active := 0
  considered := 5
  incoming := 0
  violation := 1

/-- A constraint of the given slope is active, and the walk that it asks for has been blocked where
it begins. -/
noncomputable def queueHeld (late slope : ℚ) (order : Vector (Fin 6) 6) (candidates : Fin 6 → ℚ)
    (incoming : Nat) : Workspace ℝ 1 5 :=
  { queueStart late with
    pivots := rationals ![slope, 0, 0, 0, 0, 0]
    candidates := rationals candidates
    direction := rationals ![1 / slope]
    trial := rationals ![1 / slope]
    order := order
    active := 1
    incoming := incoming }

/-- The constraint has just entered. -/
noncomputable def queueEntered (late slope : ℚ) (order : Vector (Fin 6) 6)
    (candidates : Fin 6 → ℚ) (incoming : Nat) : Workspace ℝ 1 5 :=
  { queueHeld late slope order candidates incoming with trial := rationals ![slope] }

/-- The walk would remove the violation of the constraint. -/
noncomputable def queueJudged (late slope : ℚ) (order : Vector (Fin 6) 6)
    (candidates : Fin 6 → ℚ) (incoming : Nat) : Workspace ℝ 1 5 :=
  { queueHeld late slope order candidates incoming with violation := 0 }

/-- The second constraint blocks the walk of the first one. -/
noncomputable def queueSecond (late : ℚ) : Workspace ℝ 1 5 :=
  queueHeld late 5 (.ofFn ![0, 1, 2, 3, 4, 0])
    ![1 / 25, -1 / 5, 3 / 5 - late, 2 / 5 - late, 1 / 5 - late, 0] 1

/-- The third constraint blocks the walk of the second one. -/
noncomputable def queueThird : Workspace ℝ 1 5 :=
  queueHeld 1 4 (.ofFn ![1, 0, 2, 3, 4, 0]) ![1 / 16, 1 / 4, -1 / 4, -1 / 2, -3 / 4, 0] 2

/-- The fourth constraint blocks the walk of the third one. -/
noncomputable def queueFourth : Workspace ℝ 1 5 :=
  queueHeld 1 3 (.ofFn ![2, 0, 1, 3, 4, 0]) ![1 / 9, 2 / 3, 1 / 3, -1 / 3, -2 / 3, 0] 3

/-- The last constraint blocks the walk of the fourth one. -/
noncomputable def queueLast : Workspace ℝ 1 5 :=
  queueHeld 1 2 (.ofFn ![3, 0, 1, 2, 4, 0]) ![1 / 4, 3 / 2, 1, 1 / 2, -1 / 2, 0] 4

/-- Nothing blocks the walk of the second constraint. -/
noncomputable def queueOpen : Workspace ℝ 1 5 :=
  queueJudged 0 4 (.ofFn ![1, 0, 2, 3, 4, 0]) ![1 / 16, 1 / 4, 3 / 4, 1 / 2, 1 / 4, 0] 1

section Queue

attribute [local simp] rationals queueModel queueStart queueHeld queueEntered queueJudged
  queueSecond queueThird queueFourth queueLast queueOpen entry basisAt gradientAt constraintAt
  secondStage get_eq_getElem ofFn_eq_mk List.ofFn_succ sumFrom_eq_sum largestFrom_succ
  largestFrom_zero

variable {late slope : ℚ} {stage watched : Stage ℝ 1 5} {order : Vector (Fin 6) 6}
  {candidates ahead : Fin 6 → ℚ} {incoming position : Nat}

theorem step_queueStart (late : ℚ) : (queueStart late).step = 0 := by
  simp
  rfl

theorem begin_queue (early : late = 0 ∨ late = 1) :
    (fresh 1 5).begin (queueModel late) = queueStart late := by
  have worst : worstBound (queueModel late) = (1, 0) := by
    rcases early with rfl | rfl
    · simp [worstBound, Fin.foldl_succ]
      norm_num
    · simp [worstBound, Fin.foldl_succ]
  have basis : (diagonal 1 1 : Vector (Vector ℝ 1) 1) = #v[#v[1]] := rfl
  simp only [begin, worst, basis, ofFn_eq_mk, List.ofFn_succ]
  simp [fresh]
  exact ⟨rfl, rfl⟩

section Turns

-- All numbers of a turn are known, and so it can be evaluated.
attribute [local simp] revise activate alignBasis alignColumn enterIndependent enterDependent
  dependence dependenceAt settleEntry approach Workspace.judged walked walk trialViolation
  withCandidates activeCandidates multiplierAt residual blocking Fin.foldl_succ Fin.foldr_succ

theorem turn_queue_held (watch : stage.watch (queueModel late) = watched)
    (patient : watched.patience ≠ 0)
    (revision : watched.workspace.revise (queueModel late) =
      (queueEntered late slope order candidates incoming, true))
    (positive : 0 < slope) {radius : ℝ} (enough : 1 / slope ≤ radius)
    (judged : (queueEntered late slope order candidates incoming).judged (queueModel late) 1 =
      queueJudged late slope order ahead incoming)
    (blocked : (queueJudged late slope order ahead incoming).blocking = (0, some position))
    (most : (late : ℝ) ≤ 1) :
    stage.turn (queueModel late) radius = .another { watched with
      workspace := queueHeld late slope order ahead position } := by
  have still : { (queueJudged late slope order ahead incoming).advance 0 1 with
      incoming := position } = queueHeld late slope order ahead position := by
    simp [advance, most]
  have square : 1 / (slope : ℝ) * (1 / slope) =
      dot (rationals ![1 / slope]) (rationals ![1 / slope]) := by
    simp
  exact Stage.turn_of_blocked watch patient revision rfl one_pos (step_queueStart late)
    (one_div_pos.mpr (Rat.cast_pos.mpr positive)) square ((one_mul _).trans_le enough) judged
    blocked still

theorem turn_queueStart (early : late = 0 ∨ late = 1) {radius : ℝ} (enough : 1 / 5 ≤ radius) :
    (Stage.first (queueStart late)).turn (queueModel late) radius =
      .another ⟨queueSecond late, 1, 0, 3⟩ := by
  have watch : (Stage.first (queueStart late)).watch (queueModel late) =
      ⟨queueStart late, 1, 0, 3⟩ := by
    simp [Stage.watch, Stage.first, Stage.target, patienceLimit]
  have revision : (queueStart late).revise (queueModel late) =
      (queueEntered late 5 #v[0, 1, 2, 3, 4, 0] ![0, 0, 0, 0, 0, 0] 0, true) := by
    simp
    exact ⟨by norm_num, rfl⟩
  have judged : (queueEntered late 5 #v[0, 1, 2, 3, 4, 0] ![0, 0, 0, 0, 0, 0] 0).judged
      (queueModel late) 1 = queueJudged late 5 #v[0, 1, 2, 3, 4, 0]
        ![1 / 25, -1 / 5, 3 / 5 - late, 2 / 5 - late, 1 / 5 - late, 0] 0 := by
    simp
    norm_num
    exact ⟨by ring, by ring, by ring⟩
  have blocked : (queueJudged late 5 #v[0, 1, 2, 3, 4, 0]
      ![1 / 25, -1 / 5, 3 / 5 - late, 2 / 5 - late, 1 / 5 - late, 0] 0).blocking =
        (0, some 1) := by
    rcases early with rfl | rfl
    · simp
      norm_num
    · simp
      norm_num
  have most : (late : ℝ) ≤ 1 := by rcases early with rfl | rfl <;> norm_num
  exact turn_queue_held watch three_ne_zero revision (by norm_num) enough judged blocked most

theorem watch_queueSecond :
    Stage.watch (queueModel late) ⟨queueSecond late, 1, 0, 3⟩ = ⟨queueSecond late, 1, 1, 3⟩ :=
  Stage.watch_of_same rfl rfl 0 3

theorem revise_queueSecond : (queueSecond late).revise (queueModel late) =
    (queueEntered late 4 #v[1, 0, 2, 3, 4, 0]
      ![4 / 5, -1 / 5, 3 / 5 - late, 2 / 5 - late, 1 / 5 - late, 0] 1, true) := by
  simp
  norm_num
  rfl

theorem turn_queueSecond_early :
    Stage.turn (queueModel 0) (1 / 4) ⟨queueSecond 0, 1, 0, 3⟩ =
      .done (queueOpen.advance 1 1) .boundary := by
  have judged : (queueEntered 0 4 #v[1, 0, 2, 3, 4, 0]
      ![4 / 5, -1 / 5, 3 / 5 - 0, 2 / 5 - 0, 1 / 5 - 0, 0] 1).judged (queueModel 0) 1 =
        queueOpen := by
    simp
    norm_num
  have free : queueOpen.blocking = (1, none) := by
    simp
    norm_num
  have full : ((1 : ℝ) == 1 / 4 / (1 / 4)) = true := beq_iff_eq.mpr (by norm_num)
  have enough : (1 : ℝ) * (1 / 4) ≤ 1 / 4 := (one_mul _).le
  have square : (1 / 4 : ℝ) * (1 / 4) = dot (rationals ![1 / 4]) (rationals ![1 / 4]) := by
    simp
  have turned := Stage.turn_of_free watch_queueSecond three_ne_zero revise_queueSecond rfl one_pos
    (step_queueStart 0) (by norm_num) square enough judged free
  exact turned.trans (congrArg (Turn.done _) (if_pos full))

theorem turn_queueSecond_late :
    Stage.turn (queueModel 1) 1 ⟨queueSecond 1, 1, 0, 3⟩ = .another ⟨queueThird, 1, 1, 3⟩ := by
  refine turn_queue_held watch_queueSecond three_ne_zero revise_queueSecond (by norm_num)
    (by norm_num) ?judged ?blocked Rat.cast_one.le
  case judged =>
    simp
    norm_num
  case blocked =>
    simp
    norm_num

theorem turn_queueThird :
    Stage.turn (queueModel 1) 1 ⟨queueThird, 1, 1, 3⟩ = .another ⟨queueFourth, 1, 1, 2⟩ := by
  have watch : Stage.watch (queueModel 1) ⟨queueThird, 1, 1, 3⟩ = ⟨queueThird, 1, 1, 2⟩ :=
    Stage.watch_of_same rfl rfl 1 3
  have revision : queueThird.revise (queueModel 1) = (queueEntered 1 3 #v[2, 0, 1, 3, 4, 0]
      ![3 / 4, 1 / 4, -1 / 4, -1 / 2, -3 / 4, 0] 2, true) := by
    simp
    norm_num
    rfl
  refine turn_queue_held watch two_ne_zero revision (by norm_num) (by norm_num)
    ?judged ?blocked Rat.cast_one.le
  case judged =>
    simp
    norm_num
  case blocked =>
    simp
    norm_num

theorem turn_queueFourth :
    Stage.turn (queueModel 1) 1 ⟨queueFourth, 1, 1, 2⟩ = .another ⟨queueLast, 1, 1, 1⟩ := by
  have watch : Stage.watch (queueModel 1) ⟨queueFourth, 1, 1, 2⟩ = ⟨queueFourth, 1, 1, 1⟩ :=
    Stage.watch_of_same rfl rfl 1 2
  have revision : queueFourth.revise (queueModel 1) = (queueEntered 1 2 #v[3, 0, 1, 2, 4, 0]
      ![2 / 3, 2 / 3, 1 / 3, -1 / 3, -2 / 3, 0] 3, true) := by
    simp
    norm_num
    rfl
  refine turn_queue_held watch one_ne_zero revision (by norm_num) (by norm_num)
    ?judged ?blocked Rat.cast_one.le
  case judged =>
    simp
    norm_num
  case blocked =>
    simp
    norm_num

/-- There are no turns left for the last constraint. -/
theorem turn_queueLast :
    Stage.turn (queueModel 1) 1 ⟨queueLast, 1, 1, 1⟩ = .done queueLast .stalled := by
  have watch : Stage.watch (queueModel 1) ⟨queueLast, 1, 1, 1⟩ = ⟨queueLast, 1, 1, 0⟩ :=
    Stage.watch_of_same rfl rfl 1 1
  simp only [Stage.turn, watch, if_true]

/-- There is no objective for the second stage. -/
theorem turn_queueLast_second : ∃ ended : Workspace ℝ 1 5,
    (Stage.first queueLast.includeObjective).turn (queueModel 1) 1 = .done ended .stalled ∧
      ended.step = #v[0] ∧ ended.active = 1 := by
  have watch : (Stage.first queueLast.includeObjective).watch (queueModel 1) =
      ⟨queueLast.includeObjective, 0, 1, 3⟩ := by
    simp [Stage.watch, Stage.first, Stage.target, patienceLimit, includeObjective, Fin.last]
  refine ⟨_, Stage.turn_of_stuck watch three_ne_zero ?_, ?_, ?_⟩
  · simp [includeObjective, Fin.last]
  · simp [includeObjective, Fin.last]
  · simp [includeObjective, Fin.last]

end Turns

/-- The first stage of the early queue makes two turns. -/
theorem visits_queue (visited : (fresh 1 5).Visits (queueModel 0) (1 / 4) stage)
    (early : stage.workspace.secondStage = false) :
    stage = .first (queueStart 0) ∨ stage = ⟨queueSecond 0, 1, 0, 3⟩ := by
  refine visited.of_first (fun stage => stage = .first (queueStart 0) ∨
    stage = ⟨queueSecond 0, 1, 0, 3⟩) (.inl (congrArg _ (begin_queue (.inl rfl)))) ?_ early
  rintro before next (rfl | rfl) turned
  · rw [turn_queueStart (.inl rfl) (by norm_num)] at turned
    injection turned with next
    exact .inr next.symm
  · rw [turn_queueSecond_early] at turned
    cases turned

theorem patient_queue : (fresh 1 5).PatientThroughout (queueModel 0) (1 / 4) := by
  intro stage visited early
  rcases visits_queue visited early with rfl | rfl
  · simp [Stage.watch, Stage.first, patienceLimit]
  · rw [watch_queueSecond]
    exact three_ne_zero

theorem limits_queue : (fresh 1 5).LimitsThroughout (queueModel 0) (1 / 4) := by
  intro stage visited early inactive component ratio known
  rcases visits_queue visited early with rfl | rfl
  · simp [dependence, Stage.first, aligned] at known
  · simp [dependence, dependenceAt, aligned, alignBasis, Fin.foldr_succ] at known ⊢
    exact known.symm

theorem solve_queue : (fresh 1 5).solve (queueModel 0) (1 / 4) 2 =
    some (queueOpen.advance 1 1, .boundary) := by
  have violated : ((queueStart 0).violation == 0) = false :=
    beq_eq_false_iff_ne.mpr one_ne_zero
  rw [solve, begin_queue (.inl rfl), violated, if_neg Bool.false_ne_true,
    Stage.run_another (turn_queueStart (.inl rfl) (by norm_num)),
    Stage.run_done turn_queueSecond_early]

theorem solve_least_on_line : ∃ ended : Workspace ℝ 1 5,
    (fresh 1 5).solve (queueModel 0) (1 / 4) 2 = some (ended, .boundary) ∧
      ended.step = #v[1 / 4] ∧
      ∀ step : Vector ℝ 1, dot step step ≤ 1 / 4 * (1 / 4) →
        (queueModel 0).predictedViolation ended.step ≤ (queueModel 0).predictedViolation step ∧
          ((∀ c : Fin 5, (queueModel 0).bounds.get c.castSucc ≤
              (queueModel 0).slope c.castSucc step) →
            ∀ c : Fin 5, (queueModel 0).bounds.get c.castSucc ≤
              (queueModel 0).slope c.castSucc ended.step) := by
  refine ⟨queueOpen.advance 1 1, solve_queue, by simp [advance], fun step inside => ?_⟩
  exact solve_least (by norm_num) patient_queue limits_queue solve_queue step inside

/-- **The first stage may give up too early.**  Four of the constraints enter in turn, each in the
place of the one before it, and there is no progress in that.  The step stays at zero, where all
of them are violated, although a step of length one satisfies them. -/
theorem violation_not_least : ∃ ended : Workspace ℝ 1 5,
    (fresh 1 5).solve (queueModel 1) 1 5 = some (ended, .stalled 1) ∧
      (queueModel 1).predictedViolation ended.step = 1 ∧
      dot (#v[1] : Vector ℝ 1) #v[1] ≤ 1 * 1 ∧
      (∀ c : Fin 5, (queueModel 1).bounds.get c.castSucc ≤
        (queueModel 1).slope c.castSucc #v[1]) ∧
      (queueModel 1).predictedViolation #v[1] = 0 := by
  obtain ⟨ended, stalled, still, active⟩ := turn_queueLast_second
  have violated : ((queueStart 1).violation == 0) = false :=
    beq_eq_false_iff_ne.mpr one_ne_zero
  refine ⟨ended, ?_, ?_, ?_, ?_, ?_⟩
  · rw [solve, begin_queue (.inr rfl), violated, if_neg Bool.false_ne_true,
      Stage.run_another (turn_queueStart (.inr rfl) (by norm_num)),
      Stage.run_another turn_queueSecond_late, Stage.run_another turn_queueThird,
      Stage.run_another turn_queueFourth, Stage.run_done turn_queueLast]
    simp only [runSecondStage, Stage.run_done stalled, active]
  · rw [still]
    simp [LinearModel.predictedViolation, LinearModel.slope]
  · simp
  · simp [Fin.forall_fin_succ, LinearModel.slope]
  · simp [LinearModel.predictedViolation, LinearModel.slope]

end Queue

/-! ## A cross -/

/-- The constraints `4 y ≥ 1`, `3 x ≥ 1` and `y ≥ 1`, without an objective. -/
noncomputable def crossModel : LinearModel ℝ 2 3 where
  gradients := .ofFn ![rationals ![0, 4], rationals ![3, 0], rationals ![0, 1], rationals ![0, 0]]
  bounds := rationals ![1, 1, 1, 0]

/-- The first constraint is to enter. -/
noncomputable def crossStart : Workspace ℝ 2 3 where
  basis := .ofFn ![rationals ![1, 0], rationals ![0, 1]]
  pivots := rationals ![0, 0, 0, 0]
  multipliers := rationals ![0, 0, 0, 0]
  candidates := rationals ![0, 0, 0, 0]
  direction := rationals ![0, 0]
  trial := rationals ![0, 0]
  step := rationals ![0, 0]
  order := .ofFn ![0, 1, 2, 0]
  active := 0
  considered := 3
  incoming := 0
  violation := 1

/-- The second constraint blocks the walk of the first one. -/
noncomputable def crossHeld : Workspace ℝ 2 3 :=
  { crossStart with
    basis := .ofFn ![rationals ![0, 1], rationals ![-1, 0]]
    pivots := rationals ![4, 0, 0, 0]
    candidates := rationals ![1 / 16, -1, -3 / 4, 0]
    direction := rationals ![0, 1 / 4]
    trial := rationals ![0, 1 / 4]
    active := 1
    incoming := 1 }

/-- The third constraint blocks the walk of both.  It depends on the first one alone. -/
noncomputable def crossFull : Workspace ℝ 2 3 :=
  { crossHeld with
    pivots := rationals ![4, -3, 0, 0]
    candidates := rationals ![1 / 16, 1 / 9, -3 / 4, 0]
    direction := rationals ![1 / 3, 1 / 4]
    trial := rationals ![1 / 3, 1 / 4]
    active := 2
    incoming := 2 }

/-- The third constraint cannot take the place of the second one. -/
noncomputable def crossStuck : Workspace ℝ 2 3 :=
  { crossFull with
    candidates := rationals ![1 / 4, 0, -3 / 4, 0]
    trial := rationals ![0, 1] }

section Cross

attribute [local simp] rationals crossModel crossStart crossHeld crossFull crossStuck entry basisAt
  gradientAt constraintAt secondStage get_eq_getElem ofFn_eq_mk List.ofFn_succ sumFrom_eq_sum
  Fin.sum_univ_two largestFrom_succ largestFrom_zero

variable {stage : Stage ℝ 2 3}

theorem step_crossStart : crossStart.step = 0 := by
  simp
  rfl

theorem begin_cross : (fresh 2 3).begin crossModel = crossStart := by
  have worst : worstBound crossModel = (1, 0) := by
    simp [worstBound, Fin.foldl_succ]
  have basis : (diagonal 2 1 : Vector (Vector ℝ 2) 2) = #v[#v[1, 0], #v[0, 1]] := rfl
  simp only [begin, worst, basis]
  simp [fresh]
  exact ⟨rfl, rfl⟩

section Turns

attribute [local simp] revise activate enterIndependent enterDependent dependence dependenceAt
  settleEntry approach Workspace.judged walked walk trialViolation withCandidates activeCandidates
  multiplierAt residual blocking Fin.foldl_succ Fin.foldr_succ advance

theorem revise_crossStart : crossStart.revise crossModel = ({ crossHeld with
    candidates := #v[0, 0, 0, 0]
    trial := #v[0, 4]
    incoming := 0 }, true) := by
  have last : alignColumn #v[0, 4] 1 (crossStart.basis, 0) = (crossStart.basis, 4) :=
    alignColumn_last (by simp)
  have first : alignColumn #v[0, 4] 0 (crossStart.basis, 4) = (crossHeld.basis, 4) := by
    have component : dot (crossStart.basis.get 0) #v[0, 4] = 0 := by
      simp
    rw [alignColumn_turn component (by norm_num) (by norm_num : (0 : ℝ) ≤ 4) (by norm_num)]
    simp
  have aligned : crossStart.alignBasis #v[0, 4] = (crossHeld.basis, 4) := by
    have idle : crossStart.active = 0 := rfl
    simp only [alignBasis, Fin.foldr_succ, Fin.foldr_zero, idle, zero_le, if_true]
    exact (congrArg _ last).trans first
  have gradient : crossStart.gradientAt crossModel crossStart.incoming = #v[0, 4] := by simp
  rw [revise_of_free (by decide) gradient aligned (by norm_num)]
  simp
  exact ⟨by norm_num, rfl⟩

theorem turn_crossStart :
    (Stage.first crossStart).turn crossModel 5 = .another ⟨crossHeld, 1, 0, 3⟩ := by
  have watch : (Stage.first crossStart).watch crossModel = ⟨crossStart, 1, 0, 3⟩ := by
    simp [Stage.watch, Stage.first, Stage.target, patienceLimit]
  have positive : (0 : ℝ) < 1 / 4 := by norm_num
  have enough : (1 : ℝ) * (1 / 4) ≤ 5 := by norm_num
  have square : (1 / 4 : ℝ) * (1 / 4) =
      dot (rationals ![0, 1 / 4]) (rationals ![0, 1 / 4]) := by
    simp
  have walked : Workspace.judged crossModel { crossHeld with
      candidates := #v[0, 0, 0, 0]
      trial := #v[0, 4]
      incoming := 0 } 1 = { crossHeld with incoming := 0, violation := 0 } := by
    simp
    norm_num
  have blocked : blocking { crossHeld with incoming := 0, violation := 0 } = (0, some 1) := by
    simp
    norm_num
  have advanced : { advance { crossHeld with incoming := 0, violation := 0 } 0 1 with
      incoming := 1 } = crossHeld := by
    simp
  exact Stage.turn_of_blocked watch three_ne_zero revise_crossStart rfl one_pos
    step_crossStart positive square enough walked blocked advanced

theorem watch_crossHeld :
    Stage.watch crossModel ⟨crossHeld, 1, 0, 3⟩ = ⟨crossHeld, 1, 1, 3⟩ :=
  Stage.watch_of_same rfl rfl 0 3

theorem revise_crossHeld : crossHeld.revise crossModel = ({ crossFull with
    candidates := #v[1 / 16, -1, -3 / 4, 0]
    trial := #v[3, 0]
    incoming := 1 }, true) := by
  simp [alignBasis, alignColumn]
  rfl

theorem turn_crossHeld :
    Stage.turn crossModel 5 ⟨crossHeld, 1, 0, 3⟩ = .another ⟨crossFull, 1, 1, 3⟩ := by
  have positive : (0 : ℝ) < 5 / 12 := by norm_num
  have enough : (1 : ℝ) * (5 / 12) ≤ 5 := by norm_num
  have square : (5 / 12 : ℝ) * (5 / 12) =
      dot (rationals ![1 / 3, 1 / 4]) (rationals ![1 / 3, 1 / 4]) := by
    simp
    norm_num
  have walked : Workspace.judged crossModel { crossFull with
      candidates := #v[1 / 16, -1, -3 / 4, 0]
      trial := #v[3, 0]
      incoming := 1 } 1 = { crossFull with incoming := 1, violation := 0 } := by
    simp
    norm_num
  have blocked : blocking { crossFull with incoming := 1, violation := 0 } = (0, some 2) := by
    simp
    norm_num
  have advanced : { advance { crossFull with incoming := 1, violation := 0 } 0 1 with
      incoming := 2 } = crossFull := by
    simp
  exact Stage.turn_of_blocked watch_crossHeld three_ne_zero revise_crossHeld rfl one_pos
    step_crossStart positive square enough walked blocked advanced

theorem revise_crossFull : crossFull.revise crossModel = (crossStuck, false) := by
  simp [alignBasis]

theorem watch_crossFull :
    Stage.watch crossModel ⟨crossFull, 1, 1, 3⟩ = ⟨crossFull, 1, 2, 3⟩ :=
  Stage.watch_of_same rfl rfl 1 3

theorem turn_crossFull :
    Stage.turn crossModel 5 ⟨crossFull, 1, 1, 3⟩ = .done crossStuck .stalled := by
  rw [Stage.turn_of_stuck watch_crossFull three_ne_zero (congrArg Prod.snd revise_crossFull),
    revise_crossFull]

/-- There is no objective for the second stage. -/
theorem turn_crossStuck : ∃ ended : Workspace ℝ 2 3,
    (Stage.first crossStuck.includeObjective).turn crossModel 5 = .done ended .stalled ∧
      ended.step = #v[0, 0] ∧ ended.active = 2 := by
  have watch : (Stage.first crossStuck.includeObjective).watch crossModel =
      ⟨crossStuck.includeObjective, 0, 2, 3⟩ := by
    simp [Stage.watch, Stage.first, Stage.target, patienceLimit, includeObjective, Fin.last]
  refine ⟨_, Stage.turn_of_stuck watch three_ne_zero ?_, ?_, ?_⟩
  · simp [includeObjective, Fin.last, alignBasis]
  · simp [includeObjective, Fin.last, alignBasis]
  · simp [includeObjective, Fin.last, alignBasis]

end Turns

/-- The first stage of the cross makes three turns. -/
theorem visits_cross (visited : (fresh 2 3).Visits crossModel 5 stage)
    (early : stage.workspace.secondStage = false) :
    stage = .first crossStart ∨ stage = ⟨crossHeld, 1, 0, 3⟩ ∨ stage = ⟨crossFull, 1, 1, 3⟩ := by
  refine visited.of_first (fun stage => stage = .first crossStart ∨
    stage = ⟨crossHeld, 1, 0, 3⟩ ∨ stage = ⟨crossFull, 1, 1, 3⟩)
      (.inl (congrArg _ begin_cross)) ?_ early
  rintro before next (rfl | rfl | rfl) turned
  · rw [turn_crossStart] at turned
    injection turned with next
    exact .inr (.inl next.symm)
  · rw [turn_crossHeld] at turned
    injection turned with next
    exact .inr (.inr next.symm)
  · rw [turn_crossFull] at turned
    cases turned

theorem patient_cross : (fresh 2 3).PatientThroughout crossModel 5 := by
  intro stage visited early
  rcases visits_cross visited early with rfl | rfl | rfl
  · simp [Stage.watch, Stage.first, patienceLimit]
  · rw [watch_crossHeld]
    exact three_ne_zero
  · rw [watch_crossFull]
    exact three_ne_zero

/-- **The first stage may be stuck too early**, without having run out of patience.  The third
constraint asks the first one to leave, and cannot take the place of the second one instead.  The
step stays at zero, although there is one of length less than two that satisfies all constraints. -/
theorem cross_not_least : (fresh 2 3).PatientThroughout crossModel 5 ∧
    ∃ ended : Workspace ℝ 2 3, (fresh 2 3).solve crossModel 5 3 = some (ended, .stalled 2) ∧
      crossModel.predictedViolation ended.step = 1 ∧
      crossModel.predictedViolation #v[1, 1] = 0 := by
  obtain ⟨ended, stalled, still, active⟩ := turn_crossStuck
  have violated : (crossStart.violation == 0) = false := beq_eq_false_iff_ne.mpr one_ne_zero
  refine ⟨patient_cross, ended, ?_, ?_, ?_⟩
  · rw [solve, begin_cross, violated, if_neg Bool.false_ne_true, Stage.run_another turn_crossStart,
      Stage.run_another turn_crossHeld, Stage.run_done turn_crossFull]
    simp only [runSecondStage, Stage.run_done stalled, active]
  · rw [still]
    simp [LinearModel.predictedViolation, LinearModel.slope]
  · simp [LinearModel.predictedViolation, LinearModel.slope]

end Cross

end Workspace

end DerivativeFree
