import DerivativeFree.Proofs.TrustRegion.Violation

/-!
# The length of a step

The length of a walk to the boundary is found with two approximations: entries of the step that are
small against the radius are left out of the room, and a small component of the step along the
direction is left out of the root.  Either can only make the walk too long, and by little
(`room_le`, `fullLength_le`).  What is taken of a walk lies between its two ends, and so every step
that comes up keeps within that little more (`Visits.within`).

A stage that reaches the boundary does so in a walk along a direction that is not zero.  In the
first stage this is because the constraint that has left last would otherwise block the walk
(`Gauging.moving`).  So a step to the boundary is not shorter than the radius (`Visits.far`).
-/

namespace DerivativeFree

set_option autoImplicit false

variable {α : Type} [EuclideanField α] {n m : Nat}

namespace Workspace

variable {model : LinearModel α n m} {workspace revised : Workspace α n m}
  {radius length room part : α}

/-! ## Approximations -/

/-- The step is not longer than the radius, but for what is neglected. -/
def Within (radius : α) (step : Vector α n) : Prop :=
  dot step step ≤ radius * radius * (1 + ((n + 2 : Nat) : α) * 1e-12)

/-- The room neglects no more than a millionth of the radius in each entry. -/
theorem room_le (workspace : Workspace α n m) (radius : α) :
    dot workspace.step workspace.step + workspace.room radius ≤
      radius * radius * (1 + n * 1e-12) := by
  have entry : ∀ i : Fin n, workspace.step.get i * workspace.step.get i -
      (if 1e-6 * radius ≤ |workspace.step.get i| then
        workspace.step.get i * workspace.step.get i else 0) ≤ radius * radius * 1e-12 := by
    intro i
    split_ifs with far
    · rw [sub_self]
      exact mul_nonneg (mul_self_nonneg _) (by norm_num)
    · have small := mul_self_le_mul_self (abs_nonneg _) (not_le.mp far).le
      rw [abs_mul_abs_self] at small
      calc workspace.step.get i * workspace.step.get i - 0
          ≤ 1e-6 * radius * (1e-6 * radius) := by rwa [sub_zero]
        _ = radius * radius * 1e-12 := by norm_num; ring
  have total := Finset.sum_le_card_nsmul Finset.univ _ _ fun i _ => entry i
  rw [Finset.sum_sub_distrib, Finset.card_univ, Fintype.card_fin, nsmul_eq_mul] at total
  rw [room_eq_sum, dot_eq_sum]
  linarith

theorem room_le_square (workspace : Workspace α n m) (radius : α) :
    workspace.room radius ≤ radius * radius := by
  rw [room_eq_sum]
  refine sub_le_self _ (Finset.sum_nonneg fun i _ => ?_)
  split_ifs
  · exact mul_self_nonneg _
  · exact le_rfl

/-- A walk to the boundary takes hardly more than the room that is left. -/
theorem fullLength_le (workspace : Workspace α n m) (left : 0 < room)
    (moving : workspace.direction ≠ 0) :
    dot (workspace.step + workspace.fullLength room * workspace.direction)
        (workspace.step + workspace.fullLength room * workspace.direction) ≤
      dot workspace.step workspace.step + room * (1 + 2 * 1e-12) := by
  obtain ⟨excess, -, small, taken⟩ := workspace.dot_fullLength left moving
  rw [taken, add_le_add_iff_left]
  exact mul_le_mul_of_nonneg_left (add_le_add le_rfl small) left.le

/-! ## Parts of a walk -/

/-- A part of a walk does not lead further than one of its ends. -/
theorem dot_between_le {step direction : Vector α n} {full bound : α} (nonneg : 0 ≤ part)
    (partly : part ≤ full) (start : dot step step ≤ bound)
    (finish : dot (step + full * direction) (step + full * direction) ≤ bound) :
    dot (step + part * direction) (step + part * direction) ≤ bound := by
  have back := dot_comm direction step
  have size := dot_self_nonneg direction
  simp only [add_dot, dot_add, smul_dot, dot_smul, back] at finish ⊢
  generalize dot step direction = along at *
  generalize dot direction direction = square at *
  generalize dot step step = before at *
  rcases eq_or_lt_of_le nonneg with rfl | some
  · linarith
  · have whole := some.trans_le partly
    refine le_of_mul_le_mul_left ?_ whole
    -- The square is a convex function of the length.
    have convex : 0 ≤ part * full * (full - part) * square :=
      mul_nonneg (mul_nonneg (mul_nonneg nonneg whole.le) (sub_nonneg.mpr partly)) size
    have first := mul_le_mul_of_nonneg_left start (sub_nonneg.mpr partly)
    have last := mul_le_mul_of_nonneg_left finish nonneg
    linarith

/-- A whole walk to the boundary keeps within the radius. -/
theorem within_fullLength (within : Within radius workspace.step)
    (left : 0 < workspace.room radius) :
    Within radius (workspace.step +
      workspace.fullLength (workspace.room radius) * workspace.direction) := by
  by_cases still : workspace.direction = 0
  · have same : workspace.step +
        workspace.fullLength (workspace.room radius) * workspace.direction = workspace.step := by
      refine vector_ext fun i => ?_
      simp [still]
    rwa [same]
  · have taken := workspace.fullLength_le left still
    have sum := workspace.room_le radius
    have room := workspace.room_le_square radius
    rw [Within, Nat.cast_add, Nat.cast_two]
    linarith

/-- The part of a walk that is taken keeps within the radius. -/
theorem within_strode (within : Within radius workspace.step) (nonneg : workspace.Nonneg)
    (violated : workspace.secondStage = false → 0 ≤ workspace.violation)
    (left : 0 < workspace.room radius) : Within radius (workspace.strode model radius).step := by
  have forwards := stride_nonneg violated left
  have short := workspace.stride_le_fullLength radius
  have part : 0 ≤ (workspace.judged model (workspace.stride radius)).blocking.1 ∧
      (workspace.judged model (workspace.stride radius)).blocking.1 ≤ 1 := by
    obtain ⟨candidates, trial, violation, judged⟩ :=
      workspace.judged_frame model (workspace.stride radius)
    rw [judged]
    have still : Nonneg { workspace with candidates, trial, violation } := nonneg
    exact ⟨(blocking_keeps still).1, (blocking_keeps still).2.1⟩
  have trial := workspace.judged_trial model (workspace.stride radius)
  have start : (workspace.judged model (workspace.stride radius)).step = workspace.step := by
    obtain ⟨candidates, trial, violation, judged⟩ :=
      workspace.judged_frame model (workspace.stride radius)
    rw [judged]
  rw [strode]
  generalize workspace.judged model (workspace.stride radius) = judged at *
  have step : (judged.advance judged.blocking.1 workspace.violation).step =
      workspace.step + (judged.blocking.1 * workspace.stride radius) * workspace.direction := by
    refine vector_ext fun i => ?_
    simp only [advance, start, trial, get_add, get_smul]
    ring
  rw [step]
  refine dot_between_le (mul_nonneg part.1 forwards) ?_ within (within_fullLength within left)
  exact (mul_le_of_le_one_left forwards part.2).trans short

end Workspace

namespace Stage

open Workspace

variable {model : LinearModel α n m} {stage next : Stage α n m} {radius : α}
  {ended revised : Workspace α n m} {how : StageEnd}

/-- A walk from a revised active set keeps within the radius. -/
theorem within_revised (steered : stage.workspace.Steered model)
    (within : Within radius stage.workspace.step)
    (revision : stage.workspace.revise model = (revised, true))
    (left : 0 < revised.room radius) : Within radius (revised.strode model radius).step := by
  obtain ⟨step, violation⟩ := revise_frame model stage.workspace
  have same := secondStage_revise revision
  have factored : stage.workspace.Factored model := by
    cases stays : stage.workspace.secondStage with
    | true => exact (steered.second stays).factored
    | false => exact (steered.first stays).rising.factored
  have nonneg := steered.nonneg.revise factored
  rw [revision] at step violation nonneg
  refine within_strode (step ▸ within) nonneg (fun early => ?_) left
  rw [violation]
  exact (steered.first (same.symm.trans early)).rising.violated.le

theorem within_turn (steered : stage.workspace.Steered model)
    (within : Within radius stage.workspace.step)
    (turned : stage.turn model radius = .another next) : Within radius next.workspace.step := by
  have goes := stage.goes model radius
  rw [turned] at goes
  cases goes with
  | blocked revision left => exact within_revised steered within revision left

theorem within_done (steered : stage.workspace.Steered model)
    (within : Within radius stage.workspace.step)
    (turned : stage.turn model radius = .done ended how) : Within radius ended.step := by
  have goes := stage.goes model radius
  rw [turned] at goes
  cases goes with
  | rests => exact within
  | revises => exact (revise_frame model stage.workspace).1.symm ▸ within
  | free _ revision left => exact within_revised steered within revision left

end Stage

/-! ## Steps to the boundary -/

namespace Workspace

variable {model : LinearModel α n m} {workspace revised ended : Workspace α n m}
  {stage : Stage α n m} {radius length : α}

theorem Visits.within (visited : workspace.Visits model radius stage) :
    Within radius stage.workspace.step := by
  have start : Within radius (0 : Vector α n) := by
    rw [Within, dot_zero]
    exact mul_nonneg (mul_self_nonneg _) (by positivity)
  induction visited with
  | violated => exact start
  | satisfied => exact start
  | turn visited turned ih => exact Stage.within_turn visited.steered ih turned
  | second visited turned _ ih =>
    have within := Stage.within_done visited.steered ih turned
    exact within

/-- **A walk of the first stage that reaches the boundary has a direction.**  Otherwise the
constraint that has left is violated where the walk ends. -/
theorem Gauging.moving (gauging : workspace.Gauging model)
    (revision : workspace.revise model = (revised, true))
    (free : (revised.judged model length).blocking.2 = none) : revised.direction ≠ 0 := by
  intro still
  obtain ⟨rising, gauged, idle⟩ := gauging
  have tight := gauged.incoming rising.factored idle
  obtain ⟨c, known⟩ := Fin.exists_castSucc_eq.mpr
    (rising.first.constraint _ rising.first.incoming)
  have step : revised.step = workspace.step := by
    have frame := (revise_frame model workspace).1
    rwa [revision] at frame
  have later := rising.revise revision
  have holds := later.satisfied (later.idle still) free c
  have same : revised.step + length * revised.direction = workspace.step := by
    refine vector_ext fun i => ?_
    simp [still, step]
  rw [same, dot_comm, known] at holds
  rw [shortfall, gradientAt] at tight
  linarith [rising.violated]

/-- **A walk to the boundary is not too short.** -/
theorem Visits.far (visited : workspace.Visits model radius stage)
    (turned : stage.turn model radius = .done ended .boundary) :
    radius * radius ≤ dot ended.step ended.step := by
  have steered := visited.steered
  cases Stage.turn_done turned with
  | negligible revision first negligible =>
    have rising := (steered.first ((secondStage_revise revision).symm.trans first)).rising
    rw [not_negligible (rising.revise revision).violated] at negligible
    cases negligible
  | @reached revised revision left free =>
    have moving : revised.direction ≠ 0 := by
      cases stays : stage.workspace.secondStage with
      | true => exact (steered.second stays).factored.revise_moves stays revision
      | false => exact (steered.first stays).moving revision free
    have far := revised.room_le_fullLength left moving
    rw [advance_one, judged_trial]
    linarith [revised.le_room radius]

/-- **A step is not longer than the radius, but for what is neglected, and not shorter if it
reaches the boundary.**  In particular no violation is negligible in the first stage. -/
theorem solve_length (model : LinearModel α n m) (radius : α) (workspace : Workspace α n m) :
    (∀ (fuel : Nat) (ended : Workspace α n m) (how : StepEnd),
      workspace.solve model radius fuel = some (ended, how) →
        dot ended.step ended.step ≤ radius * radius * (1 + (n + 2) * 1e-12) ∧
          (how = .boundary → radius * radius ≤ dot ended.step ended.step)) ∧
      ∀ stage, workspace.Visits model radius stage → stage.workspace.secondStage = false →
        (stage.workspace.revise model).1.negligibleViolation
          ((stage.workspace.revise model).1.fullLength
            ((stage.workspace.revise model).1.room radius)) = false := by
  refine ⟨fun fuel ended how solved => ?length, fun stage visited early => ?negligible⟩
  case length =>
    obtain ⟨last, ending, visited, turned, same, -⟩ := solve_last solved
    have within := Stage.within_done visited.steered visited.within turned
    rw [Within, Nat.cast_add, Nat.cast_two] at within
    refine ⟨within, fun reaches => ?_⟩
    rw [same reaches] at turned
    exact visited.far turned
  case negligible =>
    have rising := (visited.steered.first early).rising
    have violation := (revise_frame model stage.workspace).2
    exact not_negligible (violation ▸ rising.violated) _

/-- A step in the first stage of which two constraints have entered. -/
theorem solve_length_on_line :
    ∃ ended : Workspace ℝ 1 5,
      (fresh 1 5).solve (queueModel 0) (1 / 4) 2 = some (ended, .boundary) ∧
      (fresh 1 5).Visits (queueModel 0) (1 / 4) ⟨queueSecond 0, 1, 0, 3⟩ ∧
      dot ended.step ended.step ≤ 1 / 4 * (1 / 4) * (1 + ((1 : Nat) + 2) * 1e-12) ∧
      1 / 4 * (1 / 4) ≤ dot ended.step ended.step ∧
      ((queueSecond 0).revise (queueModel 0)).1.negligibleViolation
        (((queueSecond 0).revise (queueModel 0)).1.fullLength
          (((queueSecond 0).revise (queueModel 0)).1.room (1 / 4))) = false := by
  have violated : (((fresh 1 5).begin (queueModel 0)).violation == (0 : ℝ)) = false := by
    rw [begin_queue (.inl rfl)]
    exact beq_eq_false_iff_ne.mpr one_ne_zero
  have begins : (fresh 1 5).Visits (queueModel 0) (1 / 4) (.first (queueStart 0)) :=
    begin_queue (.inl rfl) ▸ .violated violated
  have second : (fresh 1 5).Visits (queueModel 0) (1 / 4) ⟨queueSecond 0, 1, 0, 3⟩ :=
    begins.turn (turn_queueStart (.inl rfl) (by norm_num))
  obtain ⟨bounds, exits⟩ := solve_length (queueModel 0) (1 / 4) (fresh 1 5)
  obtain ⟨above, below⟩ := bounds 2 _ _ solve_queue
  have first : (queueSecond 0).secondStage = false := rfl
  have exit := exits _ second first
  exact ⟨_, solve_queue, second, above, below rfl, exit⟩

end Workspace

end DerivativeFree
