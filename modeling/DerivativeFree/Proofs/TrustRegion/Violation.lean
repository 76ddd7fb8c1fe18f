import DerivativeFree.Proofs.TrustRegion.LeastViolation

/-!
# The violation that a step leaves

A step violates no constraint more than the worst one is violated in the pole (`solve_contained`),
and that without any condition.

The first stage walks in a direction in which the violations of all active constraints fall, and not
further than removes them, and the residuals keep the others below (`Gauged`).  This needs neither
the balance of the step nor patience, so it holds of every turn (`Stage.gauging_turn`) and wherever
the stage ends (`Stage.gauging_done`).  The second stage then gives nothing up (`Guarded`).
-/

namespace DerivativeFree

set_option autoImplicit false

variable {α : Type} [EuclideanField α] {n m : Nat}

namespace Workspace

variable {model : LinearModel α n m} {workspace : Workspace α n m} {radius length room : α}

/-! ## The walk of a turn -/

/-- The length of the walk of a turn: it goes to the boundary, but in the first stage not further
than removes the violation. -/
def stride (workspace : Workspace α n m) (radius : α) : α :=
  let full := workspace.fullLength (workspace.room radius)
  if workspace.secondStage then full else smaller full workspace.violation

/-- The workspace after the part of the walk that nothing blocks. -/
def strode (model : LinearModel α n m) (radius : α) (workspace : Workspace α n m) :
    Workspace α n m :=
  let judged := workspace.judged model (workspace.stride radius)
  judged.advance judged.blocking.1 workspace.violation

theorem stride_second (second : workspace.secondStage = true) :
    workspace.stride radius = workspace.fullLength (workspace.room radius) := by
  rw [stride, if_pos second]

theorem stride_first (first : workspace.secondStage = false) :
    workspace.stride radius =
      min (workspace.fullLength (workspace.room radius)) workspace.violation := by
  rw [stride, if_neg (Bool.eq_false_iff.mp first), smaller_eq_min]

theorem stride_le_fullLength (workspace : Workspace α n m) (radius : α) :
    workspace.stride radius ≤ workspace.fullLength (workspace.room radius) := by
  cases stage : workspace.secondStage with
  | true => exact (stride_second stage).le
  | false => exact (stride_first stage).trans_le (min_le_left _ _)

/-- Without a direction there is no walk. -/
theorem fullLength_still (still : workspace.direction = 0) (room : α) :
    workspace.fullLength room = 0 := by
  have root : Scalar.sqrt (0 : α) = 0 := sqrt_eq_of_mul_self le_rfl (mul_zero 0)
  simp only [fullLength, still, dot_zero, zero_mul, mul_zero, add_zero, root, ite_self, div_zero]

theorem fullLength_nonneg (workspace : Workspace α n m) (left : 0 < room) :
    0 ≤ workspace.fullLength room := by
  by_cases still : workspace.direction = 0
  · exact (fullLength_still still room).ge
  · exact (workspace.fullLength_pos left still).le

theorem stride_nonneg (violated : workspace.secondStage = false → 0 ≤ workspace.violation)
    (left : 0 < workspace.room radius) : 0 ≤ workspace.stride radius := by
  have full := workspace.fullLength_nonneg left
  cases stage : workspace.secondStage with
  | true => exact full.trans_eq (stride_second stage).symm
  | false => exact (le_min full (violated stage)).trans_eq (stride_first stage).symm

end Workspace

namespace Stage

open Workspace

variable {model : LinearModel α n m} {stage : Stage α n m} {radius : α}

/-- How a turn goes: it ends where it begins, or when the active set has been revised, or it
walks. -/
inductive Goes (model : LinearModel α n m) (radius : α) (stage : Stage α n m) :
    Turn α n m → Prop
  /-- There is no progress. -/
  | rests (how : StageEnd) : Goes model radius stage (.done stage.workspace how)
  /-- There is nowhere to go. -/
  | revises (how : StageEnd) : Goes model radius stage (.done (stage.workspace.revise model).1 how)
  /-- Something blocks the walk. -/
  | blocked {revised : Workspace α n m} {position : Nat}
      (revision : stage.workspace.revise model = (revised, true)) (left : 0 < revised.room radius)
      (blocked : (revised.judged model (revised.stride radius)).blocking.2 = some position) :
      Goes model radius stage (.another { stage.watch model with
        workspace := { revised.strode model radius with incoming := position } })
  /-- Nothing blocks the walk. -/
  | free {revised : Workspace α n m} (how : StageEnd)
      (revision : stage.workspace.revise model = (revised, true)) (left : 0 < revised.room radius) :
      Goes model radius stage (.done (revised.strode model radius) how)

theorem goes_walkTurn {revised : Workspace α n m}
    (revision : stage.workspace.revise model = (revised, true)) (left : 0 < revised.room radius)
    {length : α} (stride : length = revised.stride radius) (full : α) :
    Goes model radius stage ((stage.watch model).walkTurn model revised length full) := by
  subst stride
  rw [walkTurn_judged]
  split
  case h_1 position blocked => exact .blocked revision left blocked
  case h_2 => exact .free _ revision left

/-- **Every turn goes in one of these ways.** -/
theorem goes (model : LinearModel α n m) (radius : α) (stage : Stage α n m) :
    Goes model radius stage (stage.turn model radius) := by
  simp only [turn, workspace_watch]
  split
  case isTrue => exact .rests _
  case isFalse =>
    split
    case h_1 stuck revision =>
      have ends : Goes model radius stage (.done (stage.workspace.revise model).1 .stalled) :=
        .revises _
      rwa [revision] at ends
    case h_2 revised revision =>
      have ends : ∀ how, Goes model radius stage (.done revised how) := by
        intro how
        have ends : Goes model radius stage (.done (stage.workspace.revise model).1 how) :=
          .revises how
        rwa [revision] at ends
      split
      case isTrue => exact ends _
      case isFalse left =>
        have left := not_le.mp left
        split
        case isTrue second => exact goes_walkTurn revision left (stride_second second).symm _
        case isFalse first =>
          split
          case isTrue => exact ends _
          case isFalse =>
            refine goes_walkTurn revision left ?_ _
            rw [stride, if_neg first]

end Stage

/-! ## The first stage -/

namespace Workspace

variable {model : LinearModel α n m} {workspace : Workspace α n m} {radius length part : α}

/-- A first stage between two turns that keeps the gauge: the constraint that is to enter or to
leave has no multiplier or residual. -/
structure Gauging (model : LinearModel α n m) (workspace : Workspace α n m) : Prop where
  rising : workspace.Rising model
  gauged : workspace.Gauged model
  idle : entry workspace.multipliers workspace.incoming = 0

/-- No constraint is violated more than the workspace says, and the violation is not more than it
has been in the pole. -/
structure Contained (model : LinearModel α n m) (workspace : Workspace α n m) : Prop where
  guarded : ∀ c : Fin m,
    workspace.Guarded model c.castSucc (model.bounds.get c.castSucc - workspace.violation)
  least : workspace.violation ≤ (worstBound model).1

/-- A walk that is not longer than the violation does not raise it. -/
theorem Gauged.judged_violation_le (gauged : workspace.Gauged model)
    (rising : workspace.Rising model) (forwards : 0 ≤ length)
    (short : length ≤ workspace.violation) :
    (workspace.judged model length).violation ≤ workspace.violation := by
  have first := rising.first.not_secondStage
  rcases Nat.eq_zero_or_pos workspace.active with idle | some
  · rw [judged_violation first]
    refine largestFrom_le_iff.mpr ⟨rising.violated.le, fun k => ?_⟩
    have inside : k.val < workspace.active := k.isLt
    omega
  · rw [(gauged.judged rising.steady first rising.factored.most short).2 some]
    exact sub_le_self _ forwards

/-- A workspace of the first stage, between turns or at its end, with no more violation than there
has been before. -/
structure Eased (model : LinearModel α n m) (before : α) (workspace : Workspace α n m) :
    Prop where
  gauged : workspace.Gauged model
  orderly : workspace.Orderly
  considered : workspace.considered = m
  violation : workspace.violation ≤ before

theorem Eased.contained {before : α} (eased : workspace.Eased model before)
    (least : before ≤ (worstBound model).1) : workspace.Contained model where
  guarded := eased.gauged.guarded eased.orderly eased.considered
  least := eased.violation.trans least

theorem Gauging.eased (gauging : workspace.Gauging model) :
    workspace.Eased model workspace.violation :=
  ⟨gauging.gauged, gauging.rising.orderly, gauging.rising.first.considered, le_rfl⟩

theorem Gauging.revise (gauging : workspace.Gauging model) :
    (workspace.revise model).1.Eased model workspace.violation where
  gauged := gauging.gauged.revise gauging.rising.factored gauging.idle
  orderly := gauging.rising.orderly.revise gauging.rising.factored gauging.rising.first
  considered := (considered_revise model workspace).trans gauging.rising.first.considered
  violation := (revise_frame model workspace).2.le

/-- The part of a walk that is taken eases the violation. -/
theorem Gauged.strode (gauged : workspace.Gauged model) (rising : workspace.Rising model)
    (left : 0 < workspace.room radius) :
    (workspace.strode model radius).Eased model workspace.violation := by
  have first := rising.first.not_secondStage
  have short : workspace.stride radius ≤ workspace.violation :=
    (stride_first first).trans_le (min_le_right _ _)
  have forwards := stride_nonneg (fun _ => rising.violated.le) left
  have nonneg := rising.orderly.nonneg_all rising.first.considered
  have fallen := gauged.judged_violation_le rising forwards short
  refine ⟨gauged.walk rising short, rising.orderly.walk model rising.first.considered _ _ _,
    (rising.first.walk ..).considered, ?_⟩
  rw [Workspace.strode]
  obtain ⟨candidates, trial, violation, judged⟩ :=
    workspace.judged_frame model (workspace.stride radius)
  rw [judged] at fallen ⊢
  have still : Nonneg { workspace with candidates, trial, violation } := nonneg
  have early : secondStage { workspace with candidates, trial, violation } = false := first
  have part := (blocking_keeps still).1
  simp only [Workspace.advance, early, Bool.false_eq_true, if_false]
  exact add_le_of_nonpos_right (mul_nonpos_of_nonneg_of_nonpos part (sub_nonpos.mpr fallen))

theorem gauging_begin (violated : ((workspace.begin model).violation == 0) = false) :
    (workspace.begin model).Gauging model :=
  have lowering := lowering_begin violated
  ⟨lowering.poised.rising, lowering.poised.gauged, lowering.idle⟩

end Workspace

namespace Stage

open Workspace

variable {model : LinearModel α n m} {stage next : Stage α n m} {radius : α}
  {ended : Workspace α n m} {how : StageEnd}

/-- **A turn of the first stage keeps the gauge and does not raise the violation.** -/
theorem gauging_turn (gauging : stage.workspace.Gauging model)
    (turned : stage.turn model radius = .another next) :
    next.workspace.Gauging model ∧ next.workspace.violation ≤ stage.workspace.violation := by
  have rising := rising_turn gauging.rising turned
  have goes := stage.goes model radius
  rw [turned] at goes
  cases goes with
  | @blocked revised position revision left blocked =>
    have before := gauging.rising.revise revision
    have eased := gauging.revise
    rw [revision] at eased
    have walked := eased.gauged.strode before left
    have zero := (nonneg_blocked (before.orderly.nonneg_all before.first.considered)
      before.factored.most blocked revised.violation).2
    exact ⟨⟨rising, ⟨walked.gauged.active, walked.gauged.inactive⟩, zero⟩,
      walked.violation.trans eased.violation⟩

/-- **The first stage ends with no more violation than it has had**, wherever it ends. -/
theorem gauging_done (gauging : stage.workspace.Gauging model)
    (turned : stage.turn model radius = .done ended how) :
    ended.Eased model stage.workspace.violation := by
  have goes := stage.goes model radius
  rw [turned] at goes
  cases goes with
  | rests => exact gauging.eased
  | revises => exact gauging.revise
  | @free revised _ revision left =>
    have eased := gauging.revise
    rw [revision] at eased
    have walked := eased.gauged.strode (gauging.rising.revise revision) left
    exact { walked with violation := walked.violation.trans eased.violation }

end Stage

/-! ## Whole steps -/

namespace Workspace

variable {model : LinearModel α n m} {workspace ended : Workspace α n m} {stage : Stage α n m}
  {radius : α} {fuel : Nat} {how : StepEnd}

/-- What is known of the stages that come up, without any condition. -/
structure Steered (model : LinearModel α n m) (workspace : Workspace α n m) : Prop where
  contained : workspace.Contained model
  first : workspace.secondStage = false → workspace.Gauging model
  second : workspace.secondStage = true → workspace.Sliding model

namespace Steered

theorem of_first (gauging : workspace.Gauging model)
    (least : workspace.violation ≤ (worstBound model).1) : workspace.Steered model where
  contained := gauging.eased.contained least
  first _ := gauging
  second second := absurd (gauging.rising.first.not_secondStage.symm.trans second) (by simp)

/-- The second stage begins with what the first one leaves. -/
theorem includeObjective (contained : workspace.Contained model)
    (nonneg : ∀ k < m, 0 ≤ entry workspace.multipliers k) (considered : workspace.considered = m)
    (factored : workspace.includeObjective.Factored model) :
    workspace.includeObjective.Steered model where
  contained := ⟨fun c => (contained.guarded c).includeObjective considered
    (Fin.castSucc_ne_last c), contained.least⟩
  first early := absurd (early.symm.trans (secondStage_includeObjective workspace)) (by simp)
  second _ := sliding_includeObjective factored nonneg

/-- No multiplier is negative in either stage. -/
theorem nonneg (steered : workspace.Steered model) : workspace.Nonneg := by
  cases stage : workspace.secondStage with
  | true => exact (steered.second stage).nonneg
  | false =>
    have rising := (steered.first stage).rising
    exact rising.orderly.nonneg_all rising.first.considered

end Steered

end Workspace

namespace Stage

open Workspace

variable {model : LinearModel α n m} {stage next : Stage α n m} {radius : α}

theorem steered_turn (steered : stage.workspace.Steered model)
    (turned : stage.turn model radius = .another next) : next.workspace.Steered model := by
  cases stays : stage.workspace.secondStage with
  | false =>
    obtain ⟨gauging, eased⟩ := gauging_turn (steered.first stays) turned
    exact .of_first gauging (eased.trans steered.contained.least)
  | true =>
    obtain ⟨sliding, violation⟩ := sliding_turn (steered.second stays) turned
    refine ⟨⟨fun c => violation ▸ ?_, violation ▸ steered.contained.least⟩, fun early => ?_,
      fun _ => sliding⟩
    · exact guarded_turn (steered.second stays) (steered.contained.guarded c)
        (.inl (sub_add_cancel _ _).le) turned
    · exact absurd (early.symm.trans sliding.second) (by simp)

end Stage

namespace Workspace

variable {model : LinearModel α n m} {workspace ended : Workspace α n m} {stage : Stage α n m}
  {radius : α} {fuel : Nat} {how : StepEnd}

theorem Visits.steered (visited : workspace.Visits model radius stage) :
    stage.workspace.Steered model := by
  induction visited with
  | violated violated => exact .of_first (gauging_begin violated) le_rfl
  | satisfied =>
    refine .includeObjective ⟨workspace.guarded_begin model, le_rfl⟩ (fun k inside => ?_) rfl
      workspace.factored_satisfied
    rw [entry_begin workspace model inside, sub_nonneg]
    exact (worstBound_spec model).1 ⟨k, inside⟩
  | turn _ turned ih => exact Stage.steered_turn ih turned
  | @second stage ended how visited turned further ih =>
    have early := Stage.early_of_further turned further
    have eased := Stage.gauging_done (ih.first early) turned
    exact .includeObjective (eased.contained ih.contained.least) eased.orderly.nonneg
      eased.considered (visited.second turned further).factored.1

/-- **A step violates no constraint more than the worst one is violated in the pole.** -/
theorem solve_contained (solved : workspace.solve model radius fuel = some (ended, how)) :
    model.predictedViolation ended.step ≤ (worstBound model).1 := by
  obtain ⟨last, ending, visited, turned, -⟩ := solve_last solved
  have steered := visited.steered
  obtain ⟨guarded, least⟩ := steered.contained
  have above : ∀ c : Fin m, model.bounds.get c.castSucc - last.workspace.violation ≤
      model.slope c.castSucc ended.step := by
    intro c
    cases stays : last.workspace.secondStage with
    | true =>
      exact Stage.guarded_done (steered.second stays) (guarded c) (.inl (sub_add_cancel _ _).le)
        turned
    | false =>
      have eased := Stage.gauging_done (steered.first stays) turned
      have kept := ((eased.contained least).guarded c).above
      linarith [eased.violation]
  have start : 0 ≤ (worstBound model).1 := by
    rcases (worstBound_spec model).2 with none | ⟨some, -⟩
    · exact none.ge
    · exact some.le
  refine largestFrom_le_iff.mpr ⟨start, fun c => ?_⟩
  linarith [above c]

end Workspace

end DerivativeFree
