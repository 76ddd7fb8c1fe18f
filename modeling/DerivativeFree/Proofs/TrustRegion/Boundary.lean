import DerivativeFree.Proofs.TrustRegion.FirstStage

/-!
# Steps to the boundary

A step that has reached the boundary of the trust region is not zero
(`solve_boundary`), whatever the model is and wherever the numbers come from.

In both stages the last walk has gone to the boundary, as a violation is negligible in exact
arithmetic only if there is none (`Visits.boundary`).  The second stage walks along a direction
that is not zero, and the first one does not end at the pole either.
-/

namespace DerivativeFree

set_option autoImplicit false

variable {α : Type} [EuclideanField α] {n m : Nat}

namespace Workspace

variable {model : LinearModel α n m} {workspace : Workspace α n m}

/-! ## Preparations -/

/-- The objective is made to enter after the first stage. -/
theorem Factored.includeObjective (factored : workspace.Factored model)
    (active : workspace.active ≤ m) : workspace.includeObjective.Factored model := by
  have still : ∀ i < workspace.active,
      workspace.includeObjective.gradientAt model i = workspace.gradientAt model i := by
    intro i below
    have other : m ≠ i := by omega
    simp only [gradientAt, constraintAt, Workspace.includeObjective, set_eq_setIfInBounds,
      Vector.getElem?_setIfInBounds_ne other]
  exact { factored with
    triangular := fun i below j after => by
      rw [still i below]
      exact factored.triangular i below j after
    room := Nat.le_succ_of_le active
    inside := Nat.lt_succ_self m
    most := le_rfl }

theorem worstBound_spec (model : LinearModel α n m) :
    (∀ c : Fin m, model.bounds.get c.castSucc ≤ (worstBound model).1) ∧
      ((worstBound model).1 = 0 ∨
        0 < (worstBound model).1 ∧ ∃ c : Fin m, 0 < model.bounds.get c.castSucc) := by
  have invariant := foldl_invariant (fun (worst : α × Nat) (k : Fin m) =>
    if worst.1 < model.bounds.get k.castSucc then (model.bounds.get k.castSucc, k.val) else worst)
    (0, 0)
    (fun taken worst => (∀ c : Fin m, c < taken → model.bounds.get c.castSucc ≤ worst.1) ∧
      (worst.1 = 0 ∨ 0 < worst.1 ∧ ∃ c : Fin m, 0 < model.bounds.get c.castSucc))
    ⟨fun _ before => absurd before (Nat.not_lt_zero _), .inl rfl⟩ ?_
  · exact ⟨fun c => invariant.1 c c.isLt, invariant.2⟩
  · rintro k worst ⟨greatest, positive⟩
    split
    case isTrue above =>
      have bound : 0 < model.bounds.get k.castSucc := by
        rcases positive with zero | ⟨positive, -⟩
        · exact zero ▸ above
        · exact positive.trans above
      refine ⟨fun c taken => ?_, .inr ⟨bound, k, bound⟩⟩
      rcases Nat.lt_succ_iff_lt_or_eq.mp taken with earlier | now
      · exact (greatest c earlier).trans above.le
      · rw [Fin.ext now]
    case isFalse below =>
      refine ⟨fun c taken => ?_, positive⟩
      rcases Nat.lt_succ_iff_lt_or_eq.mp taken with earlier | now
      · exact greatest c earlier
      · rw [Fin.ext now]
        exact not_lt.mp below

theorem worstBound_of_satisfied (satisfied : ∀ c : Fin m, model.bounds.get c.castSucc ≤ 0) :
    (worstBound model).1 = 0 :=
  (worstBound_spec model).2.resolve_right fun ⟨_, c, above⟩ => absurd above (satisfied c).not_gt

theorem factored_begin (workspace : Workspace α n m) (incoming : (worstBound model).2 < m) :
    (workspace.begin model).Factored model where
  ortho := .diagonal n
  triangular i below := absurd below (Nat.not_lt_zero i)
  pivot_ne_zero i below := absurd below (Nat.not_lt_zero i)
  few := Nat.zero_le n
  room := Nat.zero_le m
  inside := incoming
  most := Nat.le_succ m

theorem rising_begin (violated : ((workspace.begin model).violation == 0) = false) :
    (workspace.begin model).Rising model := by
  have first := firstStage_begin violated
  obtain ⟨greatest, none | ⟨positive, unmet⟩⟩ := worstBound_spec model
  · exact absurd none (beq_eq_false_iff_ne.mp violated)
  refine ⟨factored_begin workspace first.incoming, fun i below => absurd below (Nat.not_lt_zero i),
    ⟨fun k inside => ?nonneg, fun c => ⟨c, c.isLt, ?listed⟩⟩, first, positive, unmet⟩
  case nonneg =>
    have place : k < m + 1 := Nat.lt_succ_of_lt inside
    rw [entry_of_lt _ place]
    simp only [begin, Vector.getElem_ofFn, inside, if_true, sub_nonneg]
    exact greatest ⟨k, inside⟩
  case listed =>
    simp [constraintAt, begin, Nat.lt_succ_of_lt c.isLt]
    rfl

/-- Without a violated constraint the second stage begins at once. -/
theorem factored_satisfied (workspace : Workspace α n m) :
    (workspace.begin model).includeObjective.Factored model where
  ortho := .diagonal n
  triangular i below := absurd below (Nat.not_lt_zero i)
  pivot_ne_zero i below := absurd below (Nat.not_lt_zero i)
  few := Nat.zero_le n
  room := Nat.zero_le (m + 1)
  inside := Nat.lt_succ_self m
  most := le_rfl

end Workspace

/-! ## Turns -/

namespace Stage

variable {model : LinearModel α n m} {stage next : Stage α n m} {radius : α}
  {ended : Workspace α n m} {how : StageEnd}

/-- The end of a turn: before the walk, or with one that nothing has blocked. -/
inductive Finished (model : LinearModel α n m) (radius : α) (stage : Stage α n m) :
    Workspace α n m → StageEnd → Prop
  /-- There is no progress. -/
  | weary (tired : (stage.watch model).patience = 0) :
      Finished model radius stage stage.workspace .stalled
  /-- The active set cannot be revised. -/
  | stuck {stuck : Workspace α n m} (revision : stage.workspace.revise model = (stuck, false)) :
      Finished model radius stage stuck .stalled
  /-- The boundary has been passed already. -/
  | outside {revised : Workspace α n m}
      (revision : stage.workspace.revise model = (revised, true))
      (none : revised.room radius ≤ 0) : Finished model radius stage revised .stalled
  /-- The violation is negligible. -/
  | negligible {revised : Workspace α n m}
      (revision : stage.workspace.revise model = (revised, true))
      (first : revised.secondStage = false) {full : α}
      (negligible : revised.negligibleViolation full = true) :
      Finished model radius stage revised .boundary
  /-- The walk has reached the boundary. -/
  | reached {revised : Workspace α n m} (revision : stage.workspace.revise model = (revised, true))
      (left : 0 < revised.room radius)
      (free : (revised.judged model (revised.fullLength (revised.room radius))).blocking.2 = none)
      (short : revised.secondStage = false →
        revised.fullLength (revised.room radius) ≤ revised.violation)
      (patient : (stage.watch model).patience ≠ 0) :
      Finished model radius stage
        ((revised.judged model (revised.fullLength (revised.room radius))).advance 1
          revised.violation) .boundary
  /-- The violation has been removed within the boundary. -/
  | inside {revised : Workspace α n m} (revision : stage.workspace.revise model = (revised, true))
      (first : revised.secondStage = false)
      (free : (revised.judged model revised.violation).blocking.2 = none) :
      Finished model radius stage
        ((revised.judged model revised.violation).advance 1 revised.violation) .inside

theorem walkTurn_done {workspace : Workspace α n m} {length full : α}
    (walked : stage.walkTurn model workspace length full = .done ended how) :
    (workspace.judged model length).blocking.2 = none ∧
      ended = (workspace.judged model length).advance 1 workspace.violation ∧
      (length = full ∧ how = .boundary ∨ length ≠ full ∧ how = .inside) := by
  rw [walkTurn_judged] at walked
  split at walked
  case h_1 => cases walked
  case h_2 free =>
    cases walked
    refine ⟨free, by rw [Workspace.blocking_free free], ?_⟩
    by_cases same : length = full
    · exact .inl ⟨same, by simp [same]⟩
    · exact .inr ⟨same, by simp [same]⟩

/-- **A turn does not end in another way.** -/
theorem turn_done (turned : stage.turn model radius = .done ended how) :
    Finished model radius stage ended how := by
  simp only [turn, workspace_watch] at turned
  split at turned
  case isTrue tired =>
    cases turned
    exact .weary tired
  case isFalse patient =>
    split at turned
    case h_1 stuck revision =>
      cases turned
      exact .stuck revision
    case h_2 revised revision =>
      split at turned
      case isTrue none =>
        cases turned
        exact .outside revision none
      case isFalse left =>
        have left := not_le.mp left
        split at turned
        case isTrue second =>
          obtain ⟨free, rfl, ⟨-, rfl⟩ | ⟨other, -⟩⟩ := walkTurn_done turned
          · exact .reached revision left free
              (fun first => absurd (second.symm.trans first) (by simp)) patient
          · exact absurd rfl other
        case isFalse first =>
          have first := Bool.eq_false_iff.mpr first
          split at turned
          case isTrue negligible =>
            cases turned
            exact .negligible revision first negligible
          case isFalse =>
            rw [smaller_eq_min] at turned
            obtain ⟨free, rfl, ⟨full, rfl⟩ | ⟨other, rfl⟩⟩ := walkTurn_done turned
            · rw [full] at free ⊢
              exact .reached revision left free (fun _ => min_eq_left_iff.mp full) patient
            · have whole := (min_choice (revised.fullLength (revised.room radius))
                revised.violation).resolve_left other
              rw [whole] at free ⊢
              exact .inside revision first free

theorem Finished.factored (finished : Finished model radius stage ended how)
    (factored : stage.workspace.Factored model) :
    ended.Factored model ∧ ended.considered = stage.workspace.considered := by
  have revise := factored.revise
  have considered := Workspace.considered_revise model stage.workspace
  have walked : ∀ {revised : Workspace α n m} (length : α),
      stage.workspace.revise model = (revised, true) →
      ((revised.judged model length).advance 1 revised.violation).Factored model ∧
        ((revised.judged model length).advance 1 revised.violation).considered =
          stage.workspace.considered := by
    intro revised length revision
    rw [revision] at revise considered
    obtain ⟨candidates, trial, violation, judged⟩ := revised.judged_frame model length
    rw [judged]
    exact ⟨revise.frame _ _ _ _ _ _ revise.inside, considered⟩
  cases finished with
  | weary => exact ⟨factored, rfl⟩
  | stuck revision | outside revision | negligible revision =>
    rw [revision] at revise considered
    exact ⟨revise, considered⟩
  | reached revision => exact walked _ revision
  | inside revision => exact walked _ revision

/-- The walk of a turn after which the stage goes on: in the second stage it would have reached the
boundary, and in the first one it would not have removed more than the violation. -/
structure Blocked (model : LinearModel α n m) (radius : α) (stage : Stage α n m)
    (revised : Workspace α n m) (length : α) (position : Nat) : Prop where
  patient : (stage.watch model).patience ≠ 0
  revision : stage.workspace.revise model = (revised, true)
  left : 0 < revised.room radius
  full : revised.secondStage = true → length = revised.fullLength (revised.room radius)
  short : revised.secondStage = false → length ≤ revised.violation
  blocked : (revised.judged model length).blocking.2 = some position

theorem walkTurn_another_blocked {workspace : Workspace α n m} {length full : α}
    (walked : stage.walkTurn model workspace length full = .another next) :
    ∃ position, (workspace.judged model length).blocking.2 = some position ∧
      next.workspace = { (workspace.judged model length).advance
        (workspace.judged model length).blocking.1 workspace.violation with
          incoming := position } := by
  rw [walkTurn_judged] at walked
  split at walked
  case h_1 position blocked =>
    cases walked
    exact ⟨position, blocked, rfl⟩
  case h_2 => cases walked

/-- **A turn after which the stage goes on ends with a walk that is blocked.** -/
theorem turn_blocked (turned : stage.turn model radius = .another next) :
    ∃ revised length position, Blocked model radius stage revised length position ∧
      next.workspace = { (revised.judged model length).advance
        (revised.judged model length).blocking.1 revised.violation with incoming := position } := by
  simp only [turn, workspace_watch] at turned
  split at turned
  case isTrue => cases turned
  case isFalse patient =>
    split at turned
    case h_1 => cases turned
    case h_2 revised revision =>
      split at turned
      case isTrue => cases turned
      case isFalse left =>
        have left := not_le.mp left
        split at turned
        case isTrue second =>
          obtain ⟨position, blocked, same⟩ := walkTurn_another_blocked turned
          exact ⟨revised, _, position, ⟨patient, revision, left, fun _ => rfl,
            fun first => absurd (second.symm.trans first) (by simp), blocked⟩, same⟩
        case isFalse first =>
          split at turned
          case isTrue => cases turned
          case isFalse =>
            obtain ⟨position, blocked, same⟩ := walkTurn_another_blocked turned
            refine ⟨revised, _, position, ⟨patient, revision, left,
              fun second => absurd second first, fun _ => ?_, blocked⟩, same⟩
            rw [smaller_eq_min]
            exact min_le_right _ _

/-- The second stage follows only the first one. -/
theorem early_of_further (turned : stage.turn model radius = .done ended how)
    (further : how = .inside ∨ how = .stalled ∧ stage.workspace.secondStage = false) :
    stage.workspace.secondStage = false := by
  rcases further with rfl | ⟨-, early⟩
  · cases turn_done turned with
    | inside revision first => exact (Workspace.secondStage_revise revision).symm.trans first
  · exact early

theorem factored_turn (factored : stage.workspace.Factored model)
    (turned : stage.turn model radius = .another next) : next.workspace.Factored model := by
  obtain ⟨revised, length, position, ⟨-, revision, -, -, -, blocked⟩, same⟩ := turn_blocked turned
  have revise := factored.revise
  rw [revision] at revise
  obtain ⟨candidates, trial, violation, judged⟩ := revised.judged_frame model length
  rw [same]
  rw [judged] at blocked ⊢
  have place := Workspace.blocking_lt blocked
  exact revise.frame _ _ _ _ _ _ place

theorem rising_turn (rising : stage.workspace.Rising model)
    (turned : stage.turn model radius = .another next) : next.workspace.Rising model := by
  obtain ⟨revised, length, position, ⟨-, revision, -, -, -, blocked⟩, same⟩ := turn_blocked turned
  rw [same]
  exact (rising.revise revision).blocked blocked

end Stage

/-! ## Whole steps -/

namespace Workspace

variable {model : LinearModel α n m} {workspace ended : Workspace α n m} {stage : Stage α n m}
  {radius : α} {fuel rounds : Nat}

/-- **The basis and the pivots factor the active gradients in every stage that comes up**, and the
first stage goes on as long as some violation is left. -/
theorem Visits.factored (visited : workspace.Visits model radius stage) :
    stage.workspace.Factored model ∧
      (stage.workspace.secondStage = false → stage.workspace.Rising model) := by
  induction visited with
  | violated violated =>
    have rising := rising_begin violated
    exact ⟨rising.factored, fun _ => rising⟩
  | satisfied =>
    refine ⟨workspace.factored_satisfied, fun early => ?_⟩
    rw [Stage.first, secondStage_includeObjective] at early
    cases early
  | turn _ turned ih =>
    exact ⟨Stage.factored_turn ih.1 turned, fun early =>
      Stage.rising_turn (ih.2 ((Stage.secondStage_turn turned).symm.trans early)) turned⟩
  | @second stage ended how _ turned further ih =>
    have finished := Stage.turn_done turned
    obtain ⟨factored, considered⟩ := finished.factored ih.1
    refine ⟨factored.includeObjective ?_, fun early => ?_⟩
    · have early := Stage.early_of_further turned further
      exact factored.room.trans_eq (considered.trans (ih.2 early).first.considered)
    · rw [Stage.first, secondStage_includeObjective] at early
      cases early

/-- A violation is negligible only if there is none. -/
theorem not_negligible (violated : 0 < workspace.violation) (length : α) :
    workspace.negligibleViolation length = false := by
  have near : ¬ length + 0.1 * workspace.violation ≤ length := by
    refine not_le.mpr (lt_add_of_pos_right _ ?_)
    positivity
  have far : ¬ length + 0.2 * workspace.violation ≤ length + 0.1 * workspace.violation := by
    refine not_le.mpr ?_
    linarith
  simp [negligibleViolation, near, far]

theorem Visits.boundary (visited : workspace.Visits model radius stage)
    (turned : stage.turn model radius = .done ended .boundary) : ended.step ≠ 0 := by
  obtain ⟨factored, rises⟩ := visited.factored
  cases Stage.turn_done turned with
  | negligible revision first negligible =>
    have rising := rises ((secondStage_revise revision).symm.trans first)
    rw [not_negligible (rising.revise revision).violated] at negligible
    cases negligible
  | reached revision left free =>
    rw [advance_one, judged_trial]
    cases second : stage.workspace.secondStage with
    | true =>
      have moving := factored.revise_moves second revision
      exact ne_zero_of_dot_ne_zero (fullLength_forward _ left moving).ne'
    | false => exact ((rises second).revise revision).boundary left free

/-- What the second stage ends with is found in its last turn. -/
theorem runSecondStage_last {begun : Workspace α n m} {how : StepEnd}
    (visited : workspace.Visits model radius (.first begun.includeObjective))
    (found : begun.runSecondStage model radius fuel rounds = some (ended, how)) :
    ∃ last ending, workspace.Visits model radius last ∧ last.workspace.secondStage = true ∧
      last.turn model radius = .done ended ending ∧ (how = .boundary → ending = .boundary) := by
  induction rounds generalizing begun with
  | zero => cases found
  | succ rounds ih =>
    have second := begun.secondStage_includeObjective
    simp only [runSecondStage] at found
    split at found
    case h_1 => cases found
    case h_2 ran =>
      cases found
      obtain ⟨last, reached, same, turned⟩ := visited.run ran
      exact ⟨last, .boundary, reached, same.trans second, turned, fun _ => rfl⟩
    case h_3 ran =>
      obtain ⟨last, reached, -, turned⟩ := visited.run ran
      exact ih (reached.second turned (.inl rfl)) found
    case h_4 ran =>
      cases found
      obtain ⟨last, reached, same, turned⟩ := visited.run ran
      exact ⟨last, .stalled, reached, same.trans second, turned, fun reaches => by cases reaches⟩

/-- **A step is found in the last turn**, which either reaches the boundary or belongs to the second
stage. -/
theorem solve_last {how : StepEnd}
    (solved : workspace.solve model radius fuel = some (ended, how)) :
    ∃ last ending, workspace.Visits model radius last ∧
      last.turn model radius = .done ended ending ∧ (how = .boundary → ending = .boundary) ∧
      (ending = .boundary ∨ last.workspace.secondStage = true) := by
  simp only [solve] at solved
  split at solved
  case isTrue satisfied =>
    obtain ⟨last, ending, visited, second, turned, same⟩ :=
      runSecondStage_last (.satisfied satisfied) solved
    exact ⟨last, ending, visited, turned, same, .inr second⟩
  case isFalse violated =>
    have begins : ((workspace.begin model).violation == 0) = false := Bool.eq_false_iff.mpr violated
    have visited : workspace.Visits model radius (.first (workspace.begin model)) :=
      .violated begins
    split at solved
    case h_1 => cases solved
    case h_2 ran =>
      cases solved
      obtain ⟨last, reached, -, turned⟩ := visited.run ran
      exact ⟨last, .boundary, reached, turned, fun _ => rfl, .inl rfl⟩
    case h_3 ended ending short ran =>
      obtain ⟨last, reached, early, turned⟩ := visited.run ran
      have next : ending = .inside ∨ ending = .stalled ∧ last.workspace.secondStage = false := by
        cases ending with
        | boundary => exact absurd rfl short
        | inside => exact .inl rfl
        | stalled => exact .inr ⟨rfl, early.trans (firstStage_begin begins).not_secondStage⟩
      obtain ⟨last, ending, visited, second, turned, same⟩ :=
        runSecondStage_last (reached.second turned next) solved
      exact ⟨last, ending, visited, turned, same, .inr second⟩

/-- **A step that has reached the boundary is not zero.** -/
theorem solve_boundary (solved : workspace.solve model radius fuel = some (ended, .boundary)) :
    ended.step ≠ 0 := by
  obtain ⟨last, ending, visited, turned, same, -⟩ := solve_last solved
  rw [same rfl] at turned
  exact visited.boundary turned

end Workspace

end DerivativeFree
