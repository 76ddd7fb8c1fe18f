import DerivativeFree.Proofs.TrustRegion.Leftovers

/-!
# A workspace that has been used before

The start of the first stage makes any two workspaces agree (`begin_agrees`), and so they do
after every turn (`Stage.Agrees.turn`): the walk is the same, it is judged by the same
candidates, and the same constraint blocks it.  So the step of a model does not depend on the
workspace in which it is found (`solve_reused`), in any arithmetic, and each of a history of steps
is found as in a new one (`solveAll_eq_mapM`).
-/

namespace DerivativeFree

set_option autoImplicit false

variable {α : Type} [Scalar α] {n m : Nat} {model : LinearModel α n m} {radius : α}

namespace Workspace

variable {workspace other : Workspace α n m} {k : Nat}

namespace Agrees

/-! ## Walks -/

theorem room_eq (agrees : Agrees workspace other) (radius : α) :
    other.room radius = workspace.room radius := by
  simp only [Workspace.room, agrees.step]

theorem fullLength (agrees : Agrees workspace other) (room : α) :
    other.fullLength room = workspace.fullLength room := by
  simp only [Workspace.fullLength, agrees.step, agrees.direction]

theorem negligibleViolation (agrees : Agrees workspace other) (length : α) :
    other.negligibleViolation length = workspace.negligibleViolation length := by
  simp only [Workspace.negligibleViolation, agrees.violation]

end Agrees

/-- The workspaces agree, and they are trying the same step. -/
structure Walked (workspace other : Workspace α n m) : Prop extends Agrees workspace other where
  trial : other.trial = workspace.trial

/-- The trial step has been judged in the same way. -/
structure Judged (workspace other : Workspace α n m) : Prop extends Walked workspace other where
  candidates : AgreeOn 0 (max workspace.considered workspace.active) workspace.candidates
    other.candidates

theorem Agrees.walk (agrees : Agrees workspace other) (length : α) :
    Walked (workspace.walk length) (other.walk length) := by
  have trial : (other.walk length).trial = (workspace.walk length).trial := by
    simp only [Workspace.walk, agrees.step, agrees.direction]
  exact { agrees with trial }

namespace Walked

theorem trialViolation (walked : Walked workspace other) :
    other.trialViolation model = workspace.trialViolation model := by
  have constraint : ∀ k : Fin workspace.active,
      other.constraintAt k = workspace.constraintAt k :=
    fun k => walked.constraintAt (k.isLt.trans_le walked.room)
  rw [Workspace.trialViolation, Workspace.trialViolation, walked.active]
  simp only [Workspace.gradientAt, walked.trial, constraint]

/-- What is left of the trial step is the same, and so are the multipliers from position `k`
on. -/
def Found (active k : Nat) (state other : Vector α n × Vector α (m + 1)) : Prop :=
  other.1 = state.1 ∧ AgreeOn k active state.2 other.2

theorem multiplierAt (walked : Walked workspace other)
    {state state' : Vector α n × Vector α (m + 1)} (inside : k < workspace.active)
    (found : Found workspace.active (k + 1) state state') :
    Found workspace.active k (Workspace.multiplierAt model workspace k state)
      (Workspace.multiplierAt model other k state') := by
  obtain ⟨rest, multipliers⟩ := found
  have gradient : other.gradientAt model k = workspace.gradientAt model k :=
    walked.gradientAt model (inside.trans_le walked.room)
  simp only [Workspace.multiplierAt, walked.basisAt, walked.pivot inside, rest, gradient]
  exact ⟨rfl, multipliers.set_first _⟩

theorem activeCandidates (walked : Walked workspace other) :
    AgreeOn 0 workspace.active (workspace.activeCandidates model)
      (other.activeCandidates model) := by
  have found : Found workspace.active 0
      (Fin.foldr workspace.active (fun k => Workspace.multiplierAt model workspace k)
        (workspace.trial, workspace.candidates))
      (Fin.foldr workspace.active (fun k => Workspace.multiplierAt model other k)
        (other.trial, other.candidates)) :=
    foldr_relation _ _ _ _ (Found workspace.active) ⟨walked.trial, .empty _ _ _⟩
      fun k state state' => walked.multiplierAt k.isLt
  rw [Workspace.activeCandidates, Workspace.activeCandidates, walked.secondStage, walked.active]
  split
  case isTrue second =>
    have last := Nat.sub_lt second.2 Nat.one_pos
    rw [found.2.entry (Nat.zero_le _) last]
    exact found.2.set _ _
  case isFalse => exact found.2

theorem residual (walked : Walked workspace other) (k : Fin (m + 1)) :
    Workspace.residual model other k = Workspace.residual model workspace k := by
  simp only [Workspace.residual, walked.violation, walked.trial]

/-- The candidates of an earlier walk are all overwritten where they are read. -/
theorem withCandidates (walked : Walked workspace other) :
    Judged (workspace.withCandidates model) (other.withCandidates model) := by
  have candidates : AgreeOn 0 (max workspace.considered workspace.active)
      (workspace.withCandidates model).candidates (other.withCandidates model).candidates := by
    refine .of_get fun k from_first below => ?_
    simp only [Workspace.withCandidates, Vector.get_ofFn, walked.active, walked.considered,
      walked.residual]
    split
    case isTrue inactive =>
      have place : k.val < workspace.span := inactive.2.trans_le (le_max_left _ _)
      rw [walked.constraintAt place]
    case isFalse other =>
      have active : k.val < workspace.active := by omega
      exact walked.activeCandidates.get from_first active
  exact { walked with candidates }

end Walked

namespace Judged

theorem blocking (judged : Judged workspace other) : other.blocking = workspace.blocking := by
  have multiplier : ∀ k : Fin workspace.considered,
      entry other.multipliers k = entry workspace.multipliers k :=
    fun k => judged.multiplier (k.isLt.trans_le (le_max_left _ _))
  have candidate : ∀ k : Fin workspace.considered,
      entry other.candidates k = entry workspace.candidates k :=
    fun k => judged.candidates.entry (Nat.zero_le _) (k.isLt.trans_le (le_max_left _ _))
  rw [Workspace.blocking, Workspace.blocking, judged.considered]
  simp only [multiplier, candidate]

theorem advance (judged : Judged workspace other) (part before : α) :
    Agrees (workspace.advance part before) (other.advance part before) := by
  have multipliers : AgreeOn 0 (max workspace.considered workspace.active)
      (workspace.advance part before).multipliers (other.advance part before).multipliers := by
    refine .of_get fun k from_first below => ?_
    simp only [Workspace.advance, Vector.get_ofFn, judged.considered,
      judged.multipliers.get from_first below, judged.candidates.get from_first below]
  have step : (other.advance part before).step = (workspace.advance part before).step := by
    simp only [Workspace.advance, judged.step, judged.trial]
  have violation :
      (other.advance part before).violation = (workspace.advance part before).violation := by
    simp only [Workspace.advance, judged.secondStage, judged.violation]
  exact { judged.toAgrees with multipliers, step, violation }

end Judged

/-! ## The starts of the stages -/

/-- The constraint with the greatest bound has a position, even if there is none. -/
theorem worstBound_lt (model : LinearModel α n m) : (worstBound model).2 < max m 1 := by
  refine foldl_invariant _ _ (fun _ (worst : α × Nat) => worst.2 < max m 1) ?_ ?_
  · exact lt_max_of_lt_right Nat.one_pos
  · intro k worst before
    split
    · exact lt_max_of_lt_left k.isLt
    · exact before

/-- **Any two workspaces agree once the first stage has been prepared.** -/
theorem begin_agrees (workspace other : Workspace α n m) :
    Agrees (workspace.begin model) (other.begin model) where
  basis := rfl
  direction := rfl
  step := rfl
  violation := rfl
  active := rfl
  considered := rfl
  incoming := rfl
  order := by
    refine .of_get fun k _ below => ?_
    have place : k.val < max m 1 := below
    simp only [begin, Vector.get_ofFn]
    split
    case isTrue => rfl
    case isFalse beyond =>
      -- Without any constraints only the objective can stand at the first position.
      obtain rfl : m = 0 := by omega
      exact Fin.ext (by omega)
  multipliers := by
    refine .of_get fun k _ below => ?_
    have constraint : k.val < m := below.trans_eq (max_eq_left (Nat.zero_le m))
    simp only [begin, Vector.get_ofFn, constraint, if_true]
  pivots := .empty _ _ _
  least := le_rfl
  most := Nat.le_succ m
  room := Nat.zero_le _
  inside := worstBound_lt model

theorem Agrees.includeObjective (agrees : Agrees workspace other) :
    Agrees workspace.includeObjective other.includeObjective := by
  have span : workspace.includeObjective.span = m + 1 := max_eq_left (Nat.le_add_left 1 m)
  have active : workspace.active ≤ m + 1 :=
    agrees.room.trans (max_le agrees.most (Nat.le_add_left 1 m))
  have order : AgreeOn 0 (m + 1) workspace.includeObjective.order other.includeObjective.order := by
    simp only [Workspace.includeObjective, set_eq_setIfInBounds]
    exact (agrees.order.mono le_rfl (agrees.least.trans (le_max_left _ _))).set_last _
  have multipliers : AgreeOn 0 (m + 1) workspace.includeObjective.multipliers
      other.includeObjective.multipliers := by
    simp only [Workspace.includeObjective, set_eq_setIfInBounds]
    exact (agrees.multipliers.mono le_rfl (agrees.least.trans (le_max_left _ _))).set_last _
  exact { agrees with
    considered := rfl
    incoming := rfl
    order := order.mono le_rfl span.le
    multipliers := multipliers.mono le_rfl (max_le le_rfl active)
    least := Nat.le_succ m
    most := le_rfl
    room := active.trans_eq span.symm
    inside := (Nat.lt_succ_self m).trans_eq span.symm }

end Workspace

/-! ## Turns -/

/-- The stages are the same as far as they are read before they are written. -/
structure Stage.Agrees (stage other : Stage α n m) : Prop where
  workspace : Workspace.Agrees stage.workspace other.workspace
  least : other.least = stage.least
  activeRecord : other.activeRecord = stage.activeRecord
  patience : other.patience = stage.patience

/-- Two stages that have been run end in the same way, if they end. -/
def Stage.EndAlike : Option (Workspace α n m × StageEnd) → Option (Workspace α n m × StageEnd) →
    Prop :=
  Option.Rel fun result result' => Workspace.Agrees result.1 result'.1 ∧ result'.2 = result.2

/-- What follows the two turns is the same. -/
inductive Turn.Agrees : Turn α n m → Turn α n m → Prop
  /-- Both stages go on. -/
  | another {stage other : Stage α n m} (agrees : Stage.Agrees stage other) :
      Turn.Agrees (.another stage) (.another other)
  /-- Both stages end, in the same way. -/
  | done {workspace other : Workspace α n m} (agrees : Workspace.Agrees workspace other)
      (how : StageEnd) : Turn.Agrees (.done workspace how) (.done other how)

/-- The workspace at the end of a walk, with the violation there if that is to be lowered. -/
def Workspace.walked (model : LinearModel α n m) (workspace : Workspace α n m) (length : α) :
    Workspace α n m :=
  if (workspace.walk length).secondStage then workspace.walk length
  else { workspace.walk length with
    violation := (workspace.walk length).trialViolation model }

/-- The workspace at the end of a walk, with its multipliers and residuals. -/
def Workspace.judged (model : LinearModel α n m) (workspace : Workspace α n m) (length : α) :
    Workspace α n m :=
  (workspace.walked model length).withCandidates model

theorem Workspace.Agrees.judged {workspace other : Workspace α n m}
    (agrees : Workspace.Agrees workspace other) (length : α) :
    Workspace.Judged (workspace.judged model length) (other.judged model length) := by
  have walk := agrees.walk length
  refine Workspace.Walked.withCandidates ?_
  rw [Workspace.walked, Workspace.walked, walk.secondStage, walk.trialViolation]
  split
  case isTrue => exact walk
  case isFalse => exact { walk with violation := rfl }

namespace Stage

theorem walkTurn_judged (model : LinearModel α n m) (stage : Stage α n m)
    (workspace : Workspace α n m) (length full : α) :
    stage.walkTurn model workspace length full =
      match (workspace.judged model length).blocking.2 with
      | some position =>
        .another { stage with
          workspace := { (workspace.judged model length).advance
            (workspace.judged model length).blocking.1 workspace.violation with
              incoming := position } }
      | none =>
        .done ((workspace.judged model length).advance
          (workspace.judged model length).blocking.1 workspace.violation)
          (if length == full then .boundary else .inside) :=
  rfl

namespace Agrees

variable {stage other : Stage α n m}

theorem watch (agrees : Agrees stage other) :
    Agrees (stage.watch model) (other.watch model) := by
  obtain ⟨workspace, least, activeRecord, patience⟩ := agrees
  have target : other.target model = stage.target model := by
    simp only [Stage.target, workspace.secondStage, workspace.step, workspace.violation]
  simp only [Stage.watch, target, least, activeRecord, patience, workspace.active]
  split
  case isTrue => exact ⟨workspace, rfl, rfl, rfl⟩
  case isFalse =>
    split
    case isTrue => exact ⟨workspace, rfl, rfl, rfl⟩
    case isFalse => exact ⟨workspace, rfl, rfl, rfl⟩

theorem walkTurn (agrees : Agrees stage other) {workspace workspace' : Workspace α n m}
    (same : Workspace.Agrees workspace workspace') (length full : α) :
    Turn.Agrees (stage.walkTurn model workspace length full)
      (other.walkTurn model workspace' length full) := by
  have judged : Workspace.Judged (workspace.judged model length) (workspace'.judged model length) :=
    same.judged length
  rw [walkTurn_judged, walkTurn_judged, judged.blocking, same.violation]
  have advanced := judged.advance (workspace.judged model length).blocking.1 workspace.violation
  cases blocked : (workspace.judged model length).blocking.2 with
  | none => exact .done advanced _
  | some position =>
    have place := ((workspace.judged model length).blocking_lt blocked).trans_le (le_max_left _ 1)
    exact .another { agrees with
      workspace := { advanced with incoming := rfl, inside := place } }

/-- **A turn goes the same way in both workspaces.** -/
theorem turn (agrees : Agrees stage other) :
    Turn.Agrees (stage.turn model radius) (other.turn model radius) := by
  have watched : Agrees (stage.watch model) (other.watch model) := agrees.watch
  rw [Stage.turn, Stage.turn]
  generalize stage.watch model = first at watched ⊢
  generalize other.watch model = second at watched ⊢
  simp only [watched.patience]
  split
  case isTrue => exact .done watched.workspace _
  case isFalse =>
    have revised : Workspace.Agrees (first.workspace.revise model).1
        (second.workspace.revise model).1 ∧
        (second.workspace.revise model).2 = (first.workspace.revise model).2 :=
      watched.workspace.revise model
    generalize first.workspace.revise model = result at revised ⊢
    generalize second.workspace.revise model = result' at revised ⊢
    obtain ⟨here, done⟩ := result
    obtain ⟨there, done'⟩ := result'
    obtain ⟨same, rfl⟩ : Workspace.Agrees here there ∧ done' = done := revised
    cases done' with
    | false => exact .done same _
    | true =>
      simp only [same.room_eq, same.fullLength, same.negligibleViolation, same.secondStage,
        same.violation]
      split
      case isTrue => exact .done same _
      case isFalse =>
        split
        case isTrue => exact watched.walkTurn same _ _
        case isFalse =>
          split
          case isTrue => exact .done same _
          case isFalse => exact watched.walkTurn same _ _

/-- The stages end in the same way, if they end. -/
theorem run (agrees : Agrees stage other) (fuel : Nat) :
    EndAlike (stage.run model radius fuel) (other.run model radius fuel) := by
  induction fuel generalizing stage other with
  | zero => exact .none
  | succ fuel ih =>
    have turned : Turn.Agrees (stage.turn model radius) (other.turn model radius) := agrees.turn
    rw [Stage.run, Stage.run]
    generalize stage.turn model radius = first at turned ⊢
    generalize other.turn model radius = second at turned ⊢
    cases turned with
    | another agrees => exact ih agrees
    | done agrees how => exact .some ⟨agrees, rfl⟩

end Agrees

/-- Two stages that begin in workspaces that agree have no end, or the same end in workspaces that
agree. -/
theorem run_first {workspace other : Workspace α n m} (agrees : Workspace.Agrees workspace other)
    (fuel : Nat) :
    ((Stage.first workspace).run model radius fuel = none ∧
        (Stage.first other).run model radius fuel = none) ∨
      ∃ here there how, (Stage.first workspace).run model radius fuel = some (here, how) ∧
        (Stage.first other).run model radius fuel = some (there, how) ∧
        Workspace.Agrees here there := by
  have begun : Agrees (Stage.first workspace) (Stage.first other) := ⟨agrees, rfl, rfl, rfl⟩
  have ran : EndAlike ((Stage.first workspace).run model radius fuel)
      ((Stage.first other).run model radius fuel) := begun.run fuel
  generalize (Stage.first workspace).run model radius fuel = first at ran ⊢
  generalize (Stage.first other).run model radius fuel = second at ran ⊢
  cases ran with
  | none => exact .inl ⟨rfl, rfl⟩
  | @some result result' same =>
    obtain ⟨here, how⟩ := result
    obtain ⟨there, how'⟩ := result'
    obtain ⟨agrees, rfl⟩ : Workspace.Agrees here there ∧ how' = how := same
    exact .inr ⟨here, there, how', rfl, rfl, agrees⟩

end Stage

/-! ## The step -/

namespace Workspace

variable {workspace other : Workspace α n m}

/-- The step that has been found and how the search for it has ended. -/
def outcome (result : Workspace α n m × StepEnd) : Vector α n × StepEnd :=
  (result.1.step, result.2)

theorem Agrees.runSecondStage (agrees : Agrees workspace other) (fuel rounds : Nat) :
    (other.runSecondStage model radius fuel rounds).map outcome =
      (workspace.runSecondStage model radius fuel rounds).map outcome := by
  induction rounds generalizing workspace other with
  | zero => rfl
  | succ rounds ih =>
    rw [Workspace.runSecondStage, Workspace.runSecondStage]
    rcases Stage.run_first agrees.includeObjective fuel with
      ⟨found, found'⟩ | ⟨here, there, how, found, found', agrees⟩
    · rw [found, found']
    · rw [found, found']
      cases how with
      | boundary => simp only [Option.map_some, outcome, agrees.step]
      | inside => exact ih agrees
      | stalled => simp only [Option.map_some, outcome, agrees.step, agrees.active]

/-- **The step of a model does not depend on the workspace in which it is found**, nor does the
way in which the search for it ends. -/
theorem solve_reused (model : LinearModel α n m) (radius : α) (fuel : Nat)
    (workspace other : Workspace α n m) :
    (other.solve model radius fuel).map outcome =
      (workspace.solve model radius fuel).map outcome := by
  have agrees : Agrees (workspace.begin model) (other.begin model) := workspace.begin_agrees other
  simp only [solve, agrees.violation]
  split
  case isTrue => exact agrees.runSecondStage fuel fuel
  case isFalse =>
    rcases Stage.run_first agrees fuel with
      ⟨found, found'⟩ | ⟨here, there, how, found, found', agrees⟩
    · rw [found, found']
    · rw [found, found']
      cases how with
      | boundary => simp only [Option.map_some, outcome, agrees.step]
      | inside => exact agrees.runSecondStage fuel fuel
      | stalled => exact agrees.runSecondStage fuel fuel

/-! ## A history of steps -/

/-- What is asked of a workspace: the step of a model, and what the workspace is given to write it
over. -/
structure Errand (α : Type) (n m : Nat) where
  /-- The model whose step is to be found. -/
  model : LinearModel α n m
  /-- The radius of the trust region. -/
  radius : α
  /-- What the step holds before. -/
  contents : Vector α n

/-- Finds the steps of several models, one after another, in the same workspace. -/
def solveAll (fuel : Nat) : List (Errand α n m) → Workspace α n m →
    Option (List (Vector α n × StepEnd))
  | [], _ => some []
  | errand :: errands, workspace =>
    match solve errand.model errand.radius fuel { workspace with step := errand.contents } with
    | none => none
    | some result => (solveAll fuel errands result.1).map fun steps => outcome result :: steps

/-- **All steps are found as in a workspace that has not been used**, whatever has been found in
the workspace before and whatever the steps are written over. -/
theorem solveAll_eq_mapM (fuel : Nat) (errands : List (Errand α n m))
    (workspace : Workspace α n m) :
    workspace.solveAll fuel errands = errands.mapM fun errand =>
      ((fresh n m).solve errand.model errand.radius fuel).map outcome := by
  induction errands generalizing workspace with
  | nil => rfl
  | cons errand errands ih =>
    have same := solve_reused errand.model errand.radius fuel (fresh n m)
      { workspace with step := errand.contents }
    rw [solveAll, List.mapM_cons, ← same]
    cases solve errand.model errand.radius fuel { workspace with step := errand.contents } with
    | none => rfl
    | some result =>
      simp only [ih, Option.map_some]
      exact Option.map_eq_bind

end Workspace

end DerivativeFree
