import DerivativeFree.Proofs.TrustRegion.Reuse
import DerivativeFree.Proofs.TrustRegion.Walk

/-!
# The stages that a step goes through

The search for a step is a chain of stages between two turns.  It begins with one of the two
stages (`opening`), and each stage leads to the one after its turn or, at its end, to the start of
the second stage (`Stage.Leads`).  What comes up on the way is what the step `Reaches`.

The numbers decide which constraints become active, but not how the workspace keeps account of
them.  In any arithmetic in which zero is found equal to itself the positions that a workspace
refers to stay `InBounds`, in every turn (`Stage.inBounds_turn`) and in every stage that comes up
(`Reaches.inBounds`).  A constraint enters beside the active ones only along a column that is still
free, so that there are never more of them than variables.
-/

namespace DerivativeFree

set_option autoImplicit false

variable {α : Type} [Scalar α] {n m : Nat} {model : LinearModel α n m} {radius : α}

/-! ## From stage to stage -/

/-- Another turn follows, or the second stage, after the first one or once more. -/
inductive Stage.Leads (model : LinearModel α n m) (radius : α) : Stage α n m → Stage α n m → Prop
  /-- The stage goes on. -/
  | turn {stage next : Stage α n m} (turned : stage.turn model radius = .another next) :
      Leads model radius stage next
  /-- The second stage follows, or is run again. -/
  | second {stage : Stage α n m} {ended : Workspace α n m} {how : StageEnd}
      (turned : stage.turn model radius = .done ended how)
      (further : how = .inside ∨ how = .stalled ∧ stage.workspace.secondStage = false) :
      Leads model radius stage (.first ended.includeObjective)

namespace Workspace

variable {workspace : Workspace α n m} {stage : Stage α n m}

/-- The stage with which the search for a step begins: the second one, if no constraint is
violated in the pole. -/
def opening (model : LinearModel α n m) (workspace : Workspace α n m) : Stage α n m :=
  if (workspace.begin model).violation == 0 then .first (workspace.begin model).includeObjective
  else .first (workspace.begin model)

theorem opening_eq_first (model : LinearModel α n m) (workspace : Workspace α n m) :
    ∃ begun, workspace.opening model = .first begun := by
  unfold opening
  split
  · exact ⟨_, rfl⟩
  · exact ⟨_, rfl⟩

theorem secondStage_includeObjective (workspace : Workspace α n m) :
    workspace.includeObjective.secondStage = true := by
  simp [secondStage, includeObjective]

/-- The stage comes up between two turns while a step is found. -/
def Reaches (model : LinearModel α n m) (radius : α) (workspace : Workspace α n m) :
    Stage α n m → Prop :=
  Relation.ReflTransGen (Stage.Leads model radius) (workspace.opening model)

/-! ## Positions -/

/-- The incoming constraint is considered, and so are the active ones, which are not more than
there are variables. -/
structure InBounds (workspace : Workspace α n m) : Prop where
  incoming : workspace.incoming < workspace.considered
  considered : workspace.considered ≤ m + 1
  few : workspace.active ≤ n
  room : workspace.active ≤ workspace.considered

omit [Scalar α] in
theorem InBounds.active_le (inBounds : workspace.InBounds) : workspace.active ≤ m + 1 :=
  inBounds.room.trans inBounds.considered

omit [Scalar α] in
theorem InBounds.incoming_lt (inBounds : workspace.InBounds) : workspace.incoming < m + 1 :=
  inBounds.incoming.trans_le inBounds.considered

/-- An exchange in the active set moves its members and rotates what belongs to them. -/
theorem exchanges_frame (model : LinearModel α n m) (workspace : Workspace α n m)
    (positions : List Nat) : ∃ basis pivots order multipliers,
      positions.foldl (exchange model) workspace =
        { workspace with basis, pivots, order, multipliers } := by
  induction positions generalizing workspace with
  | nil => exact ⟨_, _, _, _, rfl⟩
  | cons k positions ih => exact ih (exchange model workspace k)

theorem settleEntry_frame (model : LinearModel α n m) (workspace : Workspace α n m) :
    ∃ basis pivots order multipliers direction, workspace.settleEntry model =
      { workspace with basis, pivots, order, multipliers, direction } := by
  rw [settleEntry_eq]
  split
  · split
    · exact ⟨_, _, _, _, _, rfl⟩
    · exact ⟨_, _, _, _, _, rfl⟩
  · exact ⟨_, _, _, _, _, rfl⟩

/-- The objective enters a workspace with any active constraints. -/
theorem inBounds_includeObjective (few : workspace.active ≤ n) (room : workspace.active ≤ m + 1) :
    workspace.includeObjective.InBounds where
  incoming := Nat.lt_succ_self m
  considered := le_rfl
  few := few
  room := room

/-- A violated constraint is among the constraints. -/
theorem worst_lt_of_violated (zero : ((0 : α) == 0) = true)
    (violated : ((workspace.begin model).violation == 0) = false) : (worstBound model).2 < m := by
  have worst := foldl_invariant (fun (worst : α × Nat) (k : Fin m) =>
    if worst.1 < model.bounds.get k.castSucc then (model.bounds.get k.castSucc, k.val) else worst)
    (0, 0) (fun _ worst => (worst.1 == 0) = true ∨ worst.2 < m) (.inl zero) ?_
  · exact worst.resolve_left (Bool.eq_false_iff.mp violated)
  · intro k worst before
    split
    · exact .inr k.isLt
    · exact before

theorem inBounds_opening (zero : ((0 : α) == 0) = true) (model : LinearModel α n m)
    (workspace : Workspace α n m) : (workspace.opening model).workspace.InBounds := by
  unfold opening
  split
  case isTrue => exact inBounds_includeObjective (Nat.zero_le n) (Nat.zero_le (m + 1))
  case isFalse violated =>
    exact ⟨worst_lt_of_violated zero (Bool.eq_false_iff.mpr violated), Nat.le_succ m,
      Nat.zero_le n, Nat.zero_le m⟩

namespace InBounds

theorem deactivate (inBounds : workspace.InBounds) (model : LinearModel α n m) :
    (workspace.deactivate model).1.InBounds := by
  obtain ⟨incoming, considered, few, room⟩ := inBounds
  obtain ⟨basis, pivots, order, multipliers, moved⟩ := exchanges_frame model workspace
    (List.range' workspace.incoming (workspace.active - 1 - workspace.incoming))
  have released : (workspace.released model).InBounds := by
    simp only [Workspace.released, moved]
    exact ⟨incoming, considered, (Nat.sub_le _ 1).trans few, (Nat.sub_le _ 1).trans room⟩
  obtain ⟨incoming, considered, few, room⟩ := released
  rw [deactivate_eq]
  split
  · split
    · exact ⟨incoming, considered, few, room⟩
    · exact ⟨incoming, considered, few, room⟩
  · exact ⟨incoming, considered, few, room⟩

theorem settleEntry (inBounds : workspace.InBounds) (model : LinearModel α n m) :
    (workspace.settleEntry model).InBounds := by
  obtain ⟨basis, pivots, order, multipliers, direction, settled⟩ :=
    settleEntry_frame model workspace
  rw [settled]
  exact ⟨inBounds.incoming, inBounds.considered, inBounds.few, inBounds.room⟩

/-- There is a free column for a constraint that enters beside the active ones. -/
theorem free_of_component (zero : ((0 : α) == 0) = true) {gradient : Vector α n}
    (independent : ¬ ((workspace.alignBasis gradient).2 == 0) = true) : workspace.active < n := by
  by_contra full
  rw [alignBasis_of_full (Nat.le_of_not_lt full)] at independent
  exact independent zero

theorem aligned (inBounds : workspace.InBounds) (model : LinearModel α n m) :
    (workspace.aligned model).InBounds :=
  ⟨inBounds.incoming, inBounds.considered, inBounds.few, inBounds.room⟩

/-- A dependent constraint takes the place of an active one, and there are as many as before. -/
theorem enterDependent (inBounds : workspace.InBounds) {gradient : Vector α n}
    {dependent : Workspace α n m} {done : Bool}
    (entered : workspace.enterDependent model gradient = (dependent, done)) :
    dependent.InBounds := by
  obtain ⟨pivots, multipliers, candidates, trial, rfl⟩ := enterDependent_frame entered
  exact ⟨inBounds.incoming, inBounds.considered, inBounds.few, inBounds.room⟩

theorem enterIndependent (inBounds : workspace.InBounds) (free : workspace.active < n)
    (inactive : workspace.active ≤ workspace.incoming) (component : α) :
    (workspace.enterIndependent component).InBounds :=
  ⟨inBounds.incoming, inBounds.considered, free, inactive.trans_lt inBounds.incoming⟩

theorem activate (zero : ((0 : α) == 0) = true) (inBounds : workspace.InBounds)
    (inactive : workspace.active ≤ workspace.incoming) (model : LinearModel α n m) :
    (workspace.activate model).1.InBounds := by
  have aligned := inBounds.aligned model
  rw [activate_eq]
  split
  case isTrue =>
    split
    case h_1 dependent entered => exact (aligned.enterDependent entered).settleEntry model
    case h_2 stuck entered => exact aligned.enterDependent entered
  case isFalse independent =>
    have free := free_of_component zero independent
    exact (aligned.enterIndependent free inactive _).settleEntry model

/-- **A revision of the active set keeps the positions in bounds.** -/
theorem revise (zero : ((0 : α) == 0) = true) (inBounds : workspace.InBounds)
    (model : LinearModel α n m) : (workspace.revise model).1.InBounds := by
  unfold Workspace.revise
  split
  case isTrue => exact inBounds.deactivate model
  case isFalse inactive => exact inBounds.activate zero (Nat.le_of_not_lt inactive) model

end InBounds

end Workspace

/-! ## Turns -/

theorem Workspace.walked_frame (model : LinearModel α n m) (workspace : Workspace α n m)
    (length : α) : ∃ trial violation, workspace.walked model length =
      { workspace with trial, violation } := by
  unfold walked
  split
  · exact ⟨_, _, rfl⟩
  · exact ⟨_, _, rfl⟩

/-- A walk reads the multipliers and changes neither them nor the active set. -/
theorem Workspace.judged_frame (model : LinearModel α n m) (workspace : Workspace α n m)
    (length : α) : ∃ candidates trial violation, workspace.judged model length =
      { workspace with candidates, trial, violation } := by
  obtain ⟨trial, violation, walked⟩ := workspace.walked_frame model length
  exact ⟨_, trial, violation, congrArg (withCandidates model) walked⟩

namespace Stage

variable {stage : Stage α n m}

theorem inBounds_walkTurn {revised : Workspace α n m} (inBounds : revised.InBounds)
    (stage : Stage α n m) (length full : α) :
    (stage.walkTurn model revised length full).workspace.InBounds := by
  obtain ⟨incoming, considered, few, room⟩ := inBounds
  obtain ⟨candidates, trial, violation, judged⟩ := revised.judged_frame model length
  rw [walkTurn_judged, judged]
  split
  case h_1 position blocked =>
    have inside := Workspace.blocking_lt blocked
    exact ⟨inside, considered, few, room⟩
  case h_2 => exact ⟨incoming, considered, few, room⟩

/-- **A turn keeps the positions in bounds.** -/
theorem inBounds_turn (zero : ((0 : α) == 0) = true) (model : LinearModel α n m) (radius : α)
    (inBounds : stage.workspace.InBounds) : (stage.turn model radius).workspace.InBounds := by
  have revision := inBounds.revise zero model
  simp only [turn, workspace_watch]
  split
  case isTrue => exact (workspace_watch model stage).symm ▸ inBounds
  case isFalse =>
    split
    case h_1 stuck known =>
      rw [known] at revision
      exact revision
    case h_2 revised known =>
      rw [known] at revision
      split
      case isTrue => exact revision
      case isFalse =>
        split
        case isTrue => exact inBounds_walkTurn revision _ _ _
        case isFalse =>
          split
          case isTrue => exact revision
          case isFalse => exact inBounds_walkTurn revision _ _ _

theorem inBounds_run (zero : ((0 : α) == 0) = true) (inBounds : stage.workspace.InBounds)
    {fuel : Nat} {ended : Workspace α n m} {how : StageEnd}
    (ran : stage.run model radius fuel = some (ended, how)) : ended.InBounds := by
  induction fuel generalizing stage with
  | zero => cases ran
  | succ fuel ih =>
    have turned := inBounds_turn zero model radius inBounds
    simp only [run] at ran
    split at ran
    case h_1 next another =>
      rw [another] at turned
      exact ih turned ran
    case h_2 done =>
      cases ran
      rw [done] at turned
      exact turned

theorem Leads.inBounds (zero : ((0 : α) == 0) = true) {next : Stage α n m}
    (leads : Leads model radius stage next) (inBounds : stage.workspace.InBounds) :
    next.workspace.InBounds := by
  have turned := inBounds_turn zero model radius inBounds
  cases leads with
  | turn another =>
    rw [another] at turned
    exact turned
  | second done further =>
    rw [done] at turned
    exact Workspace.inBounds_includeObjective turned.few turned.active_le

end Stage

/-- **In every stage that comes up the positions are in bounds.** -/
theorem Workspace.Reaches.inBounds (zero : ((0 : α) == 0) = true) {workspace : Workspace α n m}
    {stage : Stage α n m} (reached : workspace.Reaches model radius stage) :
    stage.workspace.InBounds := by
  induction reached with
  | refl => exact inBounds_opening zero model workspace
  | tail _ leads ih => exact leads.inBounds zero ih

/-- A stage ends in a turn of its own. -/
theorem Workspace.Reaches.run {workspace : Workspace α n m} {stage : Stage α n m}
    (reached : workspace.Reaches model radius stage) {fuel : Nat} {ended : Workspace α n m}
    {how : StageEnd} (ran : stage.run model radius fuel = some (ended, how)) :
    ∃ last, workspace.Reaches model radius last ∧
      last.workspace.secondStage = stage.workspace.secondStage ∧
      last.turn model radius = .done ended how := by
  induction fuel generalizing stage with
  | zero => cases ran
  | succ fuel ih =>
    simp only [Stage.run] at ran
    split at ran
    case h_1 next turned =>
      obtain ⟨last, further, second, done⟩ := ih (reached.tail (.turn turned)) ran
      exact ⟨last, further, second.trans (Stage.secondStage_turn turned), done⟩
    case h_2 turned =>
      cases ran
      exact ⟨stage, reached, rfl, turned⟩

end DerivativeFree
