import DerivativeFree.TrustRegion.Turn

/-!
# The trust region step

The first stage is skipped if no linearized constraint is violated in the pole.  The
second stage follows unless the first one has reached the boundary of the trust region.
A step that ends on the boundary is complete; a shorter one is a sign of a degeneracy.

How many turns a stage makes depends on the numbers, and a second stage that ends inside
the trust region is run again.  The turns of a stage and the runs of the second one are
therefore counted: `solve` takes how many of each it may make, and has no result only if
one of the two needs more.  `ampleFuel` exceeds the turns that any stage can need in a
machine format, because a stage goes on for long only while its target takes ever
smaller values, and there are at most `UInt64.size` of them.
-/

namespace DerivativeFree

set_option autoImplicit false

variable {α : Type} [Scalar α] {n m : Nat}

/-- A number of turns that is enough for every stage in a machine format. -/
def ampleFuel (n : Nat) : Nat :=
  3 * (n + 2) * UInt64.size

/-- How the search for a step ends. -/
inductive StepEnd where
  /-- The step has reached the boundary of the trust region. -/
  | boundary
  /-- The second stage is stalled, with the given number of active constraints. -/
  | stalled (active : Nat)
  deriving Repr, DecidableEq

/-- Makes turns until the stage ends. -/
def Stage.run (model : LinearModel α n m) (radius : α) :
    Nat → Stage α n m → Option (Workspace α n m × StageEnd)
  | 0, _ => none
  | fuel + 1, stage =>
    match stage.turn model radius with
    | .another stage => stage.run model radius fuel
    | .done workspace how => some (workspace, how)

namespace Workspace

/-- Runs the second stage, and runs it again where it ends inside the trust region. -/
def runSecondStage (model : LinearModel α n m) (radius : α) (fuel : Nat) :
    Nat → Workspace α n m → Option (Workspace α n m × StepEnd)
  | 0, _ => none
  | rounds + 1, workspace =>
    match (Stage.first workspace.includeObjective).run model radius fuel with
    | none => none
    | some (ended, .boundary) => some (ended, .boundary)
    | some (ended, .inside) => ended.runSecondStage model radius fuel rounds
    | some (ended, .stalled) => some (ended, .stalled ended.active)

/-- Finds the step of a model within the trust region of the given radius; it is the
`step` of the resulting workspace. -/
def solve (model : LinearModel α n m) (radius : α) (fuel : Nat) (workspace : Workspace α n m) :
    Option (Workspace α n m × StepEnd) :=
  let started := workspace.begin model
  if started.violation == 0 then started.runSecondStage model radius fuel fuel
  else
    match (Stage.first started).run model radius fuel with
    | none => none
    | some (ended, .boundary) => some (ended, .boundary)
    | some (ended, _) => ended.runSecondStage model radius fuel fuel

end Workspace

end DerivativeFree
