import DerivativeFree.Interpolation.LinearModel

/-!
# The state of a trust region step

The step of a linear model within a trust region is found in two stages.  The first one
looks for the shortest step that minimizes the greatest violation of the linearized
constraints; the second one uses the freedom that is left to lower the objective,
without making any violation worse.  The objective takes part in the second stage as
one more constraint, so that the stages differ only in the number of constraints that
are considered.

Both stages keep a set of active constraints.  The constraints are listed by `order`,
the active ones first, and a constraint is referred to by its position there.  The
leading columns of the orthogonal `basis` span the gradients of the active constraints
in the same order, and the pivot at a position is the inner product of the column and
the gradient there.  The multipliers of the active constraints are followed by the
residuals of the others.

A workspace is used for many steps in turn.  `begin` prepares it for the first stage
and `includeObjective` for the second one; what an earlier step has left behind is
overwritten before it is read.
-/

namespace DerivativeFree

set_option autoImplicit false

/-- The state of the search for a step in `n` variables under `m` constraints. -/
structure Workspace (α : Type) (n m : Nat) where
  /-- The columns of an orthogonal matrix. -/
  basis : Vector (Vector α n) n
  /-- The inner products of the leading columns with the gradients at their positions. -/
  pivots : Vector α (m + 1)
  /-- The multipliers of the active constraints, then the residuals of the others. -/
  multipliers : Vector α (m + 1)
  /-- What the multipliers and residuals become if the whole trial step is taken. -/
  candidates : Vector α (m + 1)
  /-- The direction of the search. -/
  direction : Vector α n
  /-- The step that is being tried. -/
  trial : Vector α n
  /-- The step so far. -/
  step : Vector α n
  /-- The constraints, the active ones first. -/
  order : Vector (Fin (m + 1)) (m + 1)
  /-- The number of active constraints. -/
  active : Nat
  /-- The number of constraints that take part in the current stage. -/
  considered : Nat
  /-- The position of the constraint that enters or leaves the active set next. -/
  incoming : Nat
  /-- The greatest violation of the active constraints, as far as it is known. -/
  violation : α

namespace Workspace

variable {α : Type} [Scalar α] {n m : Nat}

/-- A workspace that has not been used. -/
def fresh (n m : Nat) : Workspace α n m where
  basis := 0
  pivots := 0
  multipliers := 0
  candidates := 0
  direction := 0
  trial := 0
  step := 0
  order := Vector.replicate (m + 1) 0
  active := 0
  considered := m
  incoming := 0
  violation := 0

/-! ## Reading by position -/

/-- The constraint at a position, the objective standing for one beyond the last. -/
def constraintAt (workspace : Workspace α n m) (position : Nat) : Fin (m + 1) :=
  workspace.order[position]?.getD (Fin.last m)

/-- The gradient of the constraint at a position. -/
def gradientAt (workspace : Workspace α n m) (model : LinearModel α n m) (position : Nat) :
    Vector α n :=
  model.gradients.get (workspace.constraintAt position)

/-- The column of the basis at a position. -/
def basisAt (workspace : Workspace α n m) (position : Nat) : Vector α n :=
  workspace.basis[position]?.getD 0

/-- Whether the objective is considered besides the constraints. -/
def secondStage (workspace : Workspace α n m) : Bool :=
  m < workspace.considered

/-! ## Preparation -/

/-- The greatest positive bound of a constraint and the constraint that has it first, or
zero and the first constraint if none is positive. -/
def worstBound (model : LinearModel α n m) : α × Nat :=
  Fin.foldl m (fun (worst : α × Nat) k =>
    if worst.1 < model.bounds.get k.castSucc then (model.bounds.get k.castSucc, k.val) else worst)
    (0, 0)

/-- The workspace at the start of the first stage, with no active constraint and the
most violated one to enter. -/
def begin (workspace : Workspace α n m) (model : LinearModel α n m) : Workspace α n m :=
  { workspace with
    basis := diagonal n 1
    direction := 0
    step := 0
    active := 0
    considered := m
    incoming := (worstBound model).2
    violation := (worstBound model).1
    order := Vector.ofFn fun k => if k.val < m then k else workspace.order.get k
    multipliers := Vector.ofFn fun k =>
      if k.val < m then (worstBound model).1 - model.bounds.get k else workspace.multipliers.get k }

/-- The workspace at the start of the second stage, with the objective to enter. -/
def includeObjective (workspace : Workspace α n m) : Workspace α n m :=
  { workspace with
    considered := m + 1
    incoming := m
    order := workspace.order.set m (Fin.last m) (Nat.lt_add_one m)
    multipliers := workspace.multipliers.set m 0 (Nat.lt_add_one m) }

end Workspace

end DerivativeFree
