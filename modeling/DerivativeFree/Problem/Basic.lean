import DerivativeFree.Problem.Box

/-!
# Problems

A problem is to minimize an objective over the points of a box at which every
constraint is nonnegative.  An optimizer knows the objective and the constraints only
through an `Oracle`, which is asked for their values at one point at a time.  It may
refuse to answer, with an `EvalError`.

An oracle answers in a monad, so that a caller can count, record or steer the
evaluations; a function without effects is an oracle in the identity monad.
-/

namespace DerivativeFree

set_option autoImplicit false

/-- Why the values at a point are not known. -/
inductive EvalError where
  /-- The point or the constraints are not of the size that the problem expects. -/
  | wrongDimension
  /-- The objective or a constraint has no proper value. -/
  | invalidValue
  /-- The caller wants the search to stop. -/
  | halt
  /-- A reason of the problem's own. -/
  | custom (text : String)
  deriving Repr, DecidableEq

/-- The message of an error. -/
def EvalError.message : EvalError → String
  | .wrongDimension => "invalid dimensionality"
  | .invalidValue => "invalid value encountered"
  | .halt => "evaluation halted"
  | .custom text => text

/-- The objective and the constraints as they are asked for at a point.

The second argument is the vector into which the values of the constraints are
written; an oracle returns it as it leaves it, together with the objective. -/
abbrev Oracle (M : Type → Type) (α : Type) (n m : Nat) : Type :=
  Vector α n → Vector α m → M (Vector α m × Except EvalError α)

/-- An objective to be minimized over a box, subject to constraints `c k x ≥ 0`. -/
structure Problem (M : Type → Type) (α : Type) [Scalar α] where
  /-- The number of variables. -/
  dim : Nat
  /-- The bounds of the variables. -/
  box : Box α dim
  /-- The number of constraints besides the bounds. -/
  constraintCount : Nat
  /-- The values at a point.  A problem may be asked in any size, and is free to
  answer with an error if it is not its own. -/
  evaluate : {k c : Nat} → Oracle M α k c

namespace Problem

variable {M : Type → Type} [Monad M] {α : Type} [Scalar α]

/-- The problem with the values of the given oracle in the given box.  Asked in any
other size, it answers that the dimension is wrong. -/
def ofOracle {n m : Nat} (box : Box α n) (oracle : Oracle M α n m) : Problem M α where
  dim := n
  box := box
  constraintCount := m
  evaluate {k c} x constraints :=
    if sizes : k = n ∧ c = m then do
      let (constraints, objective) ← oracle (x.cast sizes.1) (constraints.cast sizes.2)
      return (constraints.cast sizes.2.symm, objective)
    else return (constraints, .error .wrongDimension)

/-- The problem of `n` variables without bounds and with `m` constraints, whose values
are those of a function that never fails. -/
def ofFunction (n m : Nat) (function : Vector α n → Vector α m → M (Vector α m × α)) :
    Except BoxError (Problem M α) :=
  (Box.unbounded? n).map fun box => ofOracle box fun x constraints => do
    let (constraints, objective) ← function x constraints
    return (constraints, .ok objective)

/-- The same objective and constraints in another box. -/
def within (problem : Problem M α) {n : Nat} (box : Box α n) : Problem M α :=
  { problem with dim := n, box := box }

end Problem

end DerivativeFree
