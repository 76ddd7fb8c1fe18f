import DerivativeFree.Linear.Vector

/-!
# Samples

A sample holds what one evaluation has found: the values of the `m` constraints, the
objective and the greatest violation of a constraint.  Its merit under a penalty weighs
the last two against each other, and its `row` lists the constraints and then the
objective, which is the order in which a linear model treats them.
-/

namespace DerivativeFree

set_option autoImplicit false

/-- The values found at one point. -/
structure Sample (α : Type) (m : Nat) where
  /-- The values of the constraints, nonnegative where a constraint holds. -/
  constraints : Vector α m
  /-- The value of the objective. -/
  objective : α
  /-- The greatest violation of a constraint, or zero if all of them hold. -/
  violation : α
  deriving Repr

namespace Sample

variable {α : Type} {m : Nat}

/-! ## Rows -/

/-- The constraints and then the objective. -/
def row (sample : Sample α m) : Vector α (m + 1) :=
  sample.constraints.push sample.objective

theorem row_castSucc (sample : Sample α m) (k : Fin m) :
    sample.row.get k.castSucc = sample.constraints.get k := by
  simp [row, get_eq_getElem]

theorem row_last (sample : Sample α m) : sample.row.get (Fin.last m) = sample.objective := by
  simp [row, get_eq_getElem]

/-! ## Merit -/

variable [Scalar α]

/-- The sample of zeros. -/
def zero (m : Nat) : Sample α m where
  constraints := 0
  objective := 0
  violation := 0

/-- The greatest violation of constraints with the given values. -/
def worstViolation (constraints : Vector α m) : α :=
  largestFrom 0 fun k : Fin m => -constraints.get k

/-- The objective plus the penalty for the greatest violation. -/
def merit (sample : Sample α m) (penalty : α) : α :=
  sample.objective + penalty * sample.violation

end Sample

end DerivativeFree
