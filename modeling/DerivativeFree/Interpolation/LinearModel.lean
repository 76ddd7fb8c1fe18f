import DerivativeFree.Interpolation.Simplex

/-!
# Linear models

A simplex with samples at its vertices determines one linear function for each row of
values: the one that agrees with the samples at all vertices.  A linear model holds the
gradients of these functions and the negated values in the pole, which is the form in
which a step has to satisfy `gradient k · step ≥ bound k` for the constraints to hold
after it.  The objective is to be lowered, and so its gradient is stored negated.
-/

namespace DerivativeFree

set_option autoImplicit false

/-- Linear approximations of `m` constraints and of the objective, which comes last. -/
structure LinearModel (α : Type) (n m : Nat) where
  /-- The gradients of the constraints, and the negated gradient of the objective. -/
  gradients : Vector (Vector α n) (m + 1)
  /-- The negated values in the pole. -/
  bounds : Vector α (m + 1)

namespace LinearModel

variable {α : Type} [Scalar α] {n m : Nat}

/-- The model of constant zeros. -/
def zero (n m : Nat) : LinearModel α n m where
  gradients := 0
  bounds := 0

/-- The gradient of the linear function that takes the values of row `k` at the
vertices. -/
def gradientOf (simplex : Simplex α n m) (k : Fin (m + 1)) : Vector α n :=
  let differences := simplex.samples.map fun sample =>
    sample.row.get k + -simplex.poleSample.row.get k
  Vector.ofFn fun i => dot differences (column simplex.inverse i)

/-- The model that interpolates the samples of a simplex. -/
def interpolate (simplex : Simplex α n m) : LinearModel α n m where
  gradients := Vector.ofFn fun k =>
    if k = Fin.last m then -gradientOf simplex k else gradientOf simplex k
  bounds := -simplex.poleSample.row

/-- The change of constraint `k`, or the decrease of the objective, along a step. -/
def slope (model : LinearModel α n m) (k : Fin (m + 1)) (step : Vector α n) : α :=
  dot step (model.gradients.get k)

/-- The greatest violation of a constraint that the model predicts after a step. -/
def predictedViolation (model : LinearModel α n m) (step : Vector α n) : α :=
  largestFrom 0 fun k : Fin m => model.bounds.get k.castSucc - model.slope k.castSucc step

/-- The increase of the objective that the model predicts for a step. -/
def predictedIncrease (model : LinearModel α n m) (step : Vector α n) : α :=
  0 - model.slope (Fin.last m) step

end LinearModel

end DerivativeFree
