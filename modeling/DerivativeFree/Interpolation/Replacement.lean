import DerivativeFree.Interpolation.Shape

/-!
# The vertex that a new point replaces

A new point at `step` from the pole may replace a vertex of the simplex.  The product of
a row of the inverse and the step says by which factor the volume of the simplex would
change, and also by which factor the height of that vertex would.  If the new point is
better than the pole, some vertex has to go; otherwise it must make the simplex larger.

Among the vertices whose height would stay acceptable, one that lies far away is
preferred.  The distance is taken from the new point if that becomes the pole, and from
the present pole otherwise.
-/

namespace DerivativeFree

set_option autoImplicit false

variable {α : Type} [Scalar α] {n m : Nat}

namespace Simplex

/-- The factors by which the volume would change if the vertices were replaced. -/
def volumeFactors (simplex : Simplex α n m) (step : Vector α n) : Vector α n :=
  simplex.inverse.map fun row => Scalar.abs (dot row step)

/-- The heights that the vertices would have after their replacement. -/
def heightsAfter (simplex : Simplex α n m) (shape : Shape α n) (step : Vector α n) :
    Vector α n :=
  Vector.ofFn fun j => (simplex.volumeFactors step).get j * shape.heights.get j

/-- The distance between the end of a step and the end of an edge. -/
def distanceFrom (step edge : Vector α n) : α :=
  Scalar.sqrt (sumFrom 0 fun k : Fin n => (step.get k - edge.get k) * (step.get k - edge.get k))

/-- The vertex that is farthest away among those whose height may change, if it is
farther than the radius allows. -/
def farVertex (simplex : Simplex α n m) (shape : Shape α n) (step : Vector α n)
    (radius : α) (improves : Bool) : Option (Fin n) :=
  let heights := simplex.heightsAfter shape step
  let eligible (j : Fin n) : Bool :=
    decide (Shape.heightFactor * radius ≤ heights.get j) ||
      decide (shape.heights.get j ≤ heights.get j)
  let distances := if improves then simplex.edges.map (distanceFrom step) else shape.lengths
  Shape.greatestAbove (Shape.farFactor * radius) eligible distances

/-- The vertex that gains most volume, at least some if the merit has not improved. -/
def flatVertex (simplex : Simplex α n m) (step : Vector α n) (reduction : α) : Option (Fin n) :=
  Shape.greatestAbove (if reduction ≤ 0 then 1 else 0) (fun _ => true)
    (simplex.volumeFactors step)

/-- The vertex that the point at `step` from the pole replaces, given by how much the
merit is reduced there. -/
def replaced (simplex : Simplex α n m) (shape : Shape α n) (step : Vector α n)
    (radius reduction : α) : Option (Fin n) :=
  (simplex.farVertex shape step radius (0 < reduction)).or (simplex.flatVertex step reduction)

end Simplex

end DerivativeFree
