import DerivativeFree.Interpolation.Simplex

/-!
# The shape of a simplex

Two lengths per edge tell whether the vertices are well placed for interpolation: the
length of the edge itself, and the height of its end, which is the distance of that
vertex from the face through all the others.  The height is the reciprocal of the length
of the row of the inverse that belongs to the edge.

A shape is acceptable if no height is below a floor and no length above a cap.
`worst` names the vertex to be moved when it is not.  The thresholds are the radius of
the trust region times a constant of this module.
-/

namespace DerivativeFree

set_option autoImplicit false

/-- The heights and lengths of the edges of a simplex at one moment. -/
structure Shape (α : Type) (n : Nat) where
  /-- The distances of the ends of the edges from the opposite faces. -/
  heights : Vector α n
  /-- The lengths of the edges. -/
  lengths : Vector α n
  deriving Repr

namespace Shape

variable {α : Type} [Scalar α] {n : Nat}

/-! ## Constants -/

/-- The least acceptable height, in radii. -/
def heightFactor : α := 0.25

/-- The greatest acceptable length of an edge, in radii. -/
def lengthFactor : α := 2.1

/-- The height of a vertex that has been moved to improve the shape, in radii. -/
def renewalFactor : α := 0.5

/-- The distance beyond which a vertex counts as far from a new point, in radii. -/
def farFactor : α := 1.1

/-! ## Measuring -/

/-- The shape before anything has been measured. -/
def unmeasured (n : Nat) : Shape α n where
  heights := 0
  lengths := 0

/-- The shape of a simplex. -/
def of {m : Nat} (simplex : Simplex α n m) : Shape α n where
  heights := simplex.inverse.map fun row => 1 / Scalar.sqrt (dot row row)
  lengths := simplex.edges.map fun edge => Scalar.sqrt (dot edge edge)

/-- Whether no height is below the floor and no length above the cap. -/
def acceptable (shape : Shape α n) (floor cap : α) : Bool :=
  !(List.finRange n).any fun j =>
    decide (shape.heights.get j < floor) || decide (cap < shape.lengths.get j)

/-! ## The vertex to be moved -/

/-- The first index of the greatest number among those above a threshold at the eligible
indices. -/
def greatestAbove (threshold : α) (eligible : Fin n → Bool) (values : Vector α n) :
    Option (Fin n) :=
  (Fin.foldl n (fun (found : Option (Fin n) × α) j =>
    if eligible j ∧ found.2 < values.get j then (some j, values.get j) else found)
    (none, threshold)).1

/-- The first index of the least number among those below a threshold. -/
def leastBelow (threshold : α) (values : Vector α n) : Option (Fin n) :=
  (Fin.foldl n (fun (found : Option (Fin n) × α) j =>
    if values.get j < found.2 then (some j, values.get j) else found) (none, threshold)).1

/-- The vertex that spoils the shape most: the end of the longest edge above the cap,
or else the vertex of the least height. -/
def worst (shape : Shape α n) (cap : α) : Option (Fin n) :=
  (greatestAbove cap (fun _ => true) shape.lengths).or (leastBelow cap shape.heights)

end Shape

end DerivativeFree
