import DerivativeFree.Linear.Vector

/-!
# The Euclidean norm, summed in eight lanes

The squares of the entries are added in eight lanes, lane `l` taking the entries at the
positions `l`, `l + 8`, `l + 16`, … of the full blocks of eight.  The lanes are then
joined in pairs four apart, and the squares of the entries after the last full block
follow one by one.  The order matters only to the last bits of a machine number.
-/

namespace DerivativeFree

set_option autoImplicit false

variable {α : Type} [Scalar α] {n : Nat}

/-- The sum of the squares of the entries at `offset`, `offset + 8`, … of the full
blocks of eight. -/
def laneSquares (v : Vector α n) (offset : Nat) : α :=
  sumFrom 0 fun block : Fin (n / 8) =>
    entry v (8 * block + offset) * entry v (8 * block + offset)

/-- The sum of all squares: the lanes in pairs, then the rest. -/
def squaredNorm (v : Vector α n) : α :=
  let lanes : α := sumFrom 0 fun l : Fin 4 => laneSquares v l + laneSquares v (l + 4)
  sumFrom lanes fun r : Fin (n % 8) =>
    entry v (8 * (n / 8) + r) * entry v (8 * (n / 8) + r)

/-- The length of a vector. -/
def euclideanNorm (v : Vector α n) : α :=
  Scalar.sqrt (squaredNorm v)

end DerivativeFree
