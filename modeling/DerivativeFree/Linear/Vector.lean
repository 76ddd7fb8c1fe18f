import DerivativeFree.Scalar

/-!
# Sums and inner products in a fixed order

A vector is a `Vector α n` with its own addition, subtraction and scaling; a matrix is
a vector of its rows or of its columns, as the place that uses it says.

Machine addition is not associative, so a sum is always taken from left to right.
`sumFrom` fixes this order once and for all, and the inner product `dot` follows it.
Their equations are `sumFrom_zero` and `sumFrom_succ`; `largestFrom` takes a maximum in
the same order and has the same two equations.
-/

namespace DerivativeFree

set_option autoImplicit false

variable {α : Type} [Scalar α] {n m : Nat}

/-! ## Sums and maxima -/

/-- The sum `start + term 0 + term 1 + …`, taken from left to right. -/
def sumFrom (start : α) (term : Fin n → α) : α :=
  Fin.foldl n (fun total i => total + term i) start

/-- The greatest of `start` and all the terms, taken from left to right. -/
def largestFrom (start : α) (term : Fin n → α) : α :=
  Fin.foldl n (fun greatest i => larger greatest (term i)) start

theorem sumFrom_zero (start : α) (term : Fin 0 → α) : sumFrom start term = start :=
  Fin.foldl_zero ..

theorem sumFrom_succ (start : α) (term : Fin (n + 1) → α) :
    sumFrom start term = sumFrom start (fun i => term i.castSucc) + term (Fin.last n) :=
  Fin.foldl_succ_last ..

theorem largestFrom_zero (start : α) (term : Fin 0 → α) : largestFrom start term = start :=
  Fin.foldl_zero ..

theorem largestFrom_succ (start : α) (term : Fin (n + 1) → α) :
    largestFrom start term =
      larger (largestFrom start fun i => term i.castSucc) (term (Fin.last n)) :=
  Fin.foldl_succ_last ..

/-! ## Inner products -/

/-- The inner product of two vectors. -/
def dot (v w : Vector α n) : α :=
  sumFrom 0 fun i : Fin n => v.get i * w.get i

/-- The sum of the magnitudes of the terms of an inner product, which bounds the
error that rounding can have left in it. -/
def dotMagnitude (v w : Vector α n) : α :=
  sumFrom 0 fun i : Fin n => Scalar.abs (v.get i * w.get i)

/-- The inner product of two sequences of any lengths, over their common indices. -/
def dotCommon (v w : Array α) : α :=
  dot (Vector.ofFn fun i : Fin (min v.size w.size) => v[i])
    (Vector.ofFn fun i : Fin (min v.size w.size) => w[i])

/-! ## Entries -/

theorem get_eq_getElem {β : Type} (v : Vector β n) (i : Fin n) : v.get i = v[i.val] :=
  rfl

/-- The matrix with the given number on its diagonal and zeros elsewhere. -/
def diagonal (n : Nat) (value : α) : Vector (Vector α n) n :=
  Vector.ofFn fun i => Vector.ofFn fun j => if i = j then value else 0

/-- Column `j` of a matrix given by its rows. -/
def column (rows : Vector (Vector α n) m) (j : Fin n) : Vector α m :=
  rows.map fun row => row.get j

/-- The entry at a position, or zero beyond the end of the vector. -/
def entry (v : Vector α n) (position : Nat) : α :=
  v[position]?.getD 0

theorem entry_of_lt (v : Vector α n) {position : Nat} (inside : position < n) :
    entry v position = v[position] := by
  simp [entry, inside]

end DerivativeFree
