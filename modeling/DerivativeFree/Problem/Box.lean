import DerivativeFree.Linear.Vector

/-!
# Boxes

A box bounds each of its variables from below and from above, or leaves a side open.
It can be seen in two ways.  `project` moves a point into the box, comparing it with
every bound that is given.  `residuals` turns the bounds of finite size into
constraints, one number for each, which is nonnegative exactly when the point is on
the right side of the bound; `boundCount` is their number.

A box has at least one variable, and no lower bound exceeds the upper bound of the
same variable.  `ofBounds` checks both and `BoxError` names what it can find wrong.
-/

namespace DerivativeFree

set_option autoImplicit false

/-- A product of intervals in `n` variables, where an absent bound leaves a side open. -/
structure Box (α : Type) [Scalar α] (n : Nat) where
  /-- The lower bounds. -/
  lower : Vector (Option α) n
  /-- The upper bounds. -/
  upper : Vector (Option α) n
  /-- A box has at least one variable. -/
  positive : 0 < n
  /-- No lower bound exceeds the upper bound of the same variable. -/
  ordered : ∀ i : Fin n, ∀ l ∈ lower.get i, ∀ u ∈ upper.get i, l ≤ u

/-- Why bounds do not make a box. -/
inductive BoxError where
  /-- There are no variables. -/
  | empty
  /-- There are not as many lower bounds as upper bounds. -/
  | sizeMismatch
  /-- A lower bound is not at most the upper bound of the same variable. -/
  | crossed
  deriving Repr, DecidableEq

/-- The message of an error. -/
def BoxError.message : BoxError → String
  | .empty => "empty domain"
  | .sizeMismatch => "lower and upper have different size"
  | .crossed => "lower bound greater than upper bound"

namespace Box

variable {α : Type} [Scalar α] {n k : Nat}

/-! ## Construction -/

/-- The box without any bounds. -/
def unbounded (n : Nat) (positive : 0 < n) : Box α n where
  lower := Vector.replicate n none
  upper := Vector.replicate n none
  positive := positive
  ordered := by simp [get_eq_getElem]

/-- The box without any bounds, or an error if there are no variables. -/
def unbounded? (n : Nat) : Except BoxError (Box α n) :=
  if positive : 0 < n then .ok (unbounded n positive) else .error .empty

/-- The box with the given bounds in all variables. -/
def ofBounds (lower upper : Array α) : Except BoxError (Box α lower.size) :=
  if sizes : lower.size = upper.size then
    if positive : 0 < lower.size then
      if ordered : ∀ i : Fin lower.size, lower[i] ≤ upper[i] then
        .ok {
          lower := Vector.ofFn fun i => some lower[i]
          upper := Vector.ofFn fun i => some upper[i]
          positive := positive
          ordered := by simpa [get_eq_getElem, Fin.forall_iff] using ordered }
      else .error .crossed
    else .error .empty
  else .error .sizeMismatch

/-- The box with the given pairs of a lower and an upper bound. -/
def ofPairs (pairs : Array (α × α)) : Except BoxError (Box α (pairs.map Prod.fst).size) :=
  ofBounds (pairs.map Prod.fst) (pairs.map Prod.snd)

/-! ## Bounds as constraints -/

/-- The bounds of finite size in a vector of bounds, each with its variable, by
increasing variable. -/
def finiteBounds (bounds : Vector (Option α) n) : List (Fin n × α) :=
  (List.finRange n).filterMap fun i =>
    ((bounds.get i).filter Scalar.isFinite).map fun bound => (i, bound)

theorem mem_finiteBounds {bounds : Vector (Option α) n} {i : Fin n} {bound : α} :
    (i, bound) ∈ finiteBounds bounds ↔
      bounds.get i = some bound ∧ Scalar.isFinite bound = true := by
  simp only [finiteBounds, List.mem_filterMap, List.mem_finRange, true_and,
    Option.map_eq_some_iff, Option.filter_eq_some_iff, Prod.mk.injEq]
  constructor
  · rintro ⟨j, found, ⟨given, finite⟩, rfl, rfl⟩
    exact ⟨given, finite⟩
  · rintro ⟨given, finite⟩
    exact ⟨i, bound, ⟨given, finite⟩, rfl, rfl⟩

/-- The number of bounds of finite size. -/
def boundCount (box : Box α n) : Nat :=
  (finiteBounds box.lower).length + (finiteBounds box.upper).length

/-- The residuals of the bounds of finite size: the distances above the lower bounds,
then the distances below the upper bounds.  Variables that the point does not have
are left out. -/
def residuals (box : Box α n) (x : Vector α k) : List α :=
  (finiteBounds box.lower).filterMap (fun (i, bound) => x[i.val]?.map (· - bound)) ++
    (finiteBounds box.upper).filterMap (fun (i, bound) => x[i.val]?.map (bound - ·))

theorem length_residuals (box : Box α n) (x : Vector α n) :
    (box.residuals x).length = box.boundCount := by
  simp [residuals, boundCount]

/-- The residuals written over the first entries of a vector, as many as fit. -/
def writeResiduals (box : Box α n) (x : Vector α k) {b : Nat} (out : Vector α b) : Vector α b :=
  let found := box.residuals x
  Vector.ofFn fun i => found.getD i (out.get i)

/-! ## Projection -/

/-- Whether a number is below a bound. -/
def isBelow (x : α) (bound : Option α) : Bool :=
  bound.any fun l => decide (x < l)

/-- Whether a number is above a bound. -/
def isAbove (x : α) (bound : Option α) : Bool :=
  bound.any fun u => decide (u < x)

/-- The number moved to the bound that it violates, the lower one before the upper. -/
def clamp (lower upper : Option α) (x : α) : α :=
  if isBelow x lower then lower.getD x
  else if isAbove x upper then upper.getD x
  else x

/-- Whether a number violates one of two bounds. -/
def violates (lower upper : Option α) (x : α) : Bool :=
  isBelow x lower || isAbove x upper

/-- The point moved into the box, and whether it was outside.  Coordinates beyond the
variables of the box are kept. -/
def project (box : Box α n) (x : Vector α k) : Vector α k × Bool :=
  let lower (i : Nat) : Option α := box.lower[i]?.bind id
  let upper (i : Nat) : Option α := box.upper[i]?.bind id
  (Vector.ofFn fun i => clamp (lower i) (upper i) (x.get i),
    (List.finRange k).any fun i => violates (lower i) (upper i) (x.get i))

end Box

end DerivativeFree
