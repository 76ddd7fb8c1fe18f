import DerivativeFree.Interpolation.Simplex

/-!
# The revision of the penalty

When the trust region shrinks, a penalty that has become too large for the values in
the simplex is lowered.  `spread` collects the extremes of one row of values over all
vertices.  A constraint matters if its least value is below half of its greatest one;
the smallest distance that such a constraint covers, from its least value up to its
greatest value or zero, sets the scale against which the spread of the objective is
measured.
-/

namespace DerivativeFree.Simplex

set_option autoImplicit false

variable {α : Type} [Scalar α] {n m : Nat}

/-- The least and the greatest value of a row over the vertices, from the pole on. -/
def spread (simplex : Simplex α n m) (k : Fin (m + 1)) : α × α :=
  Fin.foldl n (fun extremes i =>
    (smaller extremes.1 ((simplex.samples.get i).row.get k),
      larger extremes.2 ((simplex.samples.get i).row.get k)))
    (simplex.poleSample.row.get k, simplex.poleSample.row.get k)

/-- The scale of the constraints that matter, or zero if there are none. -/
def constraintScale (simplex : Simplex α n m) : α :=
  Fin.foldl m (fun scale k =>
    let (least, greatest) := simplex.spread k.castSucc
    if least < 0.5 * greatest then
      let distance := larger greatest 0 - least
      if scale ≤ 0 then distance else smaller scale distance
    else scale) 0

/-- The penalty after a reduction of the radius. -/
def revisedPenalty (simplex : Simplex α n m) (penalty : α) : α :=
  let scale := simplex.constraintScale
  let (least, greatest) := simplex.spread (Fin.last m)
  if scale == 0 then 0
  else if greatest - least < penalty * scale then (greatest - least) / scale
  else penalty

end DerivativeFree.Simplex
