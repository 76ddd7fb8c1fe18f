import DerivativeFree.TrustRegion.Workspace

/-!
# Revision of the active set

A constraint enters the active set through `activate` and leaves it through
`deactivate`; both end with a new direction of the search.  The basis follows by plane
rotations: `exchange` swaps two neighbours in the active set, and `alignBasis` turns the
free columns of the basis until only the first of them has a component along a new
gradient.  If there is no such component, the gradient depends on the active ones, and
the constraint takes the place of the last of them, after `dependence` has found how far
the multipliers may move.

An inner product that could be zero but for rounding is taken as zero, which `rounded`
decides from the magnitudes of its terms.
-/

namespace DerivativeFree

set_option autoImplicit false

variable {α : Type} [Scalar α] {n m : Nat}

/-! ## Rounding -/

/-- Whether a sum can be told from zero, given the sum of the magnitudes of its terms. -/
def significant (magnitude value : α) : Bool :=
  let near := magnitude + 0.1 * Scalar.abs value
  let far := magnitude + 0.2 * Scalar.abs value
  decide (magnitude < near) && decide (near < far)

/-- The sum, or zero if it cannot be told from zero. -/
def rounded (magnitude value : α) : α :=
  if significant magnitude value then value else 0

/-- The inner product, or zero if it cannot be told from zero. -/
def roundedDot (v w : Vector α n) : α :=
  rounded (dotMagnitude v w) (dot v w)

/-- The plane rotation of two vectors by the angle with the given cosine and sine. -/
def rotate (cosine sine : α) (v w : Vector α n) : Vector α n × Vector α n :=
  (cosine * v + sine * w, cosine * w - sine * v)

namespace Workspace

/-! ## Rotations of the basis -/

/-- The workspace with the constraints at the positions `k` and `k + 1` of the active
set exchanged, and the basis and the pivots rotated to match. -/
def exchange (model : LinearModel α n m) (workspace : Workspace α n m) (k : Nat) :
    Workspace α n m :=
  let component := dot (workspace.basisAt k) (workspace.gradientAt model (k + 1))
  let pivot := entry workspace.pivots (k + 1)
  let length := Scalar.sqrt (component * component + pivot * pivot)
  let cosine := pivot / length
  let sine := component / length
  let rotated := rotate cosine sine (workspace.basisAt (k + 1)) (workspace.basisAt k)
  { workspace with
    basis := (workspace.basis.setIfInBounds k rotated.1).setIfInBounds (k + 1) rotated.2
    pivots :=
      (workspace.pivots.setIfInBounds (k + 1) (cosine * entry workspace.pivots k)).setIfInBounds k
        length
    order := workspace.order.swapIfInBounds k (k + 1)
    multipliers := workspace.multipliers.swapIfInBounds k (k + 1) }

/-- Turns column `k` of the basis and the next one so that only column `k` keeps a
component along the gradient.  The second part of the state is the component that the
later columns have had. -/
def alignColumn (gradient : Vector α n) (k : Fin n) (state : Vector (Vector α n) n × α) :
    Vector (Vector α n) n × α :=
  let (basis, later) := state
  let component := roundedDot (basis.get k) gradient
  if later == 0 then (basis, component)
  else
    let length := Scalar.sqrt (component * component + later * later)
    let rotated := rotate (component / length) (later / length) (basis.get k)
      (basis[k.val + 1]?.getD 0)
    ((basis.set k rotated.1 k.isLt).setIfInBounds (k + 1) rotated.2, length)

/-- The basis with its free columns turned so that only the first of them has a
component along the gradient, and that component. -/
def alignBasis (workspace : Workspace α n m) (gradient : Vector α n) :
    Vector (Vector α n) n × α :=
  Fin.foldr n (fun k state =>
    if workspace.active ≤ k.val then alignColumn gradient k state else state)
    (workspace.basis, 0)

/-! ## Directions -/

/-- The direction of the second stage: along the last active column, at unit slope of
the objective. -/
def descend (workspace : Workspace α n m) : Workspace α n m :=
  let last := workspace.active - 1
  { workspace with direction := (1 / entry workspace.pivots last) * workspace.basisAt last }

/-- The direction of the first stage after a constraint has become the last active one:
its violation is to fall at unit rate. -/
def approach (model : LinearModel α n m) (workspace : Workspace α n m) : Workspace α n m :=
  let last := workspace.active - 1
  let excess := (dot workspace.direction (workspace.gradientAt model last) - 1) /
    entry workspace.pivots last
  { workspace with direction := workspace.direction - excess * workspace.basisAt last }

/-! ## Leaving the active set -/

/-- Removes the constraint at the incoming position from the active set, and says
whether there is a direction to go on with. -/
def deactivate (model : LinearModel α n m) (workspace : Workspace α n m) :
    Workspace α n m × Bool :=
  let moved := (List.range' workspace.incoming (workspace.active - 1 - workspace.incoming)).foldl
    (exchange model) workspace
  let released := { moved with active := moved.active - 1 }
  if released.secondStage then
    if released.active = 0 then (released, false) else (released.descend, true)
  else
    let column := released.basisAt released.active
    let direction := released.direction - dot released.direction column * column
    ({ released with direction }, true)

/-! ## Entering the active set -/

/-- What is found while a dependent gradient is expressed by the active ones: the part
not expressed yet, the coefficients, and the least ratio of a multiplier to its positive
coefficient. -/
structure Dependence (α : Type) (n m : Nat) where
  /-- The part of the gradient that is still to be expressed. -/
  rest : Vector α n
  /-- The coefficients found so far. -/
  coefficients : Vector α (m + 1)
  /-- The least ratio so far of a multiplier to a positive coefficient. -/
  ratio : Option α

/-- Finds the coefficient of the active constraint at position `k`. -/
def dependenceAt (model : LinearModel α n m) (workspace : Workspace α n m) (k : Nat)
    (found : Dependence α n m) : Dependence α n m :=
  let component := dot (workspace.basisAt k) found.rest
  if significant (dotMagnitude (workspace.basisAt k) found.rest) component then
    let coefficient := component / entry workspace.pivots k
    let ratio := entry workspace.multipliers k / coefficient
    let limits := decide (0 < coefficient) && decide ((workspace.constraintAt k).val < m) &&
      found.ratio.all fun least => decide (ratio < least)
    { rest :=
        if 1 ≤ k then found.rest - coefficient * workspace.gradientAt model k else found.rest
      coefficients := found.coefficients.setIfInBounds k coefficient
      ratio := if limits then some ratio else found.ratio }
  else { found with coefficients := found.coefficients.setIfInBounds k 0 }

/-- Expresses a gradient by the active ones, from the last to the first. -/
def dependence (model : LinearModel α n m) (workspace : Workspace α n m)
    (gradient : Vector α n) : Dependence α n m :=
  Fin.foldr workspace.active (fun k => dependenceAt model workspace k)
    ⟨gradient, workspace.candidates, none⟩

/-- Lets the constraint at the incoming position take the place of the last active one,
on whose gradient and those before it its own gradient depends. -/
def enterDependent (model : LinearModel α n m) (workspace : Workspace α n m)
    (gradient : Vector α n) : Workspace α n m × Bool :=
  let found := dependence model workspace gradient
  let workspace := { workspace with trial := found.rest, candidates := found.coefficients }
  match found.ratio with
  | none => (workspace, false)
  | some ratio =>
    let last := workspace.active - 1
    let multipliers := Vector.ofFn fun k =>
      if k.val < workspace.active then
        larger (workspace.multipliers.get k - ratio * found.coefficients.get k) 0
      else workspace.multipliers.get k
    let pivot := dot (workspace.basisAt last) gradient
    if pivot == 0 then ({ workspace with multipliers }, false)
    else
      ({ workspace with
          pivots := workspace.pivots.setIfInBounds last pivot
          multipliers :=
            (multipliers.setIfInBounds workspace.incoming 0).setIfInBounds last ratio }, true)

/-- Lets the constraint at the incoming position become the last active one, its
gradient having the given component along the first free column. -/
def enterIndependent (workspace : Workspace α n m) (component : α) : Workspace α n m :=
  let last := workspace.active
  { workspace with
    active := workspace.active + 1
    pivots := workspace.pivots.setIfInBounds last component
    multipliers := (workspace.multipliers.setIfInBounds workspace.incoming
      (entry workspace.multipliers last)).setIfInBounds last 0 }

/-- Moves the constraint that has entered to the last active position, or to the one
before it if the objective is active, and finds the new direction. -/
def settleEntry (model : LinearModel α n m) (workspace : Workspace α n m) : Workspace α n m :=
  let last := workspace.active - 1
  let entered := workspace.constraintAt workspace.incoming
  let placed := { workspace with order := workspace.order.swapIfInBounds workspace.incoming last }
  if placed.secondStage then
    if entered ≠ Fin.last m ∧ 1 ≤ last then (exchange model placed (last - 1)).descend
    else placed.descend
  else placed.approach model

/-- Adds the constraint at the incoming position to the active set, and says whether
this was possible. -/
def activate (model : LinearModel α n m) (workspace : Workspace α n m) :
    Workspace α n m × Bool :=
  let gradient := workspace.gradientAt model workspace.incoming
  let (basis, component) := workspace.alignBasis gradient
  let aligned := { workspace with basis, trial := gradient }
  if component == 0 then
    match enterDependent model aligned gradient with
    | (entered, true) => (entered.settleEntry model, true)
    | (stuck, false) => (stuck, false)
  else ((aligned.enterIndependent component).settleEntry model, true)

/-- Removes the incoming constraint if it is active, and adds it if it is not. -/
def revise (model : LinearModel α n m) (workspace : Workspace α n m) : Workspace α n m × Bool :=
  if workspace.incoming < workspace.active then deactivate model workspace
  else activate model workspace

end Workspace

end DerivativeFree
