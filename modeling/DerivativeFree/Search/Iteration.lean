import DerivativeFree.Interpolation.Penalty
import DerivativeFree.Interpolation.Pole
import DerivativeFree.Linear.Norm
import DerivativeFree.Search.Basic
import DerivativeFree.TrustRegion.Solve

/-!
# Between two evaluations

An iteration makes the best vertex the pole and interpolates the linear model.  Then it
either moves a vertex to improve the shape of the simplex, or plans a trust region step,
raising the penalty if the step would otherwise not reduce the merit.  A step that is
too short leads to `reduce`, which halves the radius once the shape is acceptable.

`settle` repeats this until a point has to be evaluated or the search has ended.
-/

namespace DerivativeFree.Search

set_option autoImplicit false

variable {α : Type} [Scalar α] {n u b : Nat}

/-! ## The start -/

/-- The search started at `x`, whose values are needed first. -/
def startAt (search : Search α n u b) (x : Vector α n) : Search α n u b :=
  let radius := search.options.radiusBegin
  let started := { search with
    point := x
    radius := radius
    penalty := 0
    stepDue := false
    simplex := Simplex.axisAligned x radius (u + b)
    shape := Shape.unmeasured n
    phase := .evaluate (.vertex .pole) }
  started.reportAt .radius (.started radius)

/-! ## The simplex -/

/-- The search with the best vertex of its simplex as the pole. -/
def selectPole (search : Search α n u b) : Search α n u b :=
  match search.simplex.selectPole search.penalty with
  | (_, none) => search
  | (simplex, some j) =>
    { search with simplex }.note .debug
      (.promoted j simplex.poleSample.objective simplex.poleSample.violation)

/-- Whether the inverse of the simplex is too far from the edges. -/
def inverseSpoilt (search : Search α n u b) : Bool :=
  search.options.roundingCheck ≠ .off && decide (0.1 < search.simplex.inverseError)

/-- The search with the shape of its simplex assessed against the radius. -/
def assess (search : Search α n u b) : Search α n u b :=
  let shape := Shape.of search.simplex
  { search with
    shape := shape
    acceptable := shape.acceptable (Shape.heightFactor * search.radius)
      (Shape.lengthFactor * search.radius) }

/-! ## Improving the shape -/

/-- The greatest violations that the model predicts if a step is taken forwards and if it
is taken backwards, a constraint counting by its value in the pole alone. -/
def violationsAlong (model : LinearModel α n (u + b)) (search : Search α n u b)
    (step : Vector α n) : α × α :=
  let values := search.simplex.poleSample.constraints
  (largestFrom 0 fun k : Fin (u + b) => -model.slope k.castSucc step - values.get k,
    largestFrom 0 fun k : Fin (u + b) => model.slope k.castSucc step - values.get k)

/-- The step to the new place of vertex `j`: along the normal of the opposite face, to the
side that the model prefers. -/
def renewalStep (model : LinearModel α n (u + b)) (search : Search α n u b) (j : Fin n) :
    Vector α n :=
  let normal := (Shape.renewalFactor * search.radius * search.shape.heights.get j) *
    search.simplex.inverse.get j
  let (forwards, backwards) := search.violationsAlong model normal
  let sign : α := if 2.0 * model.slope (Fin.last (u + b)) normal <
    search.penalty * (forwards - backwards) then -1 else 1
  normal.map (· * sign)

/-- The search with vertex `j` to be moved. -/
def improveShape (model : LinearModel α n (u + b)) (search : Search α n u b) (j : Fin n) :
    Search α n u b :=
  let step := search.renewalStep model j
  let simplex := search.simplex.replaceEdge j step
  { search with
    simplex := simplex
    point := simplex.point (.edge j)
    phase := .evaluate (.vertex (.edge j)) }.note .debug (.shapeImproved j step.toList)

/-! ## Planning a step -/

/-- The penalty that a step with the given predicted changes calls for. -/
def penaltyNeeded (increase violationReduction : α) : α :=
  if 0 < violationReduction then increase / violationReduction else 0

/-- The search with a step of the model to be tried, given what the step promises. -/
def tryStep (search : Search α n u b) (step : Vector α n) (complete : Bool)
    (increase violationReduction : α) : Search α n u b :=
  let meritReduction := search.penalty * violationReduction - increase
  { search with
    point := search.simplex.pole + step
    stepDue := true
    phase := .evaluate (.trial { step, violationReduction, meritReduction }) }.note .debug
      (.stepPlanned (euclideanNorm step) complete meritReduction)

/-- The search with the penalty raised to the given number. -/
def raisePenalty (search : Search α n u b) (penalty : α) : Search α n u b :=
  { search with penalty }.reportAt .radius (.penaltyRaised penalty)

/-- The search with a step of the model planned, after the penalty has been raised if the
step calls for it.  If that dethrones the pole, another iteration comes first. -/
def weighStep (model : LinearModel α n (u + b)) (search : Search α n u b)
    (step : Vector α n) (complete : Bool) : Search α n u b :=
  let increase := model.predictedIncrease step
  let violationReduction := search.violation - model.predictedViolation step
  let needed := penaltyNeeded increase violationReduction
  if search.penalty < 1.5 * needed then
    let raised := search.raisePenalty (2.0 * needed)
    if raised.simplex.dethroned raised.penalty then { raised with phase := .iterate }
    else raised.tryStep step complete increase violationReduction
  else search.tryStep step complete increase violationReduction

/-- The search with the trust region step of the model planned, or the radius to be
reduced if the step is too short. -/
def planStep (fuel : Nat) (model : LinearModel α n (u + b)) (search : Search α n u b) :
    Option (Search α n u b) :=
  (search.workspace.solve model search.radius fuel).map fun (workspace, how) =>
    let solved := { search with workspace }
    let step := workspace.step
    match how with
    | .boundary => solved.weighStep model step true
    | .stalled active =>
      let solved := solved.note .debug (.stalled active)
      let length := dot step step
      if length < 0.25 * solved.radius * solved.radius then
        { solved with stepDue := true, phase := .reduce }.note .debug
          (.tooShort (Scalar.sqrt length))
      else solved.weighStep model step false

/-! ## One iteration -/

/-- The search after an iteration with the given pole: a vertex is to be moved, a step to
be tried, or the radius to be reduced. -/
def explore (fuel : Nat) (search : Search α n u b) : Option (Search α n u b) :=
  let model := LinearModel.interpolate search.simplex
  let assessed := search.assess
  let worst := if assessed.stepDue || assessed.acceptable then none
    else assessed.shape.worst (Shape.lengthFactor * assessed.radius)
  match worst with
  | some j => some (assessed.improveShape model j)
  | none => assessed.planStep fuel model

/-- The search after an iteration. -/
def iterate (fuel : Nat) (search : Search α n u b) : Option (Search α n u b) :=
  let selected := search.selectPole
  if selected.inverseSpoilt then
    if selected.options.roundingCheck = .abort then some (selected.finish .inaccurate)
    else (selected.note .warn (.inaccurate selected.simplex.inverseError)).explore fuel
  else selected.explore fuel

/-! ## Reducing the radius -/

/-- Half of the radius, or the final one if that is close to it. -/
def halvedRadius (search : Search α n u b) : α :=
  let half := search.radius * 0.5
  if half ≤ 1.5 * search.options.radiusEnd then search.options.radiusEnd else half

/-- The search with its radius halved, and the penalty revised if there is one. -/
def shrink (search : Search α n u b) : Search α n u b :=
  let radius := search.halvedRadius
  let penalty := if 0 < search.penalty then search.simplex.revisedPenalty search.penalty
    else search.penalty
  let shrunk := { search with radius, penalty, phase := .iterate }.note .debug
    (.radiusReduced radius penalty)
  let shrunk := shrunk.reportAt .radius (.radiusReduced radius penalty)
  if shrunk.options.verbosity = .radius then
    shrunk.reportValues shrunk.objective shrunk.violation shrunk.simplex.pole
  else shrunk

/-- The search with its radius reduced, unless the simplex has to be improved first or
the radius is the final one. -/
def reduce (search : Search α n u b) : Search α n u b :=
  if ¬ search.acceptable then { search with stepDue := false, phase := .iterate }
  else if search.radius ≤ search.options.radiusEnd then search.finish .converged
  else search.shrink

/-! ## Until the next evaluation -/

/-- Goes on until a point has to be evaluated or the search has ended, in at most the
given number of turns. -/
def settle (fuel : Nat) : Nat → Search α n u b → Option (Search α n u b)
  | 0, _ => none
  | turns + 1, search =>
    match search.phase with
    | .iterate =>
      match search.iterate fuel with
      | some next => settle fuel turns next
      | none => none
    | .reduce => settle fuel turns search.reduce
    | .start | .evaluate _ | .done _ => some search

end DerivativeFree.Search
