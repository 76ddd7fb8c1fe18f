import DerivativeFree.Interpolation.Shape
import DerivativeFree.Problem.Evaluator
import DerivativeFree.Search.Event
import DerivativeFree.TrustRegion.Workspace

/-!
# The state of a search

A search minimizes by linear models of the objective and the constraints, interpolated
at the vertices of a simplex.  It alternates between two kinds of points: trust region
steps, which look for an improvement, and vertices that are moved to keep the simplex
well shaped.  The infeasibility of a point counts through a penalty.

The state is a value between two evaluations.  Its `phase` says what comes next, and a
pending evaluation carries what is needed once its values are known.  The best point is
the pole of the simplex as it was after the last evaluation.
-/

namespace DerivativeFree

set_option autoImplicit false

/-- A trust region step with what the linear model promises for it. -/
structure Plan (α : Type) (n : Nat) where
  /-- The step from the pole. -/
  step : Vector α n
  /-- The predicted reduction of the greatest violation. -/
  violationReduction : α
  /-- The predicted reduction of the merit. -/
  meritReduction : α

/-- What an evaluation is for. -/
inductive Pending (α : Type) (n : Nat) where
  /-- To know the values at a vertex of the simplex. -/
  | vertex (vertex : Vertex n)
  /-- To try a step. -/
  | trial (plan : Plan α n)

/-- What a search does next. -/
inductive Phase (α : Type) (n : Nat) where
  /-- It takes its initial point. -/
  | start
  /-- It evaluates a point. -/
  | evaluate (pending : Pending α n)
  /-- It looks for the next point. -/
  | iterate
  /-- It reduces the radius of the trust region, or improves the simplex first. -/
  | reduce
  /-- Nothing, as it has ended. -/
  | done (status : Status)

/-- A search in `n` variables under `u` constraints of a problem and `b` bounds. -/
structure Search (α : Type) [Scalar α] (n u b : Nat) where
  /-- The options. -/
  options : Options α
  /-- The counter of the evaluations, with the values last found. -/
  evaluator : Evaluator α u b
  /-- The points of interpolation. -/
  simplex : Simplex α n (u + b)
  /-- The shape of the simplex when it was last assessed. -/
  shape : Shape α n
  /-- Whether that shape was acceptable. -/
  acceptable : Bool
  /-- The workspace for trust region steps. -/
  workspace : Workspace α n (u + b)
  /-- The point that is evaluated next, or was evaluated last. -/
  point : Vector α n
  /-- The best point that has been published. -/
  best : Vector α n
  /-- What comes next. -/
  phase : Phase α n
  /-- The radius of the trust region. -/
  radius : α
  /-- The weight of the violation in the merit. -/
  penalty : α
  /-- Whether the next iteration tries a step even if the shape is not acceptable. -/
  stepDue : Bool
  /-- What has happened, in order. -/
  journal : Array (Event α)

namespace Search

variable {α : Type} [Scalar α] {n u b : Nat}

/-- A search with the given options that has not started. -/
def create (n u b : Nat) (options : Options α) : Search α n u b where
  options := options
  evaluator := Evaluator.start u b options.maxEvaluations
  simplex := Simplex.axisAligned 0 1 (u + b)
  shape := Shape.unmeasured n
  acceptable := false
  workspace := Workspace.fresh n (u + b)
  point := 0
  best := 0
  phase := .start
  radius := options.radiusBegin
  penalty := 0
  stepDue := false
  journal := #[]

/-- The search made ready to start again from another point. -/
def reset (search : Search α n u b) : Search α n u b :=
  { search with
    evaluator := search.evaluator.restart
    phase := .start
    radius := search.options.radiusBegin
    penalty := 0
    acceptable := false
    stepDue := false }

/-! ## Observers -/

/-- The objective at the best vertex. -/
def objective (search : Search α n u b) : α :=
  search.simplex.poleSample.objective

/-- The violation at the best vertex. -/
def violation (search : Search α n u b) : α :=
  search.simplex.poleSample.violation

/-- The number of evaluations so far. -/
def evaluations (search : Search α n u b) : Nat :=
  search.evaluator.evaluations

/-- The status of a search that has ended. -/
def status? (search : Search α n u b) : Option Status :=
  match search.phase with
  | .done status => some status
  | _ => none

/-! ## The journal -/

/-- The search with another entry in its journal. -/
def note (search : Search α n u b) (level : Level) (notice : Notice α) : Search α n u b :=
  { search with journal := search.journal.push ⟨level, notice⟩ }

/-- The search with a report in its journal, if the verbosity asks for it. -/
def reportAt (search : Search α n u b) (verbosity : Verbosity) (notice : Notice α) :
    Search α n u b :=
  if search.options.verbosity.includes verbosity then search.note .info notice else search

/-- The search with a report of values found at a point. -/
def reportValues (search : Search α n u b) (objective violation : α) (x : Vector α n) :
    Search α n u b :=
  (search.note .info (.progress search.evaluations objective violation)).note .info
    (.position x.toList)

/-! ## The end -/

/-- The search with its pole as the published best point. -/
def publish (search : Search α n u b) : Search α n u b :=
  { search with best := search.simplex.pole }

/-- The search ended with the given status. -/
def finish (search : Search α n u b) (status : Status) : Search α n u b :=
  let ended := { search.publish with phase := .done status }
  ((ended.reportAt .final (.ended status)).reportAt .final
    (.progress ended.evaluations ended.objective ended.violation)).reportAt .radius
      (.position ended.best.toList)

end Search

end DerivativeFree
