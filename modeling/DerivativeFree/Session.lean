import DerivativeFree.Search.Next

/-!
# Sessions

A session is a search together with its problem and the point of the caller.  It starts
from a point of the box, and can be run step by step, to its end, or until a criterion
of the caller holds.
-/

namespace DerivativeFree

set_option autoImplicit false

variable {M : Type → Type} {α : Type} [Scalar α]

/-- The search for a problem, its bounds being constraints. -/
abbrev Problem.Search (problem : Problem M α) : Type :=
  DerivativeFree.Search α problem.dim problem.constraintCount problem.box.boundCount

/-- A search for a problem that has not started. -/
def Problem.search (problem : Problem M α) (options : Options α) : problem.Search :=
  DerivativeFree.Search.create _ _ _ options

/-- A search in progress, with its problem and its current point. -/
structure Session (M : Type → Type) (α : Type) [Scalar α] where
  /-- The problem to be solved. -/
  problem : Problem M α
  /-- The search. -/
  search : problem.Search
  /-- The initial point, and then the best point found so far. -/
  point : Array α
  /-- The status of the last step, if it ended the search. -/
  status : Option Status
  /-- The number of steps that have been made without a failure. -/
  iterations : Nat

namespace Session

/-- The name of the method. -/
def methodName : String := "COBYLA"

/-- The initial point of a session: the given one moved into the box, or left as it is if
its dimension is wrong, or the origin if none is given. -/
def initialPoint (problem : Problem M α) (initial : Option (Array α)) : Array α :=
  match initial with
  | some x =>
    if x.size = problem.dim then (problem.box.project (Vector.mk x rfl)).1.toArray else x
  | none => (problem.box.project (0 : Vector α problem.dim)).1.toArray

/-- A session that has not started. -/
def create (problem : Problem M α) (options : Options α) (initial : Option (Array α)) :
    Session M α where
  problem := problem
  search := problem.search options
  point := initialPoint problem initial
  status := none
  iterations := 0

variable [Monad M]

/-- Makes one step of the search.  A step that fails does not count. -/
def next (fuel : Nat) (session : Session M α) :
    M (Session M α × Except Failure (Option Status)) := do
  let step ← session.search.next fuel session.problem.evaluate session.problem.box session.point
  let stepped := { session with search := step.search, point := step.point }
  match step.result with
  | .ok status =>
    return ({ stepped with status, iterations := session.iterations + 1 }, .ok status)
  | .error failure => return (stepped, .error failure)

/-- Makes steps until the search ends or fails or the criterion holds after a step, at
most the given number of them. -/
def findFor (fuel : Nat) (stop : Session M α → M Bool) :
    Nat → Session M α → M (Session M α × Except Failure (Option Status))
  | 0, session => return (session, .error .outOfFuel)
  | steps + 1, session => do
    let (stepped, result) ← session.next fuel
    match result with
    | .ok none =>
      if ← stop stepped then return (stepped, .ok none)
      else findFor fuel stop steps stepped
    | .ok (some _) | .error _ => return (stepped, result)

/-- Makes steps until the search ends or fails or the criterion holds after a step. -/
def find (fuel : Nat) (stop : Session M α → M Bool) (session : Session M α) :
    M (Session M α × Except Failure (Option Status)) :=
  session.findFor fuel stop session.search.stepLimit

/-- Makes steps until the search ends or fails. -/
def run (fuel : Nat) (session : Session M α) :
    M (Session M α × Except Failure (Option Status)) :=
  session.find fuel fun _ => return false

end Session

end DerivativeFree
