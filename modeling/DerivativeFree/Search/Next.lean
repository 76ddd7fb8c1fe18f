import DerivativeFree.Search.Answer
import DerivativeFree.Search.Iteration

/-!
# Steps of a search

`next` does the work up to and including one evaluation, so that a caller can watch the
search and stop it between any two evaluations.  The caller passes a point: the first
time it is the initial point, and after each step it is the best point found so far.  A
step that fails leaves the point alone, and the search as it was when the oracle was
asked.  `runFor` makes several steps and `run` as many as it takes.
-/

namespace DerivativeFree

set_option autoImplicit false

/-- What a step of a search leads to. -/
structure Step (α : Type) [Scalar α] (n u b : Nat) where
  /-- The search after the step. -/
  search : Search α n u b
  /-- The point of the caller after the step. -/
  point : Array α
  /-- The status if the search has ended, nothing if it goes on, or why it failed. -/
  result : Except Failure (Option Status)

namespace Search

variable {α : Type} [Scalar α] {n u b : Nat} {M : Type → Type} [Monad M]

/-- The step that hands out the best point together with a result. -/
def handOut (search : Search α n u b) (point : Array α) (result : Option Status) :
    Step α n u b :=
  if point.size = n then ⟨search, search.best.toArray, .ok result⟩
  else ⟨search, point, .error .lengthMismatch⟩

/-- The search started at the given point, if it has not started yet. -/
def enter (search : Search α n u b) (point : Array α) : Except Failure (Search α n u b) :=
  match search.phase with
  | .start =>
    match search.options.obstacle? n point with
    | some failure => .error failure
    | none => .ok (search.startAt (Vector.ofFn fun i => point[i.val]?.getD 0))
  | .evaluate _ | .iterate | .reduce | .done _ => .ok search

/-- Evaluates the point that the search is waiting for. -/
def ask (oracle : Oracle M α n u) (box : Box α n) (search : Search α n u b)
    (pending : Pending α n) (point : Array α) : M (Step α n u b) := do
  let (evaluator, evaluation) ← search.evaluator.evaluate oracle box search.point
  let asked := { search with evaluator }
  match evaluation with
  | .found => return (asked.answer pending).handOut point none
  | .exhausted => return (asked.finish .exhausted).handOut point (some .exhausted)
  | .failed .halt =>
    return ((asked.note .debug .halted).finish .exhausted).handOut point (some .exhausted)
  | .failed error => return ⟨asked, point, .error (.evaluation error)⟩

/-- Goes on up to and including the next evaluation, with at most `fuel` turns at a time
before it. -/
def next (fuel : Nat) (oracle : Oracle M α n u) (box : Box α n) (search : Search α n u b)
    (point : Array α) : M (Step α n u b) :=
  match search.enter point with
  | .error failure => return ⟨search, point, .error failure⟩
  | .ok entered =>
    match entered.settle fuel fuel with
    | none => return ⟨entered, point, .error .outOfFuel⟩
    | some settled =>
      match settled.phase with
      | .evaluate pending => settled.ask oracle box pending point
      | .done status => return settled.handOut point (some status)
      | .start | .iterate | .reduce => return settled.handOut point none

/-! ## Several steps -/

/-- Makes steps until the search ends or fails, at most the given number of them.  The
result of the last step is returned; with no step at all, the search goes on. -/
def runFor (fuel : Nat) (oracle : Oracle M α n u) (box : Box α n) :
    Nat → Search α n u b → Array α → M (Step α n u b)
  | 0, search, point => return ⟨search, point, .ok none⟩
  | steps + 1, search, point => do
    let step ← search.next fuel oracle box point
    match step.result with
    | .ok none => runFor fuel oracle box steps step.search step.point
    | .ok (some _) | .error _ => return step

/-- A number of steps after which a search has ended or failed: each one uses an
evaluation up, except for the last. -/
def stepLimit (search : Search α n u b) : Nat :=
  search.evaluator.limit + 1 - search.evaluations + 1

/-- Makes steps until the search ends or fails. -/
def run (fuel : Nat) (oracle : Oracle M α n u) (box : Box α n) (search : Search α n u b)
    (point : Array α) : M (Step α n u b) :=
  search.runFor fuel oracle box search.stepLimit point

end Search

end DerivativeFree
