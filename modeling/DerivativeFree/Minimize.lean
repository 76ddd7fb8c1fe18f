import DerivativeFree.Session

/-!
# Minimizing in one call

`minimize` solves a problem without bounds that is given by an oracle and a handful of
numbers.  `minimizeWithin` lets a search make a bounded number of steps.
-/

namespace DerivativeFree

set_option autoImplicit false

variable {M : Type → Type} [Monad M] {α : Type} [Scalar α]

/-! ## By an oracle -/

/-- The result of a minimization. -/
structure Report (α : Type) where
  /-- Why the search has ended. -/
  status : Status
  /-- The objective in the final point. -/
  objective : α
  /-- The greatest violation of a constraint in the final point. -/
  violation : α
  /-- The number of evaluations. -/
  evaluations : Nat
  deriving Repr

/-- The parameters of a minimization. -/
structure Parameters (α : Type) where
  /-- The initial radius of the trust region. -/
  radiusBegin : α
  /-- The final radius of the trust region. -/
  radiusEnd : α
  /-- The greatest number of evaluations. -/
  maxEvaluations : Nat
  /-- The level of the verbosity. -/
  printLevel : Nat
  /-- Whether rounding errors that become damaging end the search. -/
  strict : Bool

/-- The options that the parameters stand for. -/
def Parameters.options (parameters : Parameters α) : Options α where
  radiusBegin := parameters.radiusBegin
  radiusEnd := parameters.radiusEnd
  maxEvaluations := parameters.maxEvaluations
  verbosity := .ofLevel parameters.printLevel
  roundingCheck := if parameters.strict then .abort else .off

/-- What a minimization leaves behind. -/
structure Minimization (α : Type) where
  /-- The final point, or the initial one after a failure. -/
  point : Array α
  /-- The report, or why there is none. -/
  result : Except Failure (Report α)
  /-- What has happened. -/
  journal : Array (Event α)

/-- What a minimization from `x` leaves behind after the last step of its search. -/
def Minimization.ofStep {n u b : Nat} (x : Array α) (step : Step α n u b) : Minimization α :=
  let journal := step.search.journal
  match step.result with
  | .ok (some status) =>
    let report := {
      status := status
      objective := step.search.objective
      violation := step.search.violation
      evaluations := step.search.evaluations }
    ⟨step.point, .ok report, journal⟩
  | .ok none => ⟨x, .error .outOfFuel, journal⟩
  | .error failure => ⟨x, .error failure, journal⟩

/-- Minimizes the objective of an oracle of `n` variables subject to its `m` constraints,
starting from `x`. -/
def minimize (fuel n m : Nat) (x : Array α) (parameters : Parameters α)
    (oracle : Oracle M α n m) : M (Minimization α) := do
  if positive : 0 < n then
    if x.size = n then
      let box := Box.unbounded n positive
      let search : Search α n m 0 := Search.create n m 0 parameters.options
      let step ← search.run fuel oracle box x
      return .ofStep x step
    else return ⟨x, .error .badStart, #[]⟩
  else return ⟨x, .error .noVariables, #[]⟩

/-! ## Within a number of steps -/

/-- Why a search within a number of steps has no result. -/
inductive TrialFailure where
  /-- The search has failed. -/
  | search (failure : Failure)
  /-- The steps did not suffice. -/
  | unfinished
  deriving Repr, DecidableEq

/-- The message of a failure. -/
def TrialFailure.message : TrialFailure → String
  | .search failure => failure.message
  | .unfinished => "optimizer did not terminate"

/-- The final point and the status of a search that is allowed the given number of
steps, and the search as it is then. -/
def minimizeWithin (fuel steps : Nat) (problem : Problem M α) (search : problem.Search)
    (x : Array α) : M (problem.Search × Except TrialFailure (Array α × Status)) := do
  let step ← search.runFor fuel problem.evaluate problem.box steps x
  match step.result with
  | .ok (some status) => return (step.search, .ok (step.point, status))
  | .ok none => return (step.search, .error .unfinished)
  | .error failure => return (step.search, .error (.search failure))

end DerivativeFree
