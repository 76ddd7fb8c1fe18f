import DerivativeFree.Problem.Basic
import DerivativeFree.Problem.Sample

/-!
# Counted evaluation

An evaluator asks an oracle, appends the residuals of the bounds to the constraints and
counts the evaluations up to a limit.  What it has found is its `sample`.  An evaluation
that fails counts, and leaves the sample as it was; beyond the limit the oracle is not
asked any more.
-/

namespace DerivativeFree

set_option autoImplicit false

/-- A counter of evaluations with the values last found, for `u` constraints of the
problem and `b` bounds. -/
structure Evaluator (α : Type) (u b : Nat) where
  /-- The values that the oracle has written for the constraints of the problem. -/
  buffer : Vector α u
  /-- The values found by the last evaluation that succeeded. -/
  sample : Sample α (u + b)
  /-- The number of evaluations so far. -/
  evaluations : Nat
  /-- The number of evaluations that are allowed. -/
  limit : Nat

/-- What comes of asking for an evaluation. -/
inductive Evaluation where
  /-- The values were found. -/
  | found
  /-- The limit was reached before, and the oracle was not asked. -/
  | exhausted
  /-- The oracle answered with an error. -/
  | failed (error : EvalError)
  deriving Repr, DecidableEq

namespace Evaluator

variable {α : Type} [Scalar α] {n k u b : Nat}

/-- An evaluator that has not been used. -/
def start (u b limit : Nat) : Evaluator α u b where
  buffer := 0
  sample := Sample.zero (u + b)
  evaluations := 0
  limit := limit

/-- The evaluator with its counter set to zero. -/
def restart (evaluator : Evaluator α u b) : Evaluator α u b :=
  { evaluator with evaluations := 0 }

/-- The sample at `x`, given the objective there and the constraints of the problem.
Where the point yields no residual for a bound, the entry of the last sample stays. -/
def sampleAt (box : Box α n) (x : Vector α k) (constraints : Vector α u) (objective : α)
    (last : Sample α (u + b)) : Sample α (u + b) :=
  let bounds : Vector α b := Vector.ofFn fun i : Fin b => last.constraints.get (Fin.natAdd u i)
  let constraints := constraints ++ box.writeResiduals x bounds
  { constraints, objective, violation := Sample.worstViolation constraints }

/-- Asks for the values at `x`, unless the limit has been reached. -/
def evaluate {M : Type → Type} [Monad M] (evaluator : Evaluator α u b) (oracle : Oracle M α k u)
    (box : Box α n) (x : Vector α k) : M (Evaluator α u b × Evaluation) :=
  if evaluator.limit ≤ evaluator.evaluations then return (evaluator, .exhausted)
  else do
    let (buffer, answer) ← oracle x evaluator.buffer
    let counted := { evaluator with buffer, evaluations := evaluator.evaluations + 1 }
    match answer with
    | .ok objective =>
      return ({ counted with sample := sampleAt box x buffer objective evaluator.sample }, .found)
    | .error error => return (counted, .failed error)

end Evaluator

end DerivativeFree
