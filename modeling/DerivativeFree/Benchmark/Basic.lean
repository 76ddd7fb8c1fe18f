import DerivativeFree.Linear.Norm
import DerivativeFree.Problem.Basic

/-!
# Benchmarks

A benchmark is a problem whose optima are known, with the points from which methods are
compared.  The values of a benchmark are given by the entries of the point at fixed
positions; `Benchmark.constrained` makes the problem out of an objective and a list of
constraints.
-/

namespace DerivativeFree

set_option autoImplicit false

variable {M : Type → Type} [Monad M] {α : Type} [Scalar α]

/-- A problem with known optima. -/
structure Benchmark (M : Type → Type) (α : Type) [Scalar α] where
  /-- The problem. -/
  problem : Problem M α
  /-- The initial points. -/
  initials : List (Vector α problem.dim)
  /-- The optima. -/
  optima : List (Vector α problem.dim)

/-- Why there is no benchmark of the size that is asked for. -/
inductive BenchmarkError where
  /-- There are no variables. -/
  | empty
  /-- The box does not have two variables. -/
  | notPlanar
  deriving Repr, DecidableEq

/-- The message of an error. -/
def BenchmarkError.message : BenchmarkError → String
  | .empty => "n must be greater than zero"
  | .notPlanar => "domain must be two-dimensional"

namespace Benchmark

/-- The problem of an objective and a list of constraints that never fail. -/
def constrained {n : Nat} (box : Box α n) (objective : {k : Nat} → Vector α k → α)
    (constraints : {k : Nat} → Vector α k → List α) (count : Nat) : Problem M α where
  dim := n
  box := box
  constraintCount := count
  evaluate x values :=
    let found := constraints x
    return (Vector.ofFn fun i => found.getD i (values.get i), .ok (objective x))

/-- Whether a point is within the given distance of an optimum. -/
def isOptimum (benchmark : Benchmark M α) (x : Vector α benchmark.problem.dim)
    (tolerance : α) : Bool :=
  benchmark.optima.any fun optimum => decide (euclideanNorm (optimum - x) ≤ tolerance)

/-! ## Powers -/

/-- The second power. -/
def square (x : α) : α := x * x

/-- The fourth power. -/
def fourth (x : α) : α := square x * square x

/-- The sixth power. -/
def sixth (x : α) : α := square x * fourth x

end Benchmark

end DerivativeFree
