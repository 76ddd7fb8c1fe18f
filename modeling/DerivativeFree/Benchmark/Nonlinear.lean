import DerivativeFree.Benchmark.Basic

/-!
# Classic benchmarks with nonlinear constraints

`rosenSuzuki` has a quadratic objective of four variables and three quadratic
constraints, two of which are active in the optimum, where the objective is `-44`.
`hockSchittkowski100` has seven variables and four constraints with powers up to the
sixth; its objective is about `680.630` in the optimum.

The terms are added in the order in which they are written.
-/

namespace DerivativeFree.Benchmark

set_option autoImplicit false

variable {M : Type → Type} [Monad M] {α : Type} [Scalar α]

/-! ## Four variables -/

/-- The objective of `rosenSuzuki`. -/
def rosenSuzukiObjective (x₁ x₂ x₃ x₄ : α) : α :=
  x₁ * x₁ + x₂ * x₂ + 2.0 * x₃ * x₃ + x₄ * x₄ - 5.0 * x₁ - 5.0 * x₂ - 21.0 * x₃ + 7.0 * x₄

/-- The constraints of `rosenSuzuki`. -/
def rosenSuzukiConstraints (x₁ x₂ x₃ x₄ : α) : List α :=
  [8.0 - x₁ * x₁ - x₂ * x₂ - x₃ * x₃ - x₄ * x₄ - x₁ + x₂ - x₃ + x₄,
    10.0 - x₁ * x₁ - 2.0 * x₂ * x₂ - x₃ * x₃ - 2.0 * x₄ * x₄ + x₁ + x₄,
    5.0 - 2.0 * x₁ * x₁ - x₂ * x₂ - x₃ * x₃ - 2.0 * x₁ + x₂ + x₄]

/-- A quadratic objective of four variables with three quadratic constraints. -/
def rosenSuzuki : Benchmark M α where
  problem := constrained (Box.unbounded 4 (by decide))
    (fun x => rosenSuzukiObjective (entry x 0) (entry x 1) (entry x 2) (entry x 3))
    (fun x => rosenSuzukiConstraints (entry x 0) (entry x 1) (entry x 2) (entry x 3)) 3
  initials := [#v[1.0, 1.0, 1.0, 1.0]]
  optima := [#v[0.0, 1.0, 2.0, -1.0]]

/-! ## Seven variables -/

/-- The objective of `hockSchittkowski100`. -/
def hockSchittkowskiObjective (x₁ x₂ x₃ x₄ x₅ x₆ x₇ : α) : α :=
  square (x₁ - 10.0) + 5.0 * square (x₂ - 12.0) + fourth x₃ + 3.0 * square (x₄ - 11.0) +
    10.0 * sixth x₅ + 7.0 * square x₆ + fourth x₇ - 4.0 * x₆ * x₇ - 10.0 * x₆ - 8.0 * x₇

/-- The constraints of `hockSchittkowski100`. -/
def hockSchittkowskiConstraints (x₁ x₂ x₃ x₄ x₅ x₆ x₇ : α) : List α :=
  [127.0 - 2.0 * square x₁ - 3.0 * fourth x₂ - x₃ - 4.0 * square x₄ - 5.0 * x₅,
    282.0 - 7.0 * x₁ - 3.0 * x₂ - 10.0 * square x₃ - x₄ + x₅,
    196.0 - 23.0 * x₁ - square x₂ - 6.0 * square x₆ + 8.0 * x₇,
    -4.0 * square x₁ - square x₂ + 3.0 * x₁ * x₂ - 2.0 * square x₃ - 5.0 * x₆ + 11.0 * x₇]

/-- An objective of seven variables with four nonlinear constraints. -/
def hockSchittkowski100 : Benchmark M α where
  problem := constrained (Box.unbounded 7 (by decide))
    (fun x => hockSchittkowskiObjective (entry x 0) (entry x 1) (entry x 2) (entry x 3)
      (entry x 4) (entry x 5) (entry x 6))
    (fun x => hockSchittkowskiConstraints (entry x 0) (entry x 1) (entry x 2) (entry x 3)
      (entry x 4) (entry x 5) (entry x 6)) 4
  initials := [#v[1.0, 2.0, 0.0, 4.0, 0.0, 1.0, 1.0]]
  optima := [#v[2.330499, 1.951372, -0.4775414, 4.365726, -0.6244870, 1.038131, 1.594227]]

end DerivativeFree.Benchmark
