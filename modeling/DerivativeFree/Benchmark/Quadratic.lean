import DerivativeFree.Benchmark.Basic

/-!
# Benchmarks with a sphere or a paraboloid

The sphere has its optimum in the origin, for any number of variables.  The shifted
paraboloid may be restricted to a box, whose point next to `(1, 2)` is then the optimum.
The half plane cuts the sphere with a linear constraint, and on the unit disk a linear
objective meets a quadratic constraint; both constraints are active in the optimum.
-/

namespace DerivativeFree.Benchmark

set_option autoImplicit false

variable {M : Type → Type} [Monad M] {α : Type} [Scalar α]

/-- The plane without bounds. -/
def plane : Box α 2 :=
  Box.unbounded 2 (by decide)

/-- The sum of the squares of `n` variables. -/
def sphere (n : Nat) (positive : 0 < n) : Benchmark M α where
  problem := constrained (Box.unbounded n positive)
    (fun {k} x => sumFrom 0 fun i : Fin k => square (x.get i)) (fun _ => []) 0
  initials := [Vector.ofFn fun i => if i.val % 2 = 0 then 10.0 else -10.0]
  optima := [0]

/-- The sum of the squares of `n` variables, or an error if there are none. -/
def sphere? (n : Nat) : Except BenchmarkError (Benchmark M α) :=
  if positive : 0 < n then .ok (sphere n positive) else .error .empty

/-- The paraboloid `(x - 1)² + (y - 2)²` in a box. -/
def shiftedParaboloid (box : Box α 2) : Benchmark M α where
  problem := constrained box
    (fun x => square (entry x 0 - 1.0) + square (entry x 1 - 2.0)) (fun _ => []) 0
  initials := [#v[0.0, 0.0]]
  optima := [(box.project #v[1.0, 2.0]).1]

/-- The paraboloid in a box, or an error if the box does not have two variables. -/
def shiftedParaboloid? {n : Nat} (box : Box α n) : Except BenchmarkError (Benchmark M α) :=
  if planar : n = 2 then .ok (shiftedParaboloid (planar ▸ box)) else .error .notPlanar

/-- The sphere restricted to `x + y ≥ 1`. -/
def halfPlane : Benchmark M α where
  problem := constrained plane
    (fun x => square (entry x 0) + square (entry x 1))
    (fun x => [entry x 0 + entry x 1 - 1.0]) 1
  initials := [#v[2.0, 2.0], #v[-1.0, 0.0]]
  optima := [#v[0.5, 0.5]]

/-- The objective `x + y` on the unit disk. -/
def unitDisk : Benchmark M α where
  problem := constrained plane
    (fun x => entry x 0 + entry x 1)
    (fun x => [1.0 - square (entry x 0) - square (entry x 1)]) 1
  initials := [#v[1.0, 1.0]]
  optima :=
    let coordinate : α := -0.707106781186547524400844362104849039
    [#v[coordinate, coordinate]]

end DerivativeFree.Benchmark
