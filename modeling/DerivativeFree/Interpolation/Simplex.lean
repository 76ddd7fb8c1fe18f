import DerivativeFree.Problem.Sample

/-!
# Simplices of interpolation points

A simplex has `n + 1` vertices.  One of them, the pole, is kept as a point; the others
are kept as edges, their displacements from the pole.  The inverse of the matrix of the
edges is kept as well and follows each change, so that no linear system is ever solved:
row `j` of `inverse` has inner product one with edge `j` and zero with the other edges.

A vertex also carries the sample found there.  `insertInitial` takes the samples of a
new simplex one by one, and `replaceEdge` moves a single vertex.
-/

namespace DerivativeFree

set_option autoImplicit false

/-- A simplex in `n` variables with samples of `m` constraints at its vertices. -/
structure Simplex (α : Type) (n m : Nat) where
  /-- The displacements of the other vertices from the pole. -/
  edges : Vector (Vector α n) n
  /-- The pole. -/
  pole : Vector α n
  /-- The rows of the inverse of the matrix whose columns are the edges. -/
  inverse : Vector (Vector α n) n
  /-- The samples at the ends of the edges. -/
  samples : Vector (Sample α m) n
  /-- The sample at the pole. -/
  poleSample : Sample α m

/-- A vertex of a simplex: the end of one of its edges, or the pole. -/
inductive Vertex (n : Nat) where
  /-- The end of an edge. -/
  | edge (j : Fin n)
  /-- The pole. -/
  | pole
  deriving Repr, DecidableEq

/-- The position of a vertex, the pole being the last one. -/
def Vertex.index {n : Nat} : Vertex n → Nat
  | .edge j => j
  | .pole => n

namespace Simplex

variable {α : Type} {n m : Nat}

/-! ## Vertices -/

/-- The sample at a vertex. -/
def sample (simplex : Simplex α n m) : Vertex n → Sample α m
  | .edge j => simplex.samples.get j
  | .pole => simplex.poleSample

/-- The simplex with the given sample at a vertex. -/
def setSample (simplex : Simplex α n m) (vertex : Vertex n) (sample : Sample α m) :
    Simplex α n m :=
  match vertex with
  | .edge j => { simplex with samples := simplex.samples.set j sample j.isLt }
  | .pole => { simplex with poleSample := sample }

theorem sample_setSample_self (simplex : Simplex α n m) (vertex : Vertex n)
    (sample : Sample α m) : (simplex.setSample vertex sample).sample vertex = sample := by
  cases vertex <;> simp [setSample, Simplex.sample, get_eq_getElem]

theorem sample_setSample_of_ne (simplex : Simplex α n m) {vertex other : Vertex n}
    (different : vertex ≠ other) (sample : Sample α m) :
    (simplex.setSample vertex sample).sample other = simplex.sample other := by
  cases vertex <;> cases other <;> simp_all [setSample, Simplex.sample, get_eq_getElem, Fin.ext_iff]

variable [Scalar α]

/-- The point at which a vertex lies. -/
def point (simplex : Simplex α n m) : Vertex n → Vector α n
  | .edge j => simplex.pole + simplex.edges.get j
  | .pole => simplex.pole

theorem point_setSample (simplex : Simplex α n m) (vertex other : Vertex n)
    (sample : Sample α m) :
    (simplex.setSample vertex sample).point other = simplex.point other := by
  cases vertex <;> cases other <;> rfl

/-! ## The initial simplex -/

/-- The simplex with its pole in `x`, edges of length `size` along the axes and samples
of zeros. -/
def axisAligned (x : Vector α n) (size : α) (m : Nat) : Simplex α n m where
  edges := diagonal n size
  pole := x
  inverse := diagonal n (1 / size)
  samples := Vector.replicate n (Sample.zero m)
  poleSample := Sample.zero m

/-- Row `j` of the inverse after `reverseInitial`: minus the sum of the rows up to `j`,
in the columns up to `j`. -/
def reversedRow (simplex : Simplex α n m) (j : Fin n) : Vector α n :=
  Vector.ofFn fun k =>
    if k ≤ j then
      Fin.foldl n (fun total i =>
        if k ≤ i ∧ i ≤ j then total - (simplex.inverse.get i).get k else total) 0
    else (simplex.inverse.get j).get k

/-- The simplex with the pole moved along edge `j` of an initial simplex, whose edges
beyond `j` have not been sampled yet.  The samples of the two vertices change places.
The first edges now run back to the start, along the axes up to `j`. -/
def reverseInitial (simplex : Simplex α n m) (j : Fin n) (coordinate size : α)
    (sample : Sample α m) : Simplex α n m where
  edges := Vector.ofFn fun k =>
    if k ≤ j then (simplex.edges.get k).set j (-size) j.isLt else simplex.edges.get k
  pole := simplex.pole.set j coordinate j.isLt
  inverse := simplex.inverse.set j (simplex.reversedRow j) j.isLt
  samples := simplex.samples.set j simplex.poleSample j.isLt
  poleSample := sample

/-- Takes the sample at `x`, which is the pole moved by `size` in coordinate `j`, into
a simplex that is being set up.  If the objective is better there than in the pole, `x`
becomes the pole; otherwise `x` is moved back.  Returns also the point from which the
next one is reached. -/
def insertInitial (simplex : Simplex α n m) (j : Fin n) (sample : Sample α m)
    (x : Vector α n) (size : α) : Simplex α n m × Vector α n :=
  if simplex.poleSample.objective ≤ sample.objective then
    (simplex.setSample (.edge j) sample, x.set j (simplex.pole.get j) j.isLt)
  else (simplex.reverseInitial j (x.get j) size sample, x)

/-! ## Replacement of a vertex -/

/-- The simplex with edge `j` replaced by `step`.  Row `j` of the inverse is divided by
its inner product with the step, and the other rows lose their component along it. -/
def replaceEdge (simplex : Simplex α n m) (j : Fin n) (step : Vector α n) : Simplex α n m :=
  let pivot := dot (simplex.inverse.get j) step
  let row := (simplex.inverse.get j).map (· / pivot)
  { simplex with
    edges := simplex.edges.set j step j.isLt
    inverse := Vector.ofFn fun i =>
      if i = j then row else simplex.inverse.get i - dot (simplex.inverse.get i) step * row }

/-- The simplex with vertex `j` replaced by the point at `step` from the pole. -/
def replaceVertex (simplex : Simplex α n m) (j : Fin n) (step : Vector α n)
    (sample : Sample α m) : Simplex α n m :=
  (simplex.replaceEdge j step).setSample (.edge j) sample

/-- The greatest deviation of the product of the inverse and the matrix of the edges
from the identity. -/
def inverseError (simplex : Simplex α n m) : α :=
  Fin.foldl n (fun error i =>
    largestFrom error fun j : Fin n =>
      Scalar.abs (dot (simplex.inverse.get i) (simplex.edges.get j) - if i = j then 1 else 0)) 0

end Simplex

end DerivativeFree
