import DerivativeFree.Interpolation.Simplex

/-!
# The choice of the pole

The pole of a simplex should be its best vertex: the one with the least merit under the
current penalty.  As long as the penalty is zero, a violation does not enter the merit,
and of two vertices with the same merit the one with the smaller violation is better.

`dethroned` says whether another vertex is better than the pole, `best` finds the best
vertex, and `selectPole` makes it the pole.  The vertices stay where they are: only
which of them is the pole changes, and with it the edges.
-/

namespace DerivativeFree.Simplex

set_option autoImplicit false

variable {α : Type} [Scalar α] {n m : Nat}

/-- The merit of a vertex. -/
def merit (simplex : Simplex α n m) (penalty : α) (vertex : Vertex n) : α :=
  (simplex.sample vertex).merit penalty

/-- The violation at a vertex. -/
def violation (simplex : Simplex α n m) (vertex : Vertex n) : α :=
  (simplex.sample vertex).violation

/-- Whether a vertex wins a tie of merits against another one. -/
def winsTie (simplex : Simplex α n m) (penalty : α) (vertex other : Vertex n) : Bool :=
  penalty == 0 && decide (simplex.violation vertex < simplex.violation other)

/-- Whether a vertex other than the pole is better than the pole. -/
def dethroned (simplex : Simplex α n m) (penalty : α) : Bool :=
  (List.finRange n).any fun j =>
    decide (simplex.merit penalty (.edge j) < simplex.merit penalty .pole) ||
      simplex.merit penalty (.edge j) == simplex.merit penalty .pole &&
        simplex.winsTie penalty (.edge j) .pole

/-- The better of the best vertex so far, whose merit is `least`, and the end of edge
`j`, with the merit of the result. -/
def betterOf (simplex : Simplex α n m) (penalty : α) (best : Vertex n × α) (j : Fin n) :
    Vertex n × α :=
  let merit := simplex.merit penalty (.edge j)
  if merit < best.2 then (.edge j, merit)
  else if merit == best.2 && simplex.winsTie penalty (.edge j) best.1 then (.edge j, best.2)
  else best

/-- The best vertex, the pole being preferred to its equals and then an earlier edge to
a later one. -/
def best (simplex : Simplex α n m) (penalty : α) : Vertex n :=
  (Fin.foldl n (simplex.betterOf penalty) (.pole, simplex.merit penalty .pole)).1

/-- The row that the inverse gets for a reversed edge: minus the sum of all rows. -/
def oppositeRow (simplex : Simplex α n m) : Vector α n :=
  Vector.ofFn fun i =>
    Fin.foldl n (fun total k => total - (simplex.inverse.get k).get i) 0

/-- The simplex with the end of edge `j` as its pole.  Edge `j` is reversed, which
leads to the old pole, and the others are taken from the new pole. -/
def promote (simplex : Simplex α n m) (j : Fin n) : Simplex α n m where
  edges := Vector.ofFn fun k =>
    (if k = j then 0 else simplex.edges.get k) - simplex.edges.get j
  pole := simplex.pole + simplex.edges.get j
  inverse := simplex.inverse.set j simplex.oppositeRow j.isLt
  samples := simplex.samples.set j simplex.poleSample j.isLt
  poleSample := simplex.samples.get j

/-- The simplex with its best vertex as the pole, and the edge whose end that was, if it
was not the pole already. -/
def selectPole (simplex : Simplex α n m) (penalty : α) : Simplex α n m × Option (Fin n) :=
  match simplex.best penalty with
  | .pole => (simplex, none)
  | .edge j => (simplex.promote j, some j)

end DerivativeFree.Simplex
