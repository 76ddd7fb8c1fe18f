import DerivativeFree.Proofs.Interpolation.Inverse
import DerivativeFree.Interpolation.Replacement

/-!
# Where the vertices lie

A simplex keeps its vertices as displacements from a pole that moves.  What a change of the
pole does to a vertex is said here in terms of the points themselves: `promote` and
`reverseInitial` exchange the pole with the end of one edge, together with their samples,
and leave all other vertices where they are.  Replacing an edge moves its end alone.
-/

namespace DerivativeFree

set_option autoImplicit false

/-- A vertex is the pole or the end of one of the edges up to `j`. -/
def Vertex.UpTo {n : Nat} (j : Fin n) (vertex : Vertex n) : Prop :=
  ∀ k, vertex = .edge k → k ≤ j

/-- The vertices can be listed. -/
instance Vertex.fintype (n : Nat) : Fintype (Vertex n) where
  elems := insert .pole (Finset.univ.image .edge)
  complete vertex := by
    cases vertex with
    | pole => exact Finset.mem_insert_self ..
    | edge j => exact Finset.mem_insert_of_mem (Finset.mem_image_of_mem _ (Finset.mem_univ j))

theorem Vertex.UpTo.swap {n : Nat} {j : Fin n} {vertex : Vertex n} (upTo : vertex.UpTo j) :
    (Equiv.swap .pole (.edge j) vertex).UpTo j := by
  intro k moved
  rw [Equiv.swap_apply_def] at moved
  split at moved
  case isTrue => exact (Vertex.edge.inj moved).ge
  case isFalse =>
    split at moved
    case isTrue => cases moved
    case isFalse => exact upTo k moved

namespace Simplex

variable {α : Type} [EuclideanField α] {n m : Nat} {simplex : Simplex α n m}

/-! ## Another pole -/

/-- A change of the pole exchanges two vertices, and no point is lost. -/
theorem point_promote (simplex : Simplex α n m) (j : Fin n) (vertex : Vertex n) :
    (simplex.promote j).point vertex = simplex.point (Equiv.swap .pole (.edge j) vertex) := by
  cases vertex with
  | pole =>
    rw [Equiv.swap_apply_left]
    rfl
  | edge k =>
    by_cases same : k = j
    · subst same
      rw [Equiv.swap_apply_right]
      refine vector_ext fun i => ?_
      simp [point, promote]
    · rw [Equiv.swap_apply_of_ne_of_ne (by simp) (by simpa using same)]
      refine vector_ext fun i => ?_
      simp [point, promote, same]

/-- The samples go with their points, whatever the scalars are. -/
theorem sample_promote {α : Type} [Scalar α] (simplex : Simplex α n m) (j : Fin n)
    (vertex : Vertex n) :
    (simplex.promote j).sample vertex = simplex.sample (Equiv.swap .pole (.edge j) vertex) := by
  cases vertex with
  | pole =>
    rw [Equiv.swap_apply_left]
    rfl
  | edge k =>
    have entry : (simplex.promote j).sample (.edge k) =
        if k = j then simplex.poleSample else simplex.samples.get k := get_set ..
    rw [entry]
    by_cases same : k = j
    · subst same
      rw [Equiv.swap_apply_right, if_pos rfl]
      rfl
    · rw [Equiv.swap_apply_of_ne_of_ne (by simp) (by simpa using same), if_neg same]
      rfl

/-- The points of the vertices with their samples, in no order. -/
def sampledPoints (simplex : Simplex α n m) : Multiset (Vector α n × Sample α m) :=
  Finset.univ.val.map fun vertex => (simplex.point vertex, simplex.sample vertex)

theorem sampledPoints_promote (simplex : Simplex α n m) (j : Fin n) :
    (simplex.promote j).sampledPoints = simplex.sampledPoints := by
  have exchanged := Multiset.map_univ_val_equiv (Equiv.swap (Vertex.pole) (Vertex.edge j))
  have moved := congrArg
    (Multiset.map fun vertex => (simplex.point vertex, simplex.sample vertex)) exchanged
  rw [Multiset.map_map] at moved
  simp only [sampledPoints, point_promote, sample_promote]
  exact moved

/-! ## An initial simplex -/

namespace Opening

variable {size : α} {j : Fin n}

/-- The next vertex lies on its axis. -/
theorem point_next (opening : simplex.Opening size j) :
    simplex.point (.edge j) = simplex.pole.set j (simplex.pole.get j + size) j.isLt := by
  refine vector_ext fun i => ?_
  rw [point, get_add, opening.edge_next, get_set]
  split
  case isTrue same => rw [same]
  case isFalse => rw [add_zero]

/-- A reversal exchanges the pole and the next vertex, and leaves the vertices before it
where they are. -/
theorem point_reverseInitial (opening : simplex.Opening size j) (sample : Sample α m)
    {vertex : Vertex n} (upTo : vertex.UpTo j) :
    (simplex.reverseInitial j (simplex.pole.get j + size) size sample).point vertex =
      simplex.point (Equiv.swap .pole (.edge j) vertex) := by
  cases vertex with
  | pole =>
    rw [Equiv.swap_apply_left, opening.point_next]
    rfl
  | edge k =>
    have before := upTo k rfl
    by_cases same : k = j
    · subst same
      rw [Equiv.swap_apply_right]
      refine vector_ext fun i => ?_
      simp only [point, Simplex.reverseInitial, get_add, Vector.get_ofFn, le_refl, if_true,
        get_set, opening.edge_next]
      split
      case isTrue here => rw [here, add_neg_cancel_right]
      case isFalse => rw [add_zero]
    · rw [Equiv.swap_apply_of_ne_of_ne (by simp) (by simpa using same)]
      refine vector_ext fun i => ?_
      simp only [point, Simplex.reverseInitial, get_add, Vector.get_ofFn, before, if_true, get_set]
      split
      case isTrue here =>
        rw [here, opening.edge_rest k j le_rfl, if_neg (Ne.symm same), add_neg_cancel_right,
          add_zero]
      case isFalse => rfl

end Opening

theorem sample_reverseInitial (simplex : Simplex α n m) (j k : Fin n) (coordinate size : α)
    (sample : Sample α m) :
    (simplex.reverseInitial j coordinate size sample).sample (.edge k) =
      if k = j then simplex.sample .pole else simplex.sample (.edge k) :=
  get_set ..

/-- The next sample goes to the next vertex, and that vertex may be exchanged with the pole.
The point from which the search goes on is the new pole. -/
theorem Opening.insertInitial_vertices {size : α} {j : Fin n}
    (opening : simplex.Opening size j) (sample : Sample α m) {x : Vector α n}
    (located : x = simplex.point (.edge j)) :
    (simplex.insertInitial j sample x size).2 =
        (simplex.insertInitial j sample x size).1.pole ∧
      ∃ exchange : Equiv.Perm (Vertex n), ∀ vertex, vertex.UpTo j →
        (exchange vertex).UpTo j ∧
          (simplex.insertInitial j sample x size).1.point vertex =
            simplex.point (exchange vertex) ∧
          (simplex.insertInitial j sample x size).1.sample vertex =
            if exchange vertex = .edge j then sample else simplex.sample (exchange vertex) := by
  have next : x = simplex.pole.set j (simplex.pole.get j + size) j.isLt :=
    located.trans opening.point_next
  rw [Simplex.insertInitial]
  split
  case isTrue =>
    refine ⟨?_, 1, fun vertex upTo => ⟨upTo, point_setSample .., ?_⟩⟩
    · refine vector_ext fun i => ?_
      simp only [next, get_set]
      split
      case isTrue here => exact here ▸ rfl
      case isFalse => rfl
    · by_cases own : vertex = .edge j
      · rw [own, sample_setSample_self]
        simp
      · rw [sample_setSample_of_ne _ (Ne.symm own)]
        simp [own]
  case isFalse =>
    have coordinate : x.get j = simplex.pole.get j + size := by rw [next, get_set_self]
    rw [coordinate]
    refine ⟨next, Equiv.swap .pole (.edge j), fun vertex upTo =>
      ⟨upTo.swap, opening.point_reverseInitial sample upTo, ?_⟩⟩
    cases vertex with
    | pole =>
      rw [Equiv.swap_apply_left, if_pos rfl]
      rfl
    | edge k =>
      rw [sample_reverseInitial]
      by_cases same : k = j
      · subst same
        rw [Equiv.swap_apply_right, if_pos rfl, if_neg (by simp)]
      · rw [Equiv.swap_apply_of_ne_of_ne (by simp) (by simpa using same), if_neg same,
          if_neg (by simpa using same)]

/-! ## Another edge -/

theorem point_replaceEdge (simplex : Simplex α n m) (j : Fin n) (step : Vector α n)
    (vertex : Vertex n) : (simplex.replaceEdge j step).point vertex =
      if vertex = .edge j then simplex.pole + step else simplex.point vertex := by
  cases vertex with
  | pole => simp [point, Simplex.replaceEdge]
  | edge k =>
    have edge : (simplex.replaceEdge j step).edges.get k =
        if k = j then step else simplex.edges.get k := get_set ..
    rw [point, edge]
    by_cases same : k = j
    · subst same
      simp [Simplex.replaceEdge]
    · simp [same, point, Simplex.replaceEdge]

theorem sample_replaceEdge (simplex : Simplex α n m) (j : Fin n) (step : Vector α n)
    (vertex : Vertex n) : (simplex.replaceEdge j step).sample vertex = simplex.sample vertex := by
  cases vertex <;> rfl

end Simplex

end DerivativeFree
