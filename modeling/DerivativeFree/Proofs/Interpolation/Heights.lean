import DerivativeFree.Proofs.Interpolation.Pivot
import DerivativeFree.Proofs.Interpolation.Vertices

/-!
# Heights and volumes

The height of a vertex is its distance from the opposite face, the flat through all other
vertices (`HasHeight`).  A shape takes it from the inverse instead, as the reciprocal of the length
of a row; as long as the inverse is exact, the row is a normal of that face, and the two agree
(`HasInverse.hasHeight`).

If an edge is replaced, one inner product tells the whole effect.  It is the factor by which the
height of that vertex changes (`height_replaceEdge`) and also the factor by which the volume of the
simplex does (`volume_replaceEdge`).  So the heights that are foreseen for the vertices that a
trial point may replace are the true ones.

An edge that is laid along the normal of the opposite face is as long as its end is high.  This is
how a bad shape is improved: either the number of the edges that are too long becomes less, or the
volume more than doubles (`Improved`).
-/

namespace DerivativeFree

set_option autoImplicit false

variable {α : Type} [EuclideanField α] {n m : Nat}

namespace Simplex

variable {simplex : Simplex α n m}

theorem distanceFrom_eq (x y : Vector α n) : distanceFrom x y = lengthOf (x - y) := by
  simp only [distanceFrom, lengthOf, dot, get_sub]

theorem lengths_get (simplex : Simplex α n m) (j : Fin n) :
    (Shape.of simplex).lengths.get j = lengthOf (simplex.edges.get j) :=
  get_map ..

theorem heights_get (simplex : Simplex α n m) (j : Fin n) :
    (Shape.of simplex).heights.get j = 1 / lengthOf (simplex.inverse.get j) :=
  get_map ..

/-! ## Faces -/

/-- The face opposite to the end of edge `j`: the flat through the pole and the ends of all other
edges. -/
def face (simplex : Simplex α n m) (j : Fin n) : Set (Vector α n) :=
  {x | ∃ weights : Fin n → α, weights j = 0 ∧
    ∀ i, x.get i = simplex.pole.get i + ∑ k, weights k * (simplex.edges.get k).get i}

theorem point_mem_face {vertex : Vertex n} {j : Fin n} (other : vertex ≠ .edge j) :
    simplex.point vertex ∈ simplex.face j := by
  cases vertex with
  | pole => exact ⟨0, rfl, fun i => by simp [point]⟩
  | edge k =>
    have different : j ≠ k := fun same => other (congrArg Vertex.edge same.symm)
    refine ⟨Pi.single k 1, Pi.single_eq_of_ne different 1, fun i => ?_⟩
    simp [point, Pi.single_apply]

/-- Every vector is a combination of the edges, and the rows of the inverse give its weights. -/
theorem HasInverse.expand (exact : simplex.HasInverse) (v : Vector α n) (i : Fin n) :
    v.get i = ∑ k, dot (simplex.inverse.get k) v * (simplex.edges.get k).get i := by
  have right : simplex.edgeMatrix * simplex.inverseMatrix = 1 :=
    mul_eq_one_comm.mp (hasInverse_iff.mp exact)
  have rows : simplex.inverseMatrix.mulVec v.get = fun k => dot (simplex.inverse.get k) v := by
    funext k
    rw [dot_eq_sum]
    rfl
  have same : v.get = simplex.edgeMatrix.mulVec fun k => dot (simplex.inverse.get k) v := by
    rw [← rows, Matrix.mulVec_mulVec, right, Matrix.one_mulVec]
  rw [congrFun same i, Matrix.mulVec, dotProduct]
  exact Finset.sum_congr rfl fun k _ => mul_comm ..

/-- A row of the inverse is a normal of the opposite face. -/
theorem HasInverse.mem_face_iff (exact : simplex.HasInverse) {j : Fin n} {x : Vector α n} :
    x ∈ simplex.face j ↔ dot (simplex.inverse.get j) (x - simplex.pole) = 0 := by
  constructor
  · rintro ⟨weights, none, place⟩
    have offset : ∀ i, (x - simplex.pole).get i =
        ∑ k, weights k * (simplex.edges.get k).get i := by
      intro i
      rw [get_sub, place, add_sub_cancel_left]
    have term : ∀ k, ∑ i, (simplex.inverse.get j).get i *
        (weights k * (simplex.edges.get k).get i) = 0 := by
      intro k
      simp only [mul_left_comm, ← Finset.mul_sum, ← dot_eq_sum, exact j k]
      split
      case isTrue same => rw [← same, none, zero_mul]
      case isFalse => rw [mul_zero]
    simp only [dot_eq_sum, offset, Finset.mul_sum]
    rw [Finset.sum_comm]
    exact Finset.sum_eq_zero fun k _ => term k
  · intro orthogonal
    refine ⟨fun k => dot (simplex.inverse.get k) (x - simplex.pole), orthogonal, fun i => ?_⟩
    rw [← exact.expand, get_sub, add_sub_cancel]

/-- The number is the distance of the end of edge `j` from the opposite face. -/
def HasHeight (simplex : Simplex α n m) (j : Fin n) (height : α) : Prop :=
  IsLeast (distanceFrom (simplex.point (.edge j)) '' simplex.face j) height

/-- **The reciprocal of the length of a row of the inverse is the height of the vertex.** -/
theorem HasInverse.hasHeight (exact : simplex.HasInverse) (j : Fin n) :
    simplex.HasHeight j ((Shape.of simplex).heights.get j) := by
  have positive := lengthOf_pos (exact.row_ne_zero j)
  have square := lengthOf_mul_self (simplex.inverse.get j)
  have unit : dot (simplex.inverse.get j) (simplex.edges.get j) = 1 := by rw [exact, if_pos rfl]
  rw [heights_get]
  constructor
  · -- The foot of the perpendicular from the vertex.
    have shorter : 1 / dot (simplex.inverse.get j) (simplex.inverse.get j) *
        dot (simplex.inverse.get j) (simplex.inverse.get j) = 1 :=
      one_div_mul_cancel (square ▸ (mul_pos positive positive).ne')
    refine ⟨simplex.point (.edge j) - (1 / dot (simplex.inverse.get j) (simplex.inverse.get j)) *
      simplex.inverse.get j, exact.mem_face_iff.mpr ?_, ?_⟩
    · rw [dot_sub, dot_sub, dot_smul, shorter, point, dot_add, unit]
      ring
    · have back : ∀ x v : Vector α n, x - (x - v) = v := fun x v =>
        vector_ext fun i => by rw [get_sub, get_sub, sub_sub_cancel]
      rw [distanceFrom_eq, back, lengthOf_smul, ← square, abs_of_pos (by positivity)]
      field_simp
  · rintro _ ⟨x, inside, rfl⟩
    have across : dot (simplex.inverse.get j) (simplex.point (.edge j) - x) = 1 := by
      have level := exact.mem_face_iff.mp inside
      rw [dot_sub] at level
      rw [dot_sub, point, dot_add, unit]
      linarith
    have bound := abs_dot_le (simplex.inverse.get j) (simplex.point (.edge j) - x)
    rw [across, abs_one, ← distanceFrom_eq] at bound
    exact (div_le_iff₀' positive).mpr bound

/-! ## Another edge -/

/-- The volume that the edges span. -/
def volume (simplex : Simplex α n m) : α :=
  |simplex.edgeMatrix.det|

theorem HasInverse.volume_pos (exact : simplex.HasInverse) : 0 < simplex.volume :=
  abs_pos.mpr exact.eq_inv.2

theorem edges_replaceEdge (simplex : Simplex α n m) (j k : Fin n) (step : Vector α n) :
    (simplex.replaceEdge j step).edges.get k = if k = j then step else simplex.edges.get k :=
  get_set ..

theorem edgeMatrix_replaceEdge (simplex : Simplex α n m) (j : Fin n) (step : Vector α n) :
    (simplex.replaceEdge j step).edgeMatrix = simplex.edgeMatrix.updateCol j step.get := by
  ext i k
  rw [Matrix.updateCol_apply, edgeMatrix, Matrix.of_apply, edges_replaceEdge]
  split
  · rfl
  · rfl

/-- **The volume changes by the factor of the pivot.** -/
theorem HasInverse.volume_replaceEdge (exact : simplex.HasInverse) (j : Fin n)
    (step : Vector α n) : (simplex.replaceEdge j step).volume =
      |dot (simplex.inverse.get j) step| * simplex.volume := by
  -- By the rule of Cramer, the determinants with one column replaced solve a linear system.
  have cramer : simplex.edgeMatrix.cramer step.get =
      simplex.edgeMatrix.det • simplex.inverseMatrix.mulVec step.get := by
    rw [← Matrix.mulVec_smul, ← Matrix.mulVec_cramer, Matrix.mulVec_mulVec,
      hasInverse_iff.mp exact, Matrix.one_mulVec]
  have pivot : simplex.inverseMatrix.mulVec step.get j = dot (simplex.inverse.get j) step := by
    rw [dot_eq_sum]
    rfl
  have column := congrFun cramer j
  rw [Matrix.cramer_apply, Pi.smul_apply, pivot, smul_eq_mul] at column
  rw [volume, edgeMatrix_replaceEdge, column, abs_mul, mul_comm, volume]

/-- **The height of the replaced vertex changes by the factor of the pivot.** -/
theorem height_replaceEdge (simplex : Simplex α n m) (j : Fin n) (step : Vector α n) :
    (Shape.of (simplex.replaceEdge j step)).heights.get j =
      |dot (simplex.inverse.get j) step| * (Shape.of simplex).heights.get j := by
  have row : (simplex.replaceEdge j step).inverse.get j =
      (1 / dot (simplex.inverse.get j) step) * simplex.inverse.get j := by
    simp only [Simplex.replaceEdge, Vector.get_ofFn, if_true]
    apply vector_ext
    intro i
    rw [get_map, get_smul, one_div_mul_eq_div]
  rw [heights_get, heights_get, row, lengthOf_smul, abs_one_div]
  field_simp

/-- **The height that is foreseen for a replaced vertex is the one that it gets.** -/
theorem heights_replaceVertex (simplex : Simplex α n m) (j : Fin n) (step : Vector α n)
    (sample : Sample α m) :
    (Shape.of (simplex.replaceVertex j step sample)).heights.get j =
      (simplex.heightsAfter (Shape.of simplex) step).get j :=
  (simplex.height_replaceEdge j step).trans (simplex.heightsAfter_get _ step j).symm

/-- A replaced vertex keeps some height, unless the new point is an improvement and the vertex was
chosen for the volume that is gained. -/
theorem HasInverse.min_le_heightsAfter (exact : simplex.HasInverse) {step : Vector α n}
    {radius reduction : α} {j : Fin n}
    (replaced : simplex.replaced (Shape.of simplex) step radius reduction = some j)
    (guarded : reduction ≤ 0 ∨
      simplex.farVertex (Shape.of simplex) step radius (0 < reduction) = some j) :
    min (Shape.heightFactor * radius) ((Shape.of simplex).heights.get j) ≤
      (simplex.heightsAfter (Shape.of simplex) step).get j := by
  have far : simplex.farVertex (Shape.of simplex) step radius (0 < reduction) = some j →
      min (Shape.heightFactor * radius) ((Shape.of simplex).heights.get j) ≤
        (simplex.heightsAfter (Shape.of simplex) step).get j := by
    intro chosen
    have eligible := (Shape.greatestAbove_some chosen).1
    rw [Bool.or_eq_true, decide_eq_true_eq, decide_eq_true_eq] at eligible
    rcases eligible with high | grown
    · exact (min_le_left _ _).trans high
    · exact (min_le_right _ _).trans grown
  rcases guarded with worse | chosen
  · rw [Simplex.replaced, Option.or_eq_some_iff] at replaced
    rcases replaced with chosen | ⟨-, flat⟩
    · exact far chosen
    · -- The volume grows, and the height with it.
      have gain := (Shape.greatestAbove_some flat).2
      rw [if_pos worse, volumeFactors, get_map, abs_exact] at gain
      rw [heightsAfter_get]
      exact (min_le_right _ _).trans (le_mul_of_one_le_left (exact.height_pos j).le gain.le)
  · exact far chosen

/-! ## The vertex that is moved -/

/-- The edges that are longer than a cap. -/
def overlong (simplex : Simplex α n m) (cap : α) : Finset (Fin n) :=
  Finset.univ.filter fun k => cap < (Shape.of simplex).lengths.get k

theorem mem_overlong {cap : α} {k : Fin n} :
    k ∈ simplex.overlong cap ↔ cap < (Shape.of simplex).lengths.get k := by
  simp only [overlong, Finset.mem_filter, Finset.mem_univ, true_and]

/-- The simplex `after` is the one `before` with vertex `j` moved to improve the shape. -/
structure Improved (before after : Simplex α n m) (j : Fin n) (radius : α) : Prop where
  /-- The new edge has the intended length. -/
  length : (Shape.of after).lengths.get j = Shape.renewalFactor * radius
  /-- It is orthogonal to the differences of the other vertices. -/
  orthogonal : ∀ v w : Vertex n, v ≠ .edge j → w ≠ .edge j →
    dot (after.edges.get j) (after.point v - after.point w) = 0
  /-- The vertex has the intended height. -/
  height : after.HasHeight j (Shape.renewalFactor * radius)
  /-- The pole stays. -/
  pole : after.pole = before.pole
  /-- The other edges stay. -/
  edges : ∀ k, k ≠ j → after.edges.get k = before.edges.get k
  /-- The volume changes as the height of the vertex does. -/
  volume : after.volume =
    Shape.renewalFactor * radius / (Shape.of before).heights.get j * before.volume
  /-- If no edge was too long, the volume more than doubles. -/
  doubles : before.overlong (Shape.lengthFactor * radius) = ∅ → 2 * before.volume < after.volume
  /-- Otherwise one edge less is too long. -/
  shortens : before.overlong (Shape.lengthFactor * radius) ≠ ∅ →
    (after.overlong (Shape.lengthFactor * radius)).card + 1 =
      (before.overlong (Shape.lengthFactor * radius)).card

/-- The vertices of the opposite face differ by vectors that are orthogonal to its normal. -/
theorem HasInverse.dot_difference (exact : simplex.HasInverse) {j : Fin n} {v w : Vertex n}
    (left : v ≠ .edge j) (right : w ≠ .edge j) :
    dot (simplex.inverse.get j) (simplex.point v - simplex.point w) = 0 := by
  have first := exact.mem_face_iff.mp (point_mem_face left)
  have second := exact.mem_face_iff.mp (point_mem_face right)
  rw [dot_sub] at first second ⊢
  linarith

/-- The pivot of an edge of the given size along the normal. -/
theorem HasInverse.abs_pivot (exact : simplex.HasInverse) {j : Fin n} {c size : α}
    (scaled : |c| = size * (Shape.of simplex).heights.get j) :
    lengthOf (c * simplex.inverse.get j) = size ∧
      |dot (simplex.inverse.get j) (c * simplex.inverse.get j)| =
        size / (Shape.of simplex).heights.get j := by
  have positive := lengthOf_pos (exact.row_ne_zero j)
  rw [heights_get] at scaled ⊢
  constructor
  · rw [lengthOf_smul, scaled]
    field_simp
  · rw [dot_smul, abs_mul, scaled, ← lengthOf_mul_self, abs_of_pos (mul_pos positive positive)]
    field_simp

/-- If no edge is too long, the worst vertex of an unacceptable shape is too low. -/
theorem height_lt_of_worst {shape : Shape α n} {floor cap : α} {j : Fin n}
    (spoilt : shape.acceptable floor cap = false) (worst : shape.worst cap = some j)
    (short : ∀ k, shape.lengths.get k ≤ cap) : shape.heights.get j < floor := by
  rcases Shape.worst_some worst with long | ⟨-, least⟩
  · exact absurd long (not_lt.mpr (short j))
  · obtain ⟨k, low | long⟩ := Shape.exists_of_not_acceptable spoilt
    · exact (least k).trans_lt low
    · exact absurd long (not_lt.mpr (short k))

/-- A new edge that is not too long takes one from the edges that are. -/
theorem overlong_replaceEdge {j : Fin n} {step : Vector α n} {cap : α}
    (fits : lengthOf step ≤ cap) :
    (simplex.replaceEdge j step).overlong cap = (simplex.overlong cap).erase j := by
  ext k
  rw [Finset.mem_erase, mem_overlong, mem_overlong, lengths_get, lengths_get, edges_replaceEdge]
  by_cases same : k = j
  · simp only [same, if_true, not_lt.mpr fits, ne_eq, not_true, false_and]
  · simp only [same, if_false, ne_eq, not_false_iff, true_and]

/-- **An edge along the normal of the opposite face improves the shape.** -/
theorem HasInverse.improved (exact : simplex.HasInverse) {radius : α} (positive : 0 < radius)
    {j : Fin n} {c : α}
    (scaled : |c| = Shape.renewalFactor * radius * (Shape.of simplex).heights.get j)
    (spoilt : (Shape.of simplex).acceptable (Shape.heightFactor * radius)
      (Shape.lengthFactor * radius) = false)
    (worst : (Shape.of simplex).worst (Shape.lengthFactor * radius) = some j) :
    simplex.Improved (simplex.replaceEdge j (c * simplex.inverse.get j)) j radius := by
  obtain ⟨length, pivot⟩ := exact.abs_pivot scaled
  have high := exact.height_pos j
  have size : 0 < Shape.renewalFactor * radius :=
    mul_pos (by norm_num [Shape.renewalFactor]) positive
  have moves : dot (simplex.inverse.get j) (c * simplex.inverse.get j) ≠ 0 :=
    abs_pos.mp (pivot ▸ div_pos size high)
  have edge : (simplex.replaceEdge j (c * simplex.inverse.get j)).edges.get j =
      c * simplex.inverse.get j := by rw [edges_replaceEdge, if_pos rfl]
  have volume : (simplex.replaceEdge j (c * simplex.inverse.get j)).volume =
      Shape.renewalFactor * radius / (Shape.of simplex).heights.get j * simplex.volume := by
    rw [exact.volume_replaceEdge, pivot]
  refine ⟨?_, fun v w left right => ?_, ?_, rfl, fun k other => ?_, volume, fun none => ?_,
    fun some => ?_⟩
  · rw [lengths_get, edge, length]
  · rw [edge, point_replaceEdge, point_replaceEdge, if_neg left, if_neg right, smul_dot,
      exact.dot_difference left right, mul_zero]
  · have height := (exact.replaceEdge moves).hasHeight j
    rwa [height_replaceEdge, pivot, div_mul_cancel₀ _ high.ne'] at height
  · rw [edges_replaceEdge, if_neg other]
  · have short : ∀ k, (Shape.of simplex).lengths.get k ≤ Shape.lengthFactor * radius := by
      intro k
      exact not_lt.mp fun long => Finset.notMem_empty k (none ▸ mem_overlong.mpr long)
    have low := height_lt_of_worst spoilt worst short
    rw [volume]
    refine mul_lt_mul_of_pos_right ((lt_div_iff₀ high).mpr ?_) exact.volume_pos
    norm_num [Shape.heightFactor, Shape.renewalFactor] at low ⊢
    linarith
  · have long : j ∈ simplex.overlong (Shape.lengthFactor * radius) := by
      rcases Shape.worst_some worst with long | ⟨short, -⟩
      · exact mem_overlong.mpr long
      · obtain ⟨k, inside⟩ := Finset.nonempty_iff_ne_empty.mpr some
        exact absurd (mem_overlong.mp inside) (not_lt.mpr (short k))
    have fits : lengthOf (c * simplex.inverse.get j) ≤ Shape.lengthFactor * radius := by
      rw [length]
      refine mul_le_mul_of_nonneg_right ?_ positive.le
      norm_num [Shape.renewalFactor, Shape.lengthFactor]
    rw [overlong_replaceEdge fits, Finset.card_erase_add_one long]

end Simplex

end DerivativeFree
