import DerivativeFree.Proofs.Exact.Vector
import DerivativeFree.Interpolation.Pole

/-!
# The inverse of the edges

A simplex keeps the inverse of the matrix of its edges and never solves a linear system.
In exact arithmetic the rows of that inverse stay dual to the edges (`HasInverse`): row
`i` has inner product one with edge `i` and zero with the others.  This is shown for
each of the four ways in which the edges change.

The simplex that a search starts with is built up vertex by vertex.  While this goes on,
the edges and the inverse are lower triangular, and from the next vertex on they are still
those of the axes (`Opening`).  Reversing an edge then subtracts a partial sum of the rows
(`Opening.reverseInitial`).  Once the simplex is complete, the pole changes by `promote`,
which subtracts the sum of all rows (`HasInverse.promote`), and one edge is replaced by a
correction of rank one (`HasInverse.replaceEdge`), which needs a pivot that is not zero.
-/

namespace DerivativeFree.Simplex

set_option autoImplicit false

variable {α : Type} [EuclideanField α] {n m : Nat} {simplex : Simplex α n m}

/-! ## Two matrices -/

/-- The matrix whose columns are the edges. -/
def edgeMatrix (simplex : Simplex α n m) : Matrix (Fin n) (Fin n) α :=
  Matrix.of fun i j => (simplex.edges.get j).get i

/-- The matrix that is kept as the inverse. -/
def inverseMatrix (simplex : Simplex α n m) : Matrix (Fin n) (Fin n) α :=
  Matrix.of fun i j => (simplex.inverse.get i).get j

/-- The rows of the inverse are dual to the edges. -/
def HasInverse (simplex : Simplex α n m) : Prop :=
  ∀ i j, dot (simplex.inverse.get i) (simplex.edges.get j) = if i = j then 1 else 0

theorem hasInverse_iff :
    simplex.HasInverse ↔ simplex.inverseMatrix * simplex.edgeMatrix = 1 := by
  rw [← Matrix.ext_iff]
  simp only [HasInverse, dot_eq_sum, Matrix.mul_apply, Matrix.one_apply, inverseMatrix,
    edgeMatrix, Matrix.of_apply]

/-- **The inverse is an inverse from both sides.** -/
theorem HasInverse.eq_inv (exact : simplex.HasInverse) :
    simplex.inverseMatrix = simplex.edgeMatrix⁻¹ ∧ simplex.edgeMatrix.det ≠ 0 := by
  have left := hasInverse_iff.mp exact
  refine ⟨(Matrix.inv_eq_left_inv left).symm, fun zero => ?_⟩
  have determinants := congrArg Matrix.det left
  rw [Matrix.det_mul, zero, mul_zero, Matrix.det_one] at determinants
  exact zero_ne_one determinants

/-- A row of an inverse is not zero. -/
theorem HasInverse.row_ne_zero (exact : simplex.HasInverse) (j : Fin n) :
    simplex.inverse.get j ≠ 0 := by
  intro zero
  have unit := exact j j
  rw [zero, dot_comm, dot_zero, if_pos rfl] at unit
  exact zero_ne_one unit

/-- A vector that is orthogonal to all rows of an inverse is zero. -/
theorem HasInverse.eq_zero_of_orthogonal (exact : simplex.HasInverse) {v : Vector α n}
    (orthogonal : ∀ k, dot (simplex.inverse.get k) v = 0) : v = 0 := by
  have right : simplex.edgeMatrix * simplex.inverseMatrix = 1 :=
    mul_eq_one_comm.mp (hasInverse_iff.mp exact)
  have rows : simplex.inverseMatrix.mulVec v.get = 0 := by
    funext k
    rw [Matrix.mulVec, Pi.zero_apply, ← orthogonal k, dot_eq_sum]
    rfl
  have same : v.get = 0 := by
    rw [← Matrix.one_mulVec v.get, ← right, ← Matrix.mulVec_mulVec, rows, Matrix.mulVec_zero]
  exact vector_ext fun i => (congrFun same i).trans (get_zero i).symm

/-- There is nothing for a check of the inverse to find. -/
theorem HasInverse.inverseError (exact : simplex.HasInverse) : simplex.inverseError = 0 := by
  have none : ∀ k (error : α), 0 ≤ error → error ≤ 0 → ∀ rows : Fin k → Fin n,
      Fin.foldl k (fun error i => largestFrom error fun j : Fin n => Scalar.abs
        (dot (simplex.inverse.get (rows i)) (simplex.edges.get j) -
          if rows i = j then 1 else 0)) error = 0 := by
    intro k
    induction k with
    | zero =>
      intro error nonneg small rows
      rw [Fin.foldl_zero]
      exact le_antisymm small nonneg
    | succ k ih =>
      intro error nonneg small rows
      rw [Fin.foldl_succ]
      refine ih _ ?_ ?_ fun i => rows i.succ
      · exact nonneg.trans (start_le_largestFrom ..)
      · refine largestFrom_le_iff.mpr ⟨small, fun j => ?_⟩
        rw [exact, sub_self, abs_exact, abs_zero]
  exact none n 0 le_rfl le_rfl id

theorem HasInverse.setSample (exact : simplex.HasInverse) (vertex : Vertex n)
    (sample : Sample α m) : (simplex.setSample vertex sample).HasInverse := by
  cases vertex <;> exact exact

/-! ## Setting up -/

/-- A simplex that is being set up: the vertices before `next` may have been exchanged with
the pole, the others are still on the axes. -/
structure Opening (simplex : Simplex α n m) (size : α) (next : Nat) : Prop where
  edge_below : ∀ k i : Fin n, i < k → (simplex.edges.get k).get i = 0
  edge_rest : ∀ k i : Fin n, next ≤ i.val →
    (simplex.edges.get k).get i = if i = k then size else 0
  row_below : ∀ i k : Fin n, i < k → (simplex.inverse.get i).get k = 0
  row_rest : ∀ i k : Fin n, next ≤ i.val →
    (simplex.inverse.get i).get k = if i = k then 1 / size else 0
  exact : simplex.HasInverse

theorem opening_axisAligned (m : Nat) (x : Vector α n) {size : α} (nonzero : size ≠ 0) :
    (axisAligned x size m).Opening size 0 where
  edge_below k i below := by simp [axisAligned, below.ne']
  edge_rest k i _ := by simp [axisAligned, eq_comm]
  row_below i k below := by simp [axisAligned, below.ne]
  row_rest i k _ := by simp [axisAligned]
  exact i j := by simp [axisAligned, dot_eq_sum, nonzero]

namespace Opening

variable {size : α} {next : Nat}

theorem mono (opening : simplex.Opening size next) {later : Nat} (le : next ≤ later) :
    simplex.Opening size later where
  edge_below := opening.edge_below
  edge_rest k i after := opening.edge_rest k i (le.trans after)
  row_below := opening.row_below
  row_rest i k after := opening.row_rest i k (le.trans after)
  exact := opening.exact

theorem setSample (opening : simplex.Opening size next) (vertex : Vertex n)
    (sample : Sample α m) : (simplex.setSample vertex sample).Opening size next := by
  cases vertex <;> exact ⟨opening.edge_below, opening.edge_rest, opening.row_below,
    opening.row_rest, opening.exact⟩

/-- The next edge runs along its axis. -/
theorem edge_next {j : Fin n} (opening : simplex.Opening size j) (i : Fin n) :
    (simplex.edges.get j).get i = if i = j then size else 0 := by
  rcases lt_or_ge i j with before | after
  · rw [opening.edge_below j i before, if_neg before.ne]
  · exact opening.edge_rest j i after

/-- The reversed row is minus the sum of the rows up to it, in every column. -/
theorem reversedRow_get {j : Fin n} (opening : simplex.Opening size j) (k : Fin n) :
    (simplex.reversedRow j).get k =
      -∑ i, if i ≤ j then (simplex.inverse.get i).get k else 0 := by
  have term : ∀ i : Fin n, (if k ≤ i ∧ i ≤ j then (simplex.inverse.get i).get k else 0) =
      if i ≤ j then (simplex.inverse.get i).get k else 0 := by
    intro i
    rcases lt_or_ge i k with before | after
    · simp [opening.row_below i k before]
    · simp [after]
  have step : ∀ (total : α) (i : Fin n),
      (if k ≤ i ∧ i ≤ j then total - (simplex.inverse.get i).get k else total) =
        total - if i ≤ j then (simplex.inverse.get i).get k else 0 := by
    intro total i
    rw [← term i]
    split <;> simp
  simp only [reversedRow, Vector.get_ofFn, step, foldl_sub_eq_sum, zero_sub]
  split
  case isTrue => rfl
  case isFalse beyond =>
    have zero : ∀ i : Fin n, (if i ≤ j then (simplex.inverse.get i).get k else 0) = 0 := by
      intro i
      split
      case isTrue upto => exact opening.row_below i k (upto.trans_lt (not_le.mp beyond))
      case isFalse => rfl
    simp [zero, opening.row_below j k (not_le.mp beyond)]

theorem dot_reversedRow {j : Fin n} (opening : simplex.Opening size j) (v : Vector α n) :
    dot (simplex.reversedRow j) v =
      -∑ i, if i ≤ j then dot (simplex.inverse.get i) v else 0 := by
  have column : ∀ k : Fin n, (simplex.reversedRow j).get k * v.get k =
      -∑ i, if i ≤ j then (simplex.inverse.get i).get k * v.get k else 0 := by
    intro k
    rw [opening.reversedRow_get, neg_mul, Finset.sum_mul]
    simp only [ite_mul, zero_mul]
  simp only [dot_eq_sum, column, Finset.sum_neg_distrib, neg_inj]
  rw [Finset.sum_comm]
  refine Finset.sum_congr rfl fun i _ => ?_
  split <;> simp

/-- The rows other than the next one do not see that the first edges have been moved along
the next axis. -/
theorem dot_reversed_edge {j : Fin n} (opening : simplex.Opening size j) {i : Fin n}
    (other : i ≠ j) (k : Fin n) (value : α) :
    dot (simplex.inverse.get i) ((simplex.edges.get k).set j value j.isLt) =
      if i = k then 1 else 0 := by
  have blind : (simplex.inverse.get i).get j = 0 := by
    rcases lt_or_ge i j with before | after
    · exact opening.row_below i j before
    · rw [opening.row_rest i j after, if_neg other]
  rw [dot_set, blind, zero_mul, add_zero]
  exact opening.exact i k

/-- The next row reads the next coordinate alone. -/
theorem dot_next_row {j : Fin n} (opening : simplex.Opening size j) (v : Vector α n) :
    dot (simplex.inverse.get j) v = 1 / size * v.get j := by
  have term : ∀ k : Fin n, (simplex.inverse.get j).get k * v.get k =
      if j = k then 1 / size * v.get j else 0 := by
    intro k
    rw [opening.row_rest j k le_rfl]
    by_cases same : j = k
    · subst same
      simp
    · simp [same]
  simp [dot_eq_sum, term]

/-- The reversed row is dual to the edges that have been reversed along with it. -/
theorem dot_reversedRow_upto {j k : Fin n} (opening : simplex.Opening size j)
    (nonzero : size ≠ 0) (upto : k ≤ j) :
    dot (simplex.reversedRow j) ((simplex.edges.get k).set j (-size) j.isLt) =
      if j = k then 1 else 0 := by
  have term : ∀ i : Fin n,
      (if i ≤ j then dot (simplex.inverse.get i) ((simplex.edges.get k).set j (-size) j.isLt)
        else 0) =
        (if i = k then 1 else 0) - if i = j then 1 + (if j = k then 1 else 0) else 0 := by
    intro i
    by_cases same : i = j
    · subst same
      rw [if_pos le_rfl, opening.dot_next_row, get_set_self, if_pos rfl]
      field_simp
      ring
    · rw [opening.dot_reversed_edge same, if_neg same, sub_zero]
      by_cases own : i = k
      · rw [if_pos (own.trans_le upto)]
      · rw [if_neg own, ite_self]
  simp only [opening.dot_reversedRow, term, Finset.sum_sub_distrib, Finset.sum_ite_eq',
    Finset.mem_univ, if_true]
  ring

/-- The reversed row does not see the edges beyond. -/
theorem dot_reversedRow_beyond {j k : Fin n} (opening : simplex.Opening size j)
    (beyond : j < k) :
    dot (simplex.reversedRow j) (simplex.edges.get k) = if j = k then 1 else 0 := by
  have term : ∀ i : Fin n,
      (if i ≤ j then dot (simplex.inverse.get i) (simplex.edges.get k) else 0) = 0 := by
    intro i
    split
    case isTrue upto => rw [opening.exact, if_neg (upto.trans_lt beyond).ne]
    case isFalse => rfl
  simp only [opening.dot_reversedRow, term, Finset.sum_const_zero, neg_zero, if_neg beyond.ne]

/-- **Reversing the next edge of an initial simplex keeps its inverse exact.** -/
theorem reverseInitial {j : Fin n} (opening : simplex.Opening size j) (nonzero : size ≠ 0)
    (coordinate : α) (sample : Sample α m) :
    (simplex.reverseInitial j coordinate size sample).Opening size (j + 1) where
  edge_below k i below := by
    simp only [Simplex.reverseInitial, Vector.get_ofFn]
    split
    case isTrue upto =>
      rw [get_set_of_ne _ (below.trans_le upto).ne, opening.edge_below k i below]
    case isFalse => exact opening.edge_below k i below
  edge_rest k i after := by
    simp only [Simplex.reverseInitial, Vector.get_ofFn]
    split
    case isTrue =>
      rw [get_set_of_ne _ (Fin.ne_of_val_ne (by omega))]
      exact opening.edge_rest k i (by omega)
    case isFalse => exact opening.edge_rest k i (by omega)
  row_below i k below := by
    simp only [Simplex.reverseInitial, get_set]
    split
    case isTrue same =>
      subst same
      simp [reversedRow, not_le.mpr below, opening.row_below i k below]
    case isFalse => exact opening.row_below i k below
  row_rest i k after := by
    simp only [Simplex.reverseInitial]
    rw [get_set_of_ne _ (Fin.ne_of_val_ne (by omega))]
    exact opening.row_rest i k (by omega)
  exact i k := by
    simp only [Simplex.reverseInitial, get_set, Vector.get_ofFn]
    by_cases same : i = j
    · subst same
      rw [if_pos rfl]
      split
      case isTrue upto => exact opening.dot_reversedRow_upto nonzero upto
      case isFalse beyond => exact opening.dot_reversedRow_beyond (not_le.mp beyond)
    · rw [if_neg same]
      split
      case isTrue => exact opening.dot_reversed_edge same k _
      case isFalse => exact opening.exact i k

/-- **Taking in the next sample leaves the simplex set up to the vertex after it.** -/
theorem insertInitial {j : Fin n} (opening : simplex.Opening size j) (nonzero : size ≠ 0)
    (sample : Sample α m) (x : Vector α n) :
    (simplex.insertInitial j sample x size).1.Opening size (j + 1) := by
  rw [Simplex.insertInitial]
  split
  case isTrue => exact (opening.setSample (.edge j) sample).mono (Nat.le_succ j)
  case isFalse => exact opening.reverseInitial nonzero (x.get j) sample

end Opening

/-! ## Another pole -/

theorem dot_oppositeRow (simplex : Simplex α n m) (v : Vector α n) :
    dot simplex.oppositeRow v = -∑ k, dot (simplex.inverse.get k) v := by
  have column : ∀ i : Fin n, simplex.oppositeRow.get i * v.get i =
      -∑ k, (simplex.inverse.get k).get i * v.get i := by
    intro i
    rw [oppositeRow, Vector.get_ofFn, foldl_sub_eq_sum, zero_sub, neg_mul, Finset.sum_mul]
  simp only [dot_eq_sum, column, Finset.sum_neg_distrib]
  rw [Finset.sum_comm]

/-- The inner product of a row with an edge from the new pole. -/
theorem HasInverse.dot_promote_edge (exact : simplex.HasInverse) (i j k : Fin n) :
    dot (simplex.inverse.get i) ((simplex.promote j).edges.get k) =
      (if k = j then 0 else if i = k then 1 else 0) - if i = j then 1 else 0 := by
  simp only [promote, Vector.get_ofFn, dot_sub, exact i j]
  split
  case isTrue => rw [dot_zero]
  case isFalse => rw [exact]

/-- **A change of the pole keeps the inverse exact.** -/
theorem HasInverse.promote (exact : simplex.HasInverse) (j : Fin n) :
    (simplex.promote j).HasInverse := by
  intro i k
  have row : (simplex.promote j).inverse.get i =
      if i = j then simplex.oppositeRow else simplex.inverse.get i := get_set ..
  rw [row]
  by_cases own : i = j
  · subst own
    rw [if_pos rfl, dot_oppositeRow]
    simp only [exact.dot_promote_edge, Finset.sum_sub_distrib]
    by_cases reversed : k = i
    · simp [reversed]
    · simp [reversed, Ne.symm reversed]
  · rw [if_neg own, exact.dot_promote_edge, if_neg own, sub_zero]
    by_cases reversed : k = j
    · subst reversed
      rw [if_pos rfl, if_neg own]
    · rw [if_neg reversed]

theorem HasInverse.selectPole (exact : simplex.HasInverse) (penalty : α) :
    (simplex.selectPole penalty).1.HasInverse := by
  rw [Simplex.selectPole]
  split
  case h_1 => exact exact
  case h_2 j _ => exact exact.promote j

/-! ## Another edge -/

/-- **Replacing an edge keeps the inverse exact, if the pivot is not zero.** -/
theorem HasInverse.replaceEdge (exact : simplex.HasInverse) {j : Fin n} {step : Vector α n}
    (pivot : dot (simplex.inverse.get j) step ≠ 0) :
    (simplex.replaceEdge j step).HasInverse := by
  intro i k
  have edge : (simplex.replaceEdge j step).edges.get k =
      if k = j then step else simplex.edges.get k := get_set ..
  simp only [Simplex.replaceEdge, Vector.get_ofFn] at edge ⊢
  rw [edge]
  by_cases own : i = j
  · subst own
    rw [if_pos rfl, map_div_dot]
    by_cases new : k = i
    · rw [if_pos new, if_pos new.symm, div_self pivot]
    · rw [if_neg new, exact, if_neg (Ne.symm new), zero_div]
  · rw [if_neg own, sub_dot, smul_dot, map_div_dot]
    by_cases new : k = j
    · subst new
      rw [if_pos rfl, if_neg own, div_self pivot, mul_one, sub_self]
    · rw [if_neg new, exact, exact, if_neg (Ne.symm new), zero_div, mul_zero, sub_zero]

theorem HasInverse.replaceVertex (exact : simplex.HasInverse) {j : Fin n} {step : Vector α n}
    (pivot : dot (simplex.inverse.get j) step ≠ 0) (sample : Sample α m) :
    (simplex.replaceVertex j step sample).HasInverse :=
  (exact.replaceEdge pivot).setSample (.edge j) sample

end DerivativeFree.Simplex
