import DerivativeFree.Proofs.Exact.Field

/-!
# Vectors in exact arithmetic

Without rounding the order of a sum does not matter: `sumFrom` is a finite sum and `dot`
a bilinear form that is positive on nonzero vectors, and at most the product of the lengths
(`abs_dot_le`).  A maximum taken from left to right is the least upper bound of its terms
(`largestFrom_le_iff`).

The entries of a vector are read with `Vector.get`; the lemmas of the first section say
what `get` gives for every operation on vectors that the library uses.  An operation on
vectors that are written down entry by entry is one on their arrays (`mk_add_mk` and the
lemmas beside it), whatever their size.
-/

namespace DerivativeFree

set_option autoImplicit false

/-! ## Entries -/

section Entries

variable {β : Type} {n : Nat}

theorem vector_ext {v w : Vector β n} (same : ∀ i, v.get i = w.get i) : v = w :=
  Vector.ext fun i inside => same ⟨i, inside⟩

theorem forall_get_iff {v : Vector β n} {property : β → Prop} :
    (∀ i, property (v.get i)) ↔ ∀ entry ∈ v.toList, property entry := by
  simp [Vector.forall_mem_iff_forall_getElem, Fin.forall_iff, get_eq_getElem]

theorem get_set (v : Vector β n) (j i : Fin n) (value : β) :
    (v.set j value j.isLt).get i = if i = j then value else v.get i := by
  simp only [get_eq_getElem, Vector.getElem_set, Fin.ext_iff, eq_comm]

@[simp]
theorem get_set_self (v : Vector β n) (j : Fin n) (value : β) :
    (v.set j value j.isLt).get j = value := by
  simp [get_set]

theorem get_set_of_ne (v : Vector β n) {j i : Fin n} (different : i ≠ j) (value : β) :
    (v.set j value j.isLt).get i = v.get i := by
  simp [get_set, different]

@[simp]
theorem get_zero [Zero β] (i : Fin n) : (0 : Vector β n).get i = 0 := by
  simp [get_eq_getElem]

@[simp]
theorem get_add [Add β] (v w : Vector β n) (i : Fin n) : (v + w).get i = v.get i + w.get i := by
  simp [get_eq_getElem]

@[simp]
theorem get_sub [Sub β] (v w : Vector β n) (i : Fin n) : (v - w).get i = v.get i - w.get i := by
  simp [get_eq_getElem]

@[simp]
theorem get_neg [Neg β] (v : Vector β n) (i : Fin n) : (-v).get i = -v.get i := by
  simp [get_eq_getElem]

@[simp]
theorem get_smul [Mul β] (c : β) (v : Vector β n) (i : Fin n) : (c * v).get i = c * v.get i := by
  simp [get_eq_getElem]

@[simp]
theorem get_map {γ : Type} (f : β → γ) (v : Vector β n) (i : Fin n) :
    (v.map f).get i = f (v.get i) := by
  simp [get_eq_getElem]

/-- An exchange of two positions below a bound leads to positions below it. -/
theorem swap_lt {i j k bound : Nat} (left : i < bound) (right : j < bound) (inside : k < bound) :
    Equiv.swap i j k < bound := by
  rw [Equiv.swap_apply_def]
  split_ifs <;> assumption

theorem getElem?_swapIfInBounds (v : Vector β n) {i j : Nat} (first : i < n) (second : j < n)
    (k : Nat) : (v.swapIfInBounds i j)[k]? = v[Equiv.swap i j k]? := by
  have swapped : v.swapIfInBounds i j = v.swap i j := by
    rw [← Vector.toArray_inj]
    simp [Array.swapIfInBounds, first, second]
  rw [swapped, Vector.getElem?_swap]
  by_cases right : k = j
  · simp [right, first]
  · by_cases left : k = i
    · by_cases same : j = i
      · simp [left, same, first]
      · simp [left, same, second]
    · rw [Equiv.swap_apply_of_ne_of_ne left right, if_neg (Ne.symm right),
        if_neg (Ne.symm left)]

end Entries

variable {α : Type} [EuclideanField α] {n m : Nat}

@[simp]
theorem get_diagonal (value : α) (i j : Fin n) :
    ((diagonal n value).get i).get j = if i = j then value else 0 := by
  simp [diagonal]

/-! ## Sums -/

theorem sumFrom_eq_sum (start : α) (term : Fin n → α) :
    sumFrom start term = start + ∑ i, term i := by
  induction n with
  | zero => simp [sumFrom_zero]
  | succ n ih => rw [sumFrom_succ, ih, Fin.sum_univ_castSucc, add_assoc]

/-- A fold that takes one term after the other from a total. -/
theorem foldl_sub_eq_sum (start : α) (term : Fin n → α) :
    Fin.foldl n (fun total i => total - term i) start = start - ∑ i, term i := by
  induction n with
  | zero => simp [Fin.foldl_zero]
  | succ n ih => rw [Fin.foldl_succ_last, ih, Fin.sum_univ_castSucc, sub_sub]

theorem largestFrom_le_iff {start bound : α} {term : Fin n → α} :
    largestFrom start term ≤ bound ↔ start ≤ bound ∧ ∀ i, term i ≤ bound := by
  induction n with
  | zero => simp [largestFrom_zero]
  | succ n ih => simp [largestFrom_succ, ih, Fin.forall_fin_succ', and_assoc]

theorem start_le_largestFrom (start : α) (term : Fin n → α) : start ≤ largestFrom start term :=
  (largestFrom_le_iff.mp le_rfl).1

/-! ## Inner products -/

theorem dot_eq_sum (v w : Vector α n) : dot v w = ∑ i, v.get i * w.get i := by
  rw [dot, sumFrom_eq_sum, zero_add]

theorem dot_comm (v w : Vector α n) : dot v w = dot w v := by
  simp only [dot_eq_sum, mul_comm]

theorem dot_add (u v w : Vector α n) : dot u (v + w) = dot u v + dot u w := by
  simp [dot_eq_sum, mul_add, Finset.sum_add_distrib]

theorem add_dot (u v w : Vector α n) : dot (u + v) w = dot u w + dot v w := by
  rw [dot_comm, dot_add, dot_comm w, dot_comm w]

theorem dot_sub (u v w : Vector α n) : dot u (v - w) = dot u v - dot u w := by
  simp [dot_eq_sum, mul_sub, Finset.sum_sub_distrib]

theorem sub_dot (u v w : Vector α n) : dot (u - v) w = dot u w - dot v w := by
  simp [dot_eq_sum, sub_mul, Finset.sum_sub_distrib]

theorem smul_dot (c : α) (v w : Vector α n) : dot (c * v) w = c * dot v w := by
  simp [dot_eq_sum, Finset.mul_sum, mul_assoc]

theorem dot_smul (c : α) (v w : Vector α n) : dot v (c * w) = c * dot v w := by
  rw [dot_comm, smul_dot, dot_comm]

theorem map_div_dot (c : α) (v w : Vector α n) : dot (v.map (· / c)) w = dot v w / c := by
  have term : ∀ i, (v.map (· / c)).get i * w.get i = v.get i * w.get i / c := by
    intro i
    rw [get_map, div_mul_eq_mul_div]
  simp only [dot_eq_sum, term, Finset.sum_div]

@[simp]
theorem dot_zero (v : Vector α n) : dot v 0 = 0 := by
  simp [dot_eq_sum]

theorem zero_dot (v : Vector α n) : dot 0 v = 0 := by
  rw [dot_comm, dot_zero]

theorem ne_zero_of_dot_ne_zero {v w : Vector α n} (nonzero : dot v w ≠ 0) : v ≠ 0 := by
  rintro rfl
  exact nonzero (zero_dot w)

/-- The inner product with a vector one of whose entries has been changed. -/
theorem dot_set (v w : Vector α n) (j : Fin n) (value : α) :
    dot v (w.set j value j.isLt) = dot v w + v.get j * (value - w.get j) := by
  have change : ∀ i, v.get i * (w.set j value j.isLt).get i =
      v.get i * w.get i + if i = j then v.get j * (value - w.get j) else 0 := by
    intro i
    rw [get_set]
    by_cases same : i = j
    · subst same
      simp only [if_true]
      ring
    · simp [same]
  simp [dot_eq_sum, change, Finset.sum_add_distrib]

theorem dot_self_nonneg (v : Vector α n) : 0 ≤ dot v v := by
  rw [dot_eq_sum]
  exact Finset.sum_nonneg fun i _ => mul_self_nonneg (v.get i)

theorem dot_self_pos {v : Vector α n} (nonzero : v ≠ 0) : 0 < dot v v := by
  obtain ⟨i, entry⟩ : ∃ i, v.get i ≠ 0 := by
    by_contra! all
    exact nonzero (vector_ext fun i => by simp [all i])
  rw [dot_eq_sum]
  exact Finset.sum_pos' (fun i _ => mul_self_nonneg (v.get i))
    ⟨i, Finset.mem_univ i, mul_self_pos.mpr entry⟩

/-! ## Lengths -/

/-- The length of a vector. -/
def lengthOf (v : Vector α n) : α :=
  Scalar.sqrt (dot v v)

theorem lengthOf_nonneg (v : Vector α n) : 0 ≤ lengthOf v :=
  sqrt_nonneg _

theorem lengthOf_mul_self (v : Vector α n) : lengthOf v * lengthOf v = dot v v :=
  sqrt_mul_sqrt (dot_self_nonneg v)

theorem lengthOf_pos {v : Vector α n} (nonzero : v ≠ 0) : 0 < lengthOf v :=
  sqrt_pos (dot_self_pos nonzero)

theorem lengthOf_smul (c : α) (v : Vector α n) : lengthOf (c * v) = |c| * lengthOf v := by
  refine sqrt_eq_of_mul_self (mul_nonneg (abs_nonneg c) (lengthOf_nonneg v)) ?_
  rw [smul_dot, dot_smul, mul_mul_mul_comm, abs_mul_abs_self, lengthOf_mul_self, mul_assoc]

/-- An inner product is at most the product of the lengths. -/
theorem abs_dot_le (v w : Vector α n) : |dot v w| ≤ lengthOf v * lengthOf w := by
  have squares : dot v w * dot v w ≤ dot v v * dot w w := by
    have bound := Finset.sum_mul_sq_le_sq_mul_sq Finset.univ v.get w.get
    simpa only [dot_eq_sum, sq] using bound
  refine abs_le_of_sq_le_sq ?_ (mul_nonneg (lengthOf_nonneg v) (lengthOf_nonneg w))
  rw [sq, sq, mul_mul_mul_comm, lengthOf_mul_self, lengthOf_mul_self]
  exact squares

/-! ## Vectors given by their entries -/

section Literals

variable {β : Type}

@[simp]
theorem mk_add_mk [Add β] {as bs : Array β} (size : as.size = n) (size' : bs.size = n) :
    Vector.mk as size + Vector.mk bs size' =
      Vector.mk (as.zipWith (· + ·) bs) (by simp [size, size']) :=
  Vector.mk_zipWith_mk size size'

@[simp]
theorem mk_sub_mk [Sub β] {as bs : Array β} (size : as.size = n) (size' : bs.size = n) :
    Vector.mk as size - Vector.mk bs size' =
      Vector.mk (as.zipWith (· - ·) bs) (by simp [size, size']) :=
  Vector.mk_zipWith_mk size size'

@[simp]
theorem neg_mk [Neg β] {as : Array β} (size : as.size = n) :
    -Vector.mk as size = Vector.mk (as.map (-·)) (by simp [size]) :=
  Vector.map_mk size

@[simp]
theorem smul_mk [Mul β] (c : β) {as : Array β} (size : as.size = n) :
    c * Vector.mk as size = Vector.mk (as.map (c * ·)) (by simp [size]) :=
  Vector.map_mk size

/-- The vector of a table has the list of the table for its entries. -/
theorem ofFn_eq_mk (f : Fin n → β) :
    Vector.ofFn f = Vector.mk (List.ofFn f).toArray (by simp) :=
  Vector.ext fun i inside => by simp

end Literals

@[simp]
theorem dot_mk_mk {as bs : List α} (size : as.toArray.size = n) (size' : bs.toArray.size = n) :
    dot (Vector.mk as.toArray size) (Vector.mk bs.toArray size') =
      (as.zipWith (· * ·) bs).sum := by
  replace size : as.length = n := by simpa using size
  replace size' : bs.length = n := by simpa using size'
  have terms : (List.ofFn fun i : Fin n => as[i] * bs[i]) = as.zipWith (· * ·) bs :=
    List.ext_getElem (by simp [size, size']) fun i _ _ => by simp
  rw [dot_eq_sum, ← terms, List.sum_ofFn]
  rfl

/-! ## Vectors of rational numbers -/

/-- The vector of the given rational numbers. -/
noncomputable def rationals (entries : Fin n → ℚ) : Vector ℝ n :=
  .ofFn fun i => (entries i : ℝ)

theorem rationals_one (entry : ℚ) : rationals ![entry] = #v[(entry : ℝ)] := by
  rw [rationals, ofFn_eq_mk]
  rfl

end DerivativeFree
