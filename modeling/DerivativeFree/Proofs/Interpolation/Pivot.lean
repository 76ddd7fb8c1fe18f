import DerivativeFree.Proofs.Interpolation.Inverse
import DerivativeFree.Interpolation.Replacement
import DerivativeFree.Proofs.Linear.Fold

/-!
# Pivots

An edge can be replaced as long as the row of the inverse that belongs to it is not
orthogonal to the step that becomes the new edge.  The vertex that a trial point replaces
is chosen by two rules, and either of them sees to this (`HasInverse.pivot_ne_zero`): a far
vertex must keep some height, and a flat one must gain volume.  If the trial point is better
than the pole, any gain of volume is enough, and some vertex has one
(`HasInverse.replaced_ne_none`).  The vertex that is moved to improve the shape is found by
two rules as well, and one of them applies whenever the shape is not acceptable
(`Shape.worst_ne_none`).
-/

namespace DerivativeFree

set_option autoImplicit false

/-! ## The choice of an index -/

namespace Shape

variable {α : Type} [EuclideanField α] {n : Nat} {threshold : α} {eligible : Fin n → Bool}
  {values : Vector α n}

/-- **The index found by `greatestAbove` is eligible, above the threshold, and no eligible
one is greater.**  If none is found, none is above the threshold. -/
theorem greatestAbove_spec (threshold : α) (eligible : Fin n → Bool) (values : Vector α n) :
    match greatestAbove threshold eligible values with
    | some j => eligible j = true ∧ threshold < values.get j ∧
      ∀ k, eligible k = true → values.get k ≤ values.get j
    | none => ∀ k, eligible k = true → values.get k ≤ threshold := by
  have invariant := foldl_invariant
    (fun (found : Option (Fin n) × α) k =>
      if eligible k ∧ found.2 < values.get k then (some k, values.get k) else found)
    (none, threshold)
    (fun taken found => threshold ≤ found.2 ∧
      (∀ k : Fin n, k < taken → eligible k = true → values.get k ≤ found.2) ∧
      match found.1 with
      | some j => eligible j = true ∧ threshold < values.get j ∧ found.2 = values.get j
      | none => found.2 = threshold)
    ⟨le_rfl, fun _ before => absurd before (Nat.not_lt_zero _), rfl⟩ ?_
  · rw [greatestAbove]
    generalize Fin.foldl n _ (none, threshold) = found at invariant ⊢
    obtain ⟨-, greatest, chosen⟩ := invariant
    split
    case h_1 j same =>
      simp only [same] at chosen
      obtain ⟨suits, above, value⟩ := chosen
      exact ⟨suits, above, fun k suitable => value ▸ greatest k k.isLt suitable⟩
    case h_2 same =>
      simp only [same] at chosen
      exact fun k suitable => chosen ▸ greatest k k.isLt suitable
  · rintro k found ⟨least, greatest, chosen⟩
    have extend : ∀ value : α, found.2 ≤ value →
        (eligible k = true → values.get k ≤ value) →
        ∀ i : Fin n, i < k.val + 1 → eligible i = true → values.get i ≤ value := by
      intro value before here i taken suitable
      rcases Nat.lt_succ_iff_lt_or_eq.mp taken with earlier | now
      · exact (greatest i earlier suitable).trans before
      · rw [Fin.ext now] at suitable ⊢
        exact here suitable
    split
    case isTrue better =>
      exact ⟨least.trans better.2.le, extend _ better.2.le fun _ => le_rfl, better.1,
        least.trans_lt better.2, rfl⟩
    case isFalse worse =>
      exact ⟨least, extend _ le_rfl fun suitable => not_lt.mp fun greater =>
        worse ⟨suitable, greater⟩, chosen⟩

theorem greatestAbove_some {j : Fin n} (found : greatestAbove threshold eligible values = some j) :
    eligible j = true ∧ threshold < values.get j := by
  have spec := greatestAbove_spec threshold eligible values
  rw [found] at spec
  exact ⟨spec.1, spec.2.1⟩

theorem greatestAbove_none (none : greatestAbove threshold eligible values = none) (k : Fin n)
    (suitable : eligible k = true) : values.get k ≤ threshold := by
  have spec := greatestAbove_spec threshold eligible values
  rw [none] at spec
  exact spec k suitable

/-- To look for the least number is to look for the greatest of the opposites. -/
theorem leastBelow_eq (threshold : α) (values : Vector α n) :
    leastBelow threshold values = greatestAbove (-threshold) (fun _ => true) (-values) := by
  have opposite := foldl_hom (fun found : Option (Fin n) × α => (found.1, -found.2))
    (fun found j => if values.get j < found.2 then (some j, values.get j) else found)
    (fun found j => if true ∧ found.2 < (-values).get j then (some j, (-values).get j) else found)
    (none, threshold) ?_
  · exact (congrArg Prod.fst opposite).symm
  · intro found j
    simp only [true_and, get_neg, neg_lt_neg_iff]
    split
    · rfl
    · rfl

theorem leastBelow_some {j : Fin n} (found : leastBelow threshold values = some j) :
    values.get j < threshold ∧ ∀ k, values.get j ≤ values.get k := by
  have spec := greatestAbove_spec (-threshold) (fun _ => true) (-values)
  rw [← leastBelow_eq, found] at spec
  simp only [get_neg, neg_lt_neg_iff, neg_le_neg_iff, true_imp_iff] at spec
  exact spec.2

theorem leastBelow_none (none : leastBelow threshold values = none) (k : Fin n) :
    threshold ≤ values.get k := by
  rw [leastBelow_eq] at none
  have small := greatestAbove_none none k rfl
  rwa [get_neg, neg_le_neg_iff] at small

/-- **The worst vertex is the end of an edge above the cap, or else there is no such edge, and no
vertex has less height.** -/
theorem worst_some {shape : Shape α n} {cap : α} {j : Fin n} (worst : shape.worst cap = some j) :
    (cap < shape.lengths.get j) ∨
      (∀ k, shape.lengths.get k ≤ cap) ∧ ∀ k, shape.heights.get j ≤ shape.heights.get k := by
  rw [Shape.worst, Option.or_eq_some_iff] at worst
  rcases worst with long | ⟨none, low⟩
  · exact .inl (greatestAbove_some long).2
  · exact .inr ⟨fun k => greatestAbove_none none k rfl, (leastBelow_some low).2⟩

/-- A shape that is not acceptable has a vertex that is too low or an edge that is too long. -/
theorem exists_of_not_acceptable {shape : Shape α n} {floor cap : α}
    (spoilt : shape.acceptable floor cap = false) :
    ∃ j, shape.heights.get j < floor ∨ cap < shape.lengths.get j := by
  simpa only [acceptable, Bool.not_eq_false', List.any_eq_true, List.mem_finRange, true_and,
    Bool.or_eq_true, decide_eq_true_eq] using spoilt

/-- **A shape that is not acceptable has a vertex to be moved.** -/
theorem worst_ne_none {shape : Shape α n} {floor cap : α} (le : floor ≤ cap)
    (spoilt : shape.acceptable floor cap = false) : shape.worst cap ≠ none := by
  intro none
  simp only [worst, Option.or_eq_none_iff] at none
  obtain ⟨j, low | long⟩ := exists_of_not_acceptable spoilt
  · exact absurd (low.trans_le le) (not_lt.mpr (leastBelow_none none.2 j))
  · exact absurd long (not_lt.mpr (greatestAbove_none none.1 j rfl))

end Shape

namespace Simplex

variable {α : Type} [EuclideanField α] {n m : Nat} {simplex : Simplex α n m}

/-! ## Heights -/

theorem HasInverse.height_pos (exact : simplex.HasInverse) (j : Fin n) :
    0 < (Shape.of simplex).heights.get j := by
  rw [Shape.of, get_map]
  exact one_div_pos.mpr (sqrt_pos (dot_self_pos (exact.row_ne_zero j)))

theorem heightsAfter_get (simplex : Simplex α n m) (shape : Shape α n) (step : Vector α n)
    (j : Fin n) : (simplex.heightsAfter shape step).get j =
      |dot (simplex.inverse.get j) step| * shape.heights.get j := by
  rw [heightsAfter, Vector.get_ofFn, volumeFactors, get_map, abs_exact]

/-! ## The vertex that a trial point replaces -/

/-- **The pivot of the replaced vertex is not zero.** -/
theorem HasInverse.pivot_ne_zero (exact : simplex.HasInverse) {step : Vector α n}
    {radius reduction : α} (positive : 0 < radius) {j : Fin n}
    (replaced : simplex.replaced (Shape.of simplex) step radius reduction = some j) :
    dot (simplex.inverse.get j) step ≠ 0 := by
  intro orthogonal
  have flattened : (simplex.heightsAfter (Shape.of simplex) step).get j = 0 := by
    rw [heightsAfter_get, orthogonal, abs_zero, zero_mul]
  rw [Simplex.replaced, Option.or_eq_some_iff] at replaced
  rcases replaced with far | ⟨-, flat⟩
  · have eligible := (Shape.greatestAbove_some far).1
    rw [flattened, Bool.or_eq_true, decide_eq_true_eq, decide_eq_true_eq] at eligible
    have floor : 0 < Shape.heightFactor * radius := by
      unfold Shape.heightFactor
      positivity
    rcases eligible with low | shrunk
    · exact absurd floor (not_lt.mpr low)
    · exact absurd (exact.height_pos j) (not_lt.mpr shrunk)
  · have gain := (Shape.greatestAbove_some flat).2
    rw [volumeFactors, get_map, orthogonal, abs_exact, abs_zero] at gain
    split at gain
    · exact absurd gain (not_lt.mpr zero_le_one)
    · exact absurd gain (lt_irrefl 0)

/-- **A trial point that is better than the pole replaces a vertex**, unless it lies in the
pole. -/
theorem HasInverse.replaced_ne_none (exact : simplex.HasInverse) (shape : Shape α n)
    {step : Vector α n} (moves : step ≠ 0) (radius : α) {reduction : α}
    (better : 0 < reduction) : simplex.replaced shape step radius reduction ≠ none := by
  intro none
  refine moves (exact.eq_zero_of_orthogonal fun k => ?_)
  rw [Simplex.replaced, Option.or_eq_none_iff] at none
  have gain := Shape.greatestAbove_none none.2 k rfl
  rw [volumeFactors, get_map, abs_exact, if_neg (not_le.mpr better)] at gain
  exact abs_nonpos_iff.mp gain

end Simplex

end DerivativeFree
