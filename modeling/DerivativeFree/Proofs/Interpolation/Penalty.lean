import DerivativeFree.Proofs.Interpolation.Vertices
import DerivativeFree.Proofs.Linear.Fold
import DerivativeFree.Interpolation.Penalty

/-!
# The revised penalty

A single pass over the constraints finds the scale of those that matter, and it stands at zero
until it has met one.  This is sound because every constraint that matters covers a positive
distance (`covered_pos`): the scale is zero exactly when no constraint matters, and otherwise it
is the least of these distances (`constraintScale_of_none`, `isLeast_constraintScale`).

So the revised penalty is the lesser of the old penalty and the quotient of the spread of the
objective and that scale, or zero if no constraint matters.  It lies between zero and the old
penalty, and it depends on the values alone, in whatever order the vertices and the constraints
are listed (`Reordered.revisedPenalty`).
-/

namespace DerivativeFree

set_option autoImplicit false

/-! ## Extremes -/

section Extremes

variable {β : Type} [LinearOrder β] {n : Nat}

theorem isLeast_foldl (start : β) (term : Fin n → β) :
    IsLeast (insert start (Set.range term))
      (Fin.foldl n (fun least i => min least (term i)) start) := by
  -- The least of the terms so far is one of them, and not above any of them.
  have invariant := foldl_invariant (fun least i => min least (term i)) start
    (fun count least => (least = start ∨ ∃ i, least = term i) ∧ least ≤ start ∧
      ∀ i : Fin n, i.val < count → least ≤ term i)
    ⟨.inl rfl, le_rfl, fun i before => absurd before (Nat.not_lt_zero i)⟩ ?_
  · obtain ⟨among, first, below⟩ := invariant
    constructor
    · exact among.imp_right fun ⟨i, same⟩ => ⟨i, same.symm⟩
    · rintro value (rfl | ⟨i, rfl⟩)
      · exact first
      · exact below i i.isLt
  · rintro k least ⟨among, first, below⟩
    refine ⟨?_, (min_le_left _ _).trans first, fun i before => ?_⟩
    · rcases min_choice least (term k) with same | same
      · rw [same]
        exact among
      · exact .inr ⟨k, same⟩
    · rcases Nat.lt_succ_iff_lt_or_eq.mp before with earlier | now
      · exact (min_le_left _ _).trans (below i earlier)
      · rw [Fin.ext now]
        exact min_le_right _ _

theorem isGreatest_foldl (start : β) (term : Fin n → β) :
    IsGreatest (insert start (Set.range term))
      (Fin.foldl n (fun greatest i => max greatest (term i)) start) :=
  @isLeast_foldl βᵒᵈ _ n start term

end Extremes

namespace Simplex

/-- The value at a vertex in row `k`. -/
def value {α : Type} {n m : Nat} (simplex : Simplex α n m) (k : Fin (m + 1))
    (vertex : Vertex n) : α :=
  (simplex.sample vertex).row.get k

theorem range_value {α : Type} {n m : Nat} (simplex : Simplex α n m) (k : Fin (m + 1)) :
    Set.range (simplex.value k) =
      insert (simplex.value k .pole) (Set.range fun i => simplex.value k (.edge i)) := by
  ext value
  constructor
  · rintro ⟨vertex, rfl⟩
    cases vertex with
    | pole => exact .inl rfl
    | edge i => exact .inr ⟨i, rfl⟩
  · rintro (rfl | ⟨i, rfl⟩)
    · exact ⟨.pole, rfl⟩
    · exact ⟨.edge i, rfl⟩

variable {α : Type} [EuclideanField α] {n m : Nat} {simplex other : Simplex α n m} {penalty : α}

/-- The least value in row `k` over all vertices. -/
def least (simplex : Simplex α n m) (k : Fin (m + 1)) : α :=
  Finset.univ.inf' ⟨.pole, Finset.mem_univ _⟩ (simplex.value k)

/-- The greatest value in row `k` over all vertices. -/
def greatest (simplex : Simplex α n m) (k : Fin (m + 1)) : α :=
  Finset.univ.sup' ⟨.pole, Finset.mem_univ _⟩ (simplex.value k)

theorem isLeast_least (simplex : Simplex α n m) (k : Fin (m + 1)) :
    IsLeast (Set.range (simplex.value k)) (simplex.least k) := by
  constructor
  · obtain ⟨vertex, -, same⟩ :=
      Finset.exists_mem_eq_inf' ⟨.pole, Finset.mem_univ _⟩ (simplex.value k)
    exact ⟨vertex, same.symm⟩
  · rintro _ ⟨vertex, rfl⟩
    exact Finset.inf'_le _ (Finset.mem_univ vertex)

theorem isGreatest_greatest (simplex : Simplex α n m) (k : Fin (m + 1)) :
    IsGreatest (Set.range (simplex.value k)) (simplex.greatest k) := by
  constructor
  · obtain ⟨vertex, -, same⟩ :=
      Finset.exists_mem_eq_sup' ⟨.pole, Finset.mem_univ _⟩ (simplex.value k)
    exact ⟨vertex, same.symm⟩
  · rintro _ ⟨vertex, rfl⟩
    exact Finset.le_sup' _ (Finset.mem_univ vertex)

theorem least_le_greatest (simplex : Simplex α n m) (k : Fin (m + 1)) :
    simplex.least k ≤ simplex.greatest k :=
  (simplex.isLeast_least k).2 (simplex.isGreatest_greatest k).1

/-- The pass over the vertices finds the least and the greatest value. -/
theorem spread_eq (simplex : Simplex α n m) (k : Fin (m + 1)) :
    simplex.spread k = (simplex.least k, simplex.greatest k) := by
  have lower := isLeast_foldl (simplex.value k .pole) fun i => simplex.value k (.edge i)
  have upper := isGreatest_foldl (simplex.value k .pole) fun i => simplex.value k (.edge i)
  rw [← range_value] at lower upper
  have first : (simplex.spread k).1 =
      Fin.foldl n (fun least i => min least (simplex.value k (.edge i)))
        (simplex.value k .pole) := by
    rw [spread, ← foldl_hom Prod.fst]
    · rfl
    · intro extremes i
      exact (smaller_eq_min _ _).symm
  have second : (simplex.spread k).2 =
      Fin.foldl n (fun greatest i => max greatest (simplex.value k (.edge i)))
        (simplex.value k .pole) := by
    rw [spread, ← foldl_hom Prod.snd]
    · rfl
    · intro extremes i
      exact (larger_eq_max _ _).symm
  apply Prod.ext
  · rw [first]
    exact lower.unique (simplex.isLeast_least k)
  · rw [second]
    exact upper.unique (simplex.isGreatest_greatest k)

/-! ## The constraints that matter -/

/-- The constraints that matter: those whose least value is below half of the greatest one. -/
def decisive (simplex : Simplex α n m) : Finset (Fin m) :=
  Finset.univ.filter fun k => simplex.least k.castSucc < 0.5 * simplex.greatest k.castSucc

/-- The distance that a constraint covers, up to its greatest value or to zero. -/
def covered (simplex : Simplex α n m) (k : Fin m) : α :=
  max (simplex.greatest k.castSucc) 0 - simplex.least k.castSucc

theorem mem_decisive {k : Fin m} : k ∈ simplex.decisive ↔
    simplex.least k.castSucc < simplex.greatest k.castSucc / 2 := by
  have half : (0.5 : α) * simplex.greatest k.castSucc = simplex.greatest k.castSucc / 2 := by
    ring
  simp only [decisive, Finset.mem_filter, Finset.mem_univ, true_and, half]

/-- **A constraint that matters covers a positive distance.** -/
theorem covered_pos {k : Fin m} (matters : k ∈ simplex.decisive) : 0 < simplex.covered k := by
  have below := mem_decisive.mp matters
  have half : simplex.greatest k.castSucc / 2 ≤ max (simplex.greatest k.castSucc) 0 := by
    rcases le_total (simplex.greatest k.castSucc) 0 with least | positive
    · exact (div_nonpos_of_nonpos_of_nonneg least zero_le_two).trans (le_max_right _ _)
    · exact (half_le_self positive).trans (le_max_left _ _)
  exact sub_pos.mpr (below.trans_le half)

/-- What the pass over the constraints does with constraint `k`. -/
theorem constraintScale_eq (simplex : Simplex α n m) :
    simplex.constraintScale = Fin.foldl m (fun scale k =>
      if k ∈ simplex.decisive then
        if scale ≤ 0 then simplex.covered k else min scale (simplex.covered k)
      else scale) 0 := by
  simp only [constraintScale, spread_eq, larger_eq_max, smaller_eq_min, covered, decisive,
    Finset.mem_filter, Finset.mem_univ, true_and]

/-- The scale of the constraints below `count` that matter: their least distance, or zero if
there are none. -/
def Scales (simplex : Simplex α n m) (count : Nat) (scale : α) : Prop :=
  (scale = 0 ∧ ∀ k ∈ simplex.decisive, ¬ k.val < count) ∨
    IsLeast (simplex.covered '' {k | k ∈ simplex.decisive ∧ k.val < count}) scale

theorem Scales.pos {count : Nat} {scale : α}
    (least : IsLeast (simplex.covered '' {k | k ∈ simplex.decisive ∧ k.val < count}) scale) :
    0 < scale := by
  obtain ⟨k, ⟨matters, -⟩, rfl⟩ := least.1
  exact covered_pos matters

theorem scales_constraintScale (simplex : Simplex α n m) :
    simplex.Scales m simplex.constraintScale := by
  rw [constraintScale_eq]
  apply foldl_invariant _ _ simplex.Scales (.inl ⟨rfl, fun k _ => Nat.not_lt_zero k⟩)
  intro k scale scales
  have upTo : ∀ {i : Fin m}, i.val < k + 1 ↔ i.val < k ∨ i = k := by
    intro i
    rw [Nat.lt_succ_iff_lt_or_eq, Fin.ext_iff]
  split
  case isTrue matters =>
    right
    rcases scales with ⟨rfl, none⟩ | least
    · -- The first constraint that matters.
      rw [if_pos le_rfl]
      refine ⟨⟨k, ⟨matters, upTo.mpr (.inr rfl)⟩, rfl⟩, ?_⟩
      rintro _ ⟨i, ⟨other, before⟩, rfl⟩
      obtain rfl := (upTo.mp before).resolve_left (none i other)
      exact le_rfl
    · rw [if_neg (not_le.mpr (Scales.pos least))]
      constructor
      · rcases min_choice scale (simplex.covered k) with same | same
        · obtain ⟨i, ⟨other, before⟩, distance⟩ := least.1
          exact ⟨i, ⟨other, upTo.mpr (.inl before)⟩, distance.trans same.symm⟩
        · exact ⟨k, ⟨matters, upTo.mpr (.inr rfl)⟩, same.symm⟩
      · rintro _ ⟨i, ⟨other, before⟩, rfl⟩
        rcases upTo.mp before with earlier | rfl
        · exact (min_le_left _ _).trans (least.2 ⟨i, ⟨other, earlier⟩, rfl⟩)
        · exact min_le_right _ _
  case isFalse idle =>
    have same : ∀ i ∈ simplex.decisive, (i.val < k + 1 ↔ i.val < k) := by
      intro i matters
      rw [upTo, or_iff_left]
      rintro rfl
      exact idle matters
    rcases scales with ⟨zero, none⟩ | least
    · exact .inl ⟨zero, fun i matters => (same i matters).not.mpr (none i matters)⟩
    · right
      have sets : {i | i ∈ simplex.decisive ∧ i.val < k + 1} =
          {i | i ∈ simplex.decisive ∧ i.val < k} :=
        Set.ext fun i => and_congr_right (same i)
      rw [sets]
      exact least

theorem constraintScale_of_none (none : simplex.decisive = ∅) : simplex.constraintScale = 0 := by
  rcases simplex.scales_constraintScale with ⟨zero, -⟩ | least
  · exact zero
  · obtain ⟨k, ⟨matters, -⟩, -⟩ := least.1
    rw [none] at matters
    exact absurd matters (Finset.notMem_empty k)

theorem isLeast_constraintScale (some : simplex.decisive.Nonempty) :
    IsLeast (simplex.covered '' simplex.decisive) simplex.constraintScale := by
  rcases simplex.scales_constraintScale with ⟨-, none⟩ | least
  · obtain ⟨k, matters⟩ := some
    exact absurd k.isLt (none k matters)
  · have all : {k | k ∈ simplex.decisive ∧ k.val < m} = ↑simplex.decisive :=
      Set.ext fun k => and_iff_left k.isLt
    rwa [all] at least

/-- The scale is the least distance that a constraint that matters covers. -/
theorem constraintScale_of_some (some : simplex.decisive.Nonempty) :
    simplex.constraintScale = simplex.decisive.inf' some simplex.covered := by
  have least := simplex.isLeast_constraintScale some
  apply le_antisymm
  · apply Finset.le_inf'
    intro k matters
    exact least.2 ⟨k, matters, rfl⟩
  · obtain ⟨k, matters, same⟩ := least.1
    rw [← same]
    exact Finset.inf'_le _ matters

theorem constraintScale_pos (some : simplex.decisive.Nonempty) : 0 < simplex.constraintScale := by
  obtain ⟨k, matters, same⟩ := (simplex.isLeast_constraintScale some).1
  exact (covered_pos matters).trans_eq same

/-! ## The revision -/

theorem revisedPenalty_of_none (none : simplex.decisive = ∅) :
    simplex.revisedPenalty penalty = 0 := by
  simp only [revisedPenalty, constraintScale_of_none none, beq_self_eq_true, if_true]

theorem revisedPenalty_of_some (some : simplex.decisive.Nonempty) :
    simplex.revisedPenalty penalty =
      min penalty ((simplex.greatest (Fin.last m) - simplex.least (Fin.last m)) /
        simplex.constraintScale) := by
  have positive := simplex.constraintScale_pos some
  simp only [revisedPenalty, spread_eq, beq_iff_eq, if_neg positive.ne']
  split
  case isTrue small => exact (min_eq_right ((div_lt_iff₀ positive).mpr small).le).symm
  case isFalse large => exact (min_eq_left ((le_div_iff₀ positive).mpr (not_lt.mp large))).symm

theorem revisedPenalty_nonneg (nonneg : 0 ≤ penalty) : 0 ≤ simplex.revisedPenalty penalty := by
  rcases simplex.decisive.eq_empty_or_nonempty with none | some
  · exact (revisedPenalty_of_none none).ge
  · rw [revisedPenalty_of_some some]
    exact le_min nonneg (div_nonneg (sub_nonneg.mpr (simplex.least_le_greatest _))
      (simplex.constraintScale_pos some).le)

theorem revisedPenalty_le (nonneg : 0 ≤ penalty) : simplex.revisedPenalty penalty ≤ penalty := by
  rcases simplex.decisive.eq_empty_or_nonempty with none | some
  · exact (revisedPenalty_of_none none).trans_le nonneg
  · rw [revisedPenalty_of_some some]
    exact min_le_left _ _

/-! ## Another order -/

/-- The other simplex has the same values, with its vertices and its constraints in another
order. -/
structure Reordered (other simplex : Simplex α n m) (vertices : Equiv.Perm (Vertex n))
    (constraints : Equiv.Perm (Fin m)) : Prop where
  objective : ∀ vertex,
    (other.sample vertex).objective = (simplex.sample (vertices vertex)).objective
  constraints : ∀ vertex k, (other.sample vertex).constraints.get k =
    (simplex.sample (vertices vertex)).constraints.get (constraints k)

/-- Rows with the same values, in whatever order, have the same extremes. -/
theorem extremes_congr {k l : Fin (m + 1)} (vertices : Equiv.Perm (Vertex n))
    (same : other.value k = simplex.value l ∘ vertices) :
    other.least k = simplex.least l ∧ other.greatest k = simplex.greatest l := by
  have range : Set.range (other.value k) = Set.range (simplex.value l) := by
    rw [same, EquivLike.range_comp]
  have least := other.isLeast_least k
  have greatest := other.isGreatest_greatest k
  rw [range] at least greatest
  exact ⟨least.unique (simplex.isLeast_least l), greatest.unique (simplex.isGreatest_greatest l)⟩

namespace Reordered

variable {vertices : Equiv.Perm (Vertex n)} {constraints : Equiv.Perm (Fin m)}
  (reordered : other.Reordered simplex vertices constraints)

include reordered

theorem extremes_castSucc (k : Fin m) :
    other.least k.castSucc = simplex.least (constraints k).castSucc ∧
      other.greatest k.castSucc = simplex.greatest (constraints k).castSucc := by
  apply extremes_congr vertices
  funext vertex
  rw [value, Sample.row_castSucc, reordered.constraints]
  exact (Sample.row_castSucc ..).symm

theorem extremes_last : other.least (Fin.last m) = simplex.least (Fin.last m) ∧
    other.greatest (Fin.last m) = simplex.greatest (Fin.last m) := by
  apply extremes_congr vertices
  funext vertex
  rw [value, Sample.row_last, reordered.objective]
  exact (Sample.row_last _).symm

theorem covered (k : Fin m) : other.covered k = simplex.covered (constraints k) := by
  obtain ⟨least, greatest⟩ := reordered.extremes_castSucc k
  rw [Simplex.covered, Simplex.covered, least, greatest]

theorem mem_decisive_iff (k : Fin m) : k ∈ other.decisive ↔ constraints k ∈ simplex.decisive := by
  obtain ⟨least, greatest⟩ := reordered.extremes_castSucc k
  rw [mem_decisive, mem_decisive, least, greatest]

theorem image_covered : other.covered '' other.decisive = simplex.covered '' simplex.decisive := by
  ext distance
  constructor
  · rintro ⟨k, matters, rfl⟩
    exact ⟨constraints k, (reordered.mem_decisive_iff k).mp matters, (reordered.covered k).symm⟩
  · rintro ⟨k, matters, rfl⟩
    have here : constraints (constraints.symm k) = k := constraints.apply_symm_apply k
    refine ⟨constraints.symm k, (reordered.mem_decisive_iff _).mpr ?_, ?_⟩
    · rw [here]
      exact matters
    · rw [reordered.covered, here]

/-- **The revised penalty does not depend on the order of the vertices and constraints.** -/
theorem revisedPenalty : other.revisedPenalty penalty = simplex.revisedPenalty penalty := by
  have image := reordered.image_covered
  rcases other.decisive.eq_empty_or_nonempty with none | some
  · have none' : simplex.decisive = ∅ := by
      rw [none, Finset.coe_empty, Set.image_empty] at image
      exact Finset.coe_eq_empty.mp (Set.image_eq_empty.mp image.symm)
    rw [revisedPenalty_of_none none, revisedPenalty_of_none none']
  · have some' : simplex.decisive.Nonempty := by
      obtain ⟨k, matters⟩ := some
      exact ⟨constraints k, (reordered.mem_decisive_iff k).mp matters⟩
    have least := other.isLeast_constraintScale some
    rw [image] at least
    obtain ⟨lower, upper⟩ := reordered.extremes_last
    rw [revisedPenalty_of_some some, revisedPenalty_of_some some', lower, upper,
      least.unique (simplex.isLeast_constraintScale some')]

end Reordered

end Simplex

end DerivativeFree
