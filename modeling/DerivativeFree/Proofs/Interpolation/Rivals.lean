import DerivativeFree.Proofs.Interpolation.Pole

/-!
# The penalty and the violation in the pole

A greater penalty counts the violations for more.  If it dethrones a pole that was the best
vertex before, the vertex that is chosen instead has a smaller violation
(`violation_lt_of_dethroned`).  So the number of vertices whose violation is smaller than
that in the pole, the rivals, becomes less each time (`rivals_selectPole_lt`), and there are
never more than `n` of them.
-/

namespace DerivativeFree.Simplex

set_option autoImplicit false

variable {α : Type} [EuclideanField α] {n m : Nat} {simplex : Simplex α n m}

/-! ## Rivals -/

/-- The number of vertices whose violation is smaller than that in the pole. -/
def rivals (simplex : Simplex α n m) : Nat :=
  (Finset.univ.filter fun j => simplex.violation (.edge j) < simplex.violation .pole).card

theorem rivals_le (simplex : Simplex α n m) : simplex.rivals ≤ n :=
  (Finset.card_filter_le _ _).trans_eq (Finset.card_fin n)

theorem violation_promote (simplex : Simplex α n m) (j : Fin n) (vertex : Vertex n) :
    (simplex.promote j).violation vertex =
      simplex.violation (Equiv.swap .pole (.edge j) vertex) := by
  rw [violation, violation, sample_promote]

/-- A pole with a smaller violation has fewer rivals. -/
theorem rivals_promote_lt {j : Fin n}
    (less : simplex.violation (.edge j) < simplex.violation .pole) :
    (simplex.promote j).rivals < simplex.rivals := by
  refine Finset.card_lt_card (Finset.ssubset_iff_of_subset ?_ |>.mpr ⟨j, ?_, ?_⟩)
  · intro k rival
    simp only [Finset.mem_filter, Finset.mem_univ, true_and, violation_promote,
      Equiv.swap_apply_left] at rival ⊢
    by_cases same : k = j
    · rw [same]
      exact less
    · rw [Equiv.swap_apply_of_ne_of_ne (by simp) (by simpa using same)] at rival
      exact rival.trans less
  · exact Finset.mem_filter.mpr ⟨Finset.mem_univ j, less⟩
  · simp only [Finset.mem_filter, violation_promote, Equiv.swap_apply_left,
      Equiv.swap_apply_right, not_and, not_lt]
    exact fun _ => less.le

/-- **The vertex that dethrones the best one under a greater penalty has a smaller
violation.** -/
theorem violation_lt_of_dethroned {penalty raised : α} (best : simplex.PoleBest penalty)
    (rise : penalty < raised) (positive : 0 < raised)
    (lost : simplex.dethroned raised = true) :
    ∃ j, simplex.best raised = .edge j ∧
      simplex.violation (.edge j) < simplex.violation .pole := by
  have changed : simplex.best raised ≠ .pole := by
    intro kept
    obtain ⟨k, better⟩ := dethroned_iff.mp lost
    exact (simplex.best_spec raised).1 _ (kept ▸ better)
  have better := (simplex.best_spec raised).2.resolve_left changed
  cases chosen : simplex.best raised with
  | pole => exact absurd chosen changed
  | edge j =>
    refine ⟨j, rfl, ?_⟩
    rw [chosen] at better
    -- Ties are only broken while there is no penalty.
    have less : simplex.merit raised (.edge j) < simplex.merit raised .pole := by
      rcases better with less | ⟨-, wins⟩
      · exact less
      · simp [winsTie, positive.ne'] at wins
    have before := best j
    simp only [merit, Sample.merit] at before less
    have falls : (raised - penalty) * ((simplex.sample (.edge j)).violation -
        (simplex.sample .pole).violation) < 0 := by linarith
    have rises : 0 < raised - penalty := sub_pos.mpr rise
    exact sub_neg.mp (neg_of_mul_neg_right falls rises.le)

theorem rivals_selectPole_lt {penalty raised : α} (best : simplex.PoleBest penalty)
    (rise : penalty < raised) (positive : 0 < raised)
    (lost : simplex.dethroned raised = true) :
    (simplex.selectPole raised).1.rivals < simplex.rivals ∧
      (simplex.selectPole raised).1.violation .pole < simplex.violation .pole := by
  obtain ⟨j, chosen, less⟩ := violation_lt_of_dethroned best rise positive lost
  simp only [selectPole, chosen]
  refine ⟨rivals_promote_lt less, ?_⟩
  rw [violation_promote, Equiv.swap_apply_left]
  exact less

end DerivativeFree.Simplex
