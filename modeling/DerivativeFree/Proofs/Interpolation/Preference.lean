import DerivativeFree.Proofs.Interpolation.Vertices
import DerivativeFree.Proofs.Linear.Fold
import DerivativeFree.Proofs.Machine.Comparison

/-!
# Which vertex beats which

Two scans compare the vertices of a simplex: `dethroned` compares each of them with the pole,
and `best` with the best one so far, of which it keeps a merit that may belong to an equal of
it.  They agree for all values, those that are not a number included, since both go by the same
relation: a vertex `Beats` another one if it has less merit, or the same and wins the tie.

That relation is irreflexive and transitive, although two vertices need not compare.  So no
vertex beats the one that `best` finds (`best_unbeaten`).  It becomes the pole if and only if
the pole was dethroned (`isSome_selectPole`), and then nothing dethrones it
(`dethroned_selectPole`), so that to choose the pole again changes nothing
(`selectPole_selectPole`).
-/

namespace DerivativeFree.Simplex

set_option autoImplicit false

variable {α : Type} [Scalar α] {n m : Nat} {simplex : Simplex α n m} {penalty : α}

/-! ## A relation between vertices -/

/-- A vertex beats another one: it is found to have less merit, or the same and wins the tie. -/
def Beats (simplex : Simplex α n m) (penalty : α) (vertex other : Vertex n) : Prop :=
  simplex.merit penalty vertex < simplex.merit penalty other ∨
    (simplex.merit penalty vertex == simplex.merit penalty other) = true ∧
      simplex.winsTie penalty vertex other = true

theorem dethroned_iff_beats :
    simplex.dethroned penalty = true ↔ ∃ j, simplex.Beats penalty (.edge j) .pole := by
  simp [dethroned, Beats]

theorem merit_promote (simplex : Simplex α n m) (penalty : α) (j : Fin n) (vertex : Vertex n) :
    (simplex.promote j).merit penalty vertex =
      simplex.merit penalty (Equiv.swap .pole (.edge j) vertex) := by
  rw [merit, merit, sample_promote]

/-- A change of the pole leaves the relation between the vertices as it is. -/
theorem beats_promote (simplex : Simplex α n m) (penalty : α) (j : Fin n)
    (vertex other : Vertex n) : (simplex.promote j).Beats penalty vertex other ↔
      simplex.Beats penalty (Equiv.swap .pole (.edge j) vertex)
        (Equiv.swap .pole (.edge j) other) := by
  simp only [Beats, merit_promote, winsTie, violation, sample_promote]
  exact Iff.rfl

variable [LawfulComparison α]

theorem Beats.irrefl (vertex : Vertex n) : ¬ simplex.Beats penalty vertex vertex := by
  rintro (less | ⟨-, wins⟩)
  · exact LawfulComparison.irrefl _ less
  · simp only [winsTie, Bool.and_eq_true, decide_eq_true_eq] at wins
    exact LawfulComparison.irrefl _ wins.2

theorem Beats.trans {first second third : Vertex n} (beats : simplex.Beats penalty first second)
    (further : simplex.Beats penalty second third) : simplex.Beats penalty first third := by
  rcases beats with less | ⟨same, wins⟩
  · rcases further with lower | ⟨level, -⟩
    · exact .inl (LawfulComparison.trans less lower)
    · exact .inl (LawfulComparison.lt_of_lt_of_beq less level)
  · rcases further with lower | ⟨level, wins'⟩
    · exact .inl (LawfulComparison.lt_of_beq_of_lt same lower)
    · simp only [winsTie, Bool.and_eq_true, decide_eq_true_eq] at wins wins'
      refine .inr ⟨LawfulComparison.beq_trans same level, ?_⟩
      simp only [winsTie, Bool.and_eq_true, decide_eq_true_eq]
      exact ⟨wins.1, LawfulComparison.trans wins.2 wins'.2⟩

/-! ## The scan -/

/-- The same scalars are found below two scalars, and the same equal to them. -/
def Level (a b : α) : Prop :=
  ∀ c : α, (c < a ↔ c < b) ∧ ((c == a) = true ↔ (c == b) = true)

theorem level_of_beq {a b : α} (same : (a == b) = true) : Level b a := by
  intro d
  have back := LawfulComparison.beq_symm same
  refine ⟨⟨fun less => ?_, fun less => ?_⟩, ⟨fun equal => ?_, fun equal => ?_⟩⟩
  · exact LawfulComparison.lt_of_lt_of_beq less back
  · exact LawfulComparison.lt_of_lt_of_beq less same
  · exact LawfulComparison.beq_trans equal back
  · exact LawfulComparison.beq_trans equal same

/-- What is known of the best vertex so far, after a number of edges have been taken. -/
structure BestSoFar (simplex : Simplex α n m) (penalty : α) (taken : Nat)
    (best : Vertex n × α) : Prop where
  level : Level best.2 (simplex.merit penalty best.1)
  pole : best.1 = .pole ∨ simplex.Beats penalty best.1 .pole
  unbeaten : ∀ k : Fin n, k < taken → ¬ simplex.Beats penalty (.edge k) best.1

/-- A vertex that beats the best one so far takes over: nothing that did not beat the old one
beats it. -/
theorem BestSoFar.renew {j : Fin n} {best : Vertex n × α}
    (known : simplex.BestSoFar penalty j best) (beats : simplex.Beats penalty (.edge j) best.1)
    {least : α} (level : Level least (simplex.merit penalty (.edge j))) :
    simplex.BestSoFar penalty (j + 1) (.edge j, least) := by
  refine ⟨level, .inr ?pole, fun k taken above => ?unbeaten⟩
  case pole =>
    rcases known.pole with same | before
    · exact same ▸ beats
    · exact beats.trans before
  case unbeaten =>
    rcases Nat.lt_succ_iff_lt_or_eq.mp taken with earlier | now
    · exact known.unbeaten k earlier (above.trans beats)
    · exact Beats.irrefl _ (Fin.ext now ▸ above)

theorem BestSoFar.betterOf {j : Fin n} {best : Vertex n × α}
    (known : simplex.BestSoFar penalty j best) :
    simplex.BestSoFar penalty (j + 1) (simplex.betterOf penalty best j) := by
  obtain ⟨less_iff, same_iff⟩ := known.level (simplex.merit penalty (.edge j))
  simp only [Simplex.betterOf]
  split
  case isTrue less => exact known.renew (.inl (less_iff.mp less)) fun _ => ⟨Iff.rfl, Iff.rfl⟩
  case isFalse least =>
    split
    case isTrue tie =>
      obtain ⟨same, wins⟩ := Bool.and_eq_true_iff.mp tie
      exact known.renew (.inr ⟨same_iff.mp same, wins⟩) (level_of_beq same)
    case isFalse loses =>
      refine ⟨known.level, known.pole, fun k taken beats => ?_⟩
      rcases Nat.lt_succ_iff_lt_or_eq.mp taken with earlier | now
      · exact known.unbeaten k earlier beats
      · obtain rfl : k = j := Fin.ext now
        rcases beats with less | ⟨same, wins⟩
        · exact least (less_iff.mpr less)
        · exact loses (Bool.and_eq_true_iff.mpr ⟨same_iff.mpr same, wins⟩)

/-- **No vertex beats the one found by `best`**, which is the pole or beats that. -/
theorem best_unbeaten (simplex : Simplex α n m) (penalty : α) :
    (∀ vertex, ¬ simplex.Beats penalty vertex (simplex.best penalty)) ∧
      (simplex.best penalty = .pole ∨ simplex.Beats penalty (simplex.best penalty) .pole) := by
  have found : simplex.BestSoFar penalty n
      (Fin.foldl n (simplex.betterOf penalty) (.pole, simplex.merit penalty .pole)) := by
    apply foldl_invariant (simplex.betterOf penalty)
    · exact ⟨fun _ => ⟨Iff.rfl, Iff.rfl⟩, .inl rfl,
        fun _ before => absurd before (Nat.not_lt_zero _)⟩
    · intro j best known
      exact known.betterOf
  refine ⟨fun vertex beats => ?_, found.pole⟩
  cases vertex with
  | edge k => exact found.unbeaten k k.isLt beats
  | pole =>
    rcases found.pole with same | above
    · rw [best, same] at beats
      exact Beats.irrefl .pole beats
    · exact Beats.irrefl .pole (beats.trans above)

/-! ## The choice of the pole -/

/-- A pole that is not dethroned is chosen again. -/
theorem best_of_not_dethroned (kept : simplex.dethroned penalty = false) :
    simplex.best penalty = .pole := by
  refine (simplex.best_unbeaten penalty).2.resolve_right fun beats => ?_
  cases chosen : simplex.best penalty with
  | pole => exact Beats.irrefl .pole (chosen ▸ beats)
  | edge j =>
    rw [chosen] at beats
    rw [dethroned_iff_beats.mpr ⟨j, beats⟩] at kept
    cases kept

theorem selectPole_of_not_dethroned (kept : simplex.dethroned penalty = false) :
    simplex.selectPole penalty = (simplex, none) := by
  rw [selectPole, best_of_not_dethroned kept]

/-- **Another vertex becomes the pole if and only if the pole is dethroned.** -/
theorem isSome_selectPole (simplex : Simplex α n m) (penalty : α) :
    (simplex.selectPole penalty).2.isSome = simplex.dethroned penalty := by
  cases lost : simplex.dethroned penalty with
  | false => rw [selectPole_of_not_dethroned lost, Option.isSome_none]
  | true =>
    obtain ⟨k, beats⟩ := dethroned_iff_beats.mp lost
    rw [selectPole]
    split
    case h_1 chosen =>
      rw [← chosen] at beats
      exact absurd beats ((simplex.best_unbeaten penalty).1 _)
    case h_2 => rfl

/-- **The chosen pole is not dethroned** under the same penalty. -/
theorem dethroned_selectPole (simplex : Simplex α n m) (penalty : α) :
    (simplex.selectPole penalty).1.dethroned penalty = false := by
  have unbeaten := (simplex.best_unbeaten penalty).1
  refine Bool.eq_false_iff.mpr fun lost => ?_
  obtain ⟨k, beats⟩ := dethroned_iff_beats.mp lost
  rw [selectPole] at beats
  split at beats
  case h_1 chosen => exact unbeaten _ (chosen ▸ beats)
  case h_2 j chosen =>
    rw [beats_promote, Equiv.swap_apply_left] at beats
    exact unbeaten _ (chosen ▸ beats)

/-- **To choose the pole again changes nothing.** -/
theorem selectPole_selectPole (simplex : Simplex α n m) (penalty : α) :
    (simplex.selectPole penalty).1.selectPole penalty = ((simplex.selectPole penalty).1, none) :=
  selectPole_of_not_dethroned (simplex.dethroned_selectPole penalty)

end DerivativeFree.Simplex
