import DerivativeFree.Proofs.Interpolation.Preference

/-!
# The pole as the best vertex

In exact arithmetic any two vertices compare, and a vertex that nothing beats is the best one:
none is `Better` than the one found by `best` (`best_spec`).  `selectPole` makes it the pole
without moving a vertex, so that afterwards no vertex has less merit than the pole
(`poleBest_selectPole`) and the points with their samples are the same as before
(`sampledPoints_selectPole`).  A pole that is not dethroned by a new penalty stays the best
vertex under it.

`selectPole_settles` says all that the choice of the pole does, for any scalars that compare
lawfully and in exact arithmetic.
-/

namespace DerivativeFree.Simplex

set_option autoImplicit false

variable {α : Type} [EuclideanField α] {n m : Nat} {simplex : Simplex α n m} {penalty : α}

/-! ## Better vertices -/

/-- A vertex is better than another one: it has less merit, or the same and wins the tie. -/
def Better (simplex : Simplex α n m) (penalty : α) (vertex other : Vertex n) : Prop :=
  simplex.merit penalty vertex < simplex.merit penalty other ∨
    simplex.merit penalty vertex = simplex.merit penalty other ∧
      simplex.winsTie penalty vertex other = true

/-- No vertex has less merit than the pole. -/
def PoleBest (simplex : Simplex α n m) (penalty : α) : Prop :=
  ∀ j, simplex.merit penalty .pole ≤ simplex.merit penalty (.edge j)

theorem better_iff_beats {vertex other : Vertex n} :
    simplex.Better penalty vertex other ↔ simplex.Beats penalty vertex other := by
  simp [Better, Beats]

theorem dethroned_iff :
    simplex.dethroned penalty = true ↔ ∃ j, simplex.Better penalty (.edge j) .pole := by
  simp only [better_iff_beats, dethroned_iff_beats]

/-- **No vertex is better than the one found by `best`**, which is the pole or better than
that. -/
theorem best_spec (simplex : Simplex α n m) (penalty : α) :
    (∀ vertex, ¬ simplex.Better penalty vertex (simplex.best penalty)) ∧
      (simplex.best penalty = .pole ∨ simplex.Better penalty (simplex.best penalty) .pole) := by
  simp only [better_iff_beats]
  exact simplex.best_unbeaten penalty

theorem merit_best_le (simplex : Simplex α n m) (penalty : α) (vertex : Vertex n) :
    simplex.merit penalty (simplex.best penalty) ≤ simplex.merit penalty vertex :=
  not_lt.mp fun less => (simplex.best_spec penalty).1 vertex (.inl less)

/-! ## The choice of the pole -/

/-- **The choice of the pole makes it the best vertex.** -/
theorem poleBest_selectPole (simplex : Simplex α n m) (penalty : α) :
    (simplex.selectPole penalty).1.PoleBest penalty := by
  intro k
  have least := simplex.merit_best_le penalty
  rw [selectPole]
  split
  case h_1 chosen =>
    rw [chosen] at least
    exact least (.edge k)
  case h_2 j chosen =>
    rw [chosen] at least
    rw [merit_promote, merit_promote, Equiv.swap_apply_left]
    exact least _

/-- The choice of the pole moves no point and no sample. -/
theorem sampledPoints_selectPole (simplex : Simplex α n m) (penalty : α) :
    (simplex.selectPole penalty).1.sampledPoints = simplex.sampledPoints := by
  rw [selectPole]
  split
  case h_1 => rfl
  case h_2 j _ => exact simplex.sampledPoints_promote j

/-- Among the vertices of the least merit, the chosen pole has the least violation while there
is no penalty. -/
theorem violation_selectPole_le (simplex : Simplex α n m) {vertex : Vertex n}
    (level : (simplex.selectPole 0).1.merit 0 vertex = (simplex.selectPole 0).1.merit 0 .pole) :
    (simplex.selectPole 0).1.violation .pole ≤ (simplex.selectPole 0).1.violation vertex := by
  cases vertex with
  | pole => exact le_rfl
  | edge j =>
    apply not_lt.mp
    intro less
    have better : (simplex.selectPole 0).1.Better 0 (.edge j) .pole :=
      .inr ⟨level, by simpa [winsTie] using less⟩
    have lost := dethroned_iff.mpr ⟨j, better⟩
    rw [dethroned_selectPole] at lost
    cases lost

theorem poleBest_of_not_dethroned (kept : simplex.dethroned penalty = false) :
    simplex.PoleBest penalty := by
  intro j
  simp only [dethroned, List.any_eq_false, List.mem_finRange, true_implies] at kept
  have calm := kept j
  simp only [Bool.or_eq_true, decide_eq_true_eq, not_or] at calm
  exact not_lt.mp calm.1

theorem PoleBest.replaceEdge (best : simplex.PoleBest penalty) (j : Fin n) (step : Vector α n) :
    (simplex.replaceEdge j step).PoleBest penalty :=
  best

/-- A vertex that is better than the pole after a replacement is the replaced one. -/
theorem PoleBest.replaceVertex (best : simplex.PoleBest penalty) {j k : Fin n}
    {step : Vector α n} {sample : Sample α m}
    (better : (simplex.replaceVertex j step sample).merit penalty (.edge k) <
      (simplex.replaceVertex j step sample).merit penalty .pole) :
    (simplex.replaceVertex j step sample).sample (.edge k) = sample := by
  by_cases same : k = j
  · rw [same]
    exact sample_setSample_self ..
  · have other : (simplex.replaceVertex j step sample).sample (.edge k) =
        simplex.sample (.edge k) := by
      rw [Simplex.replaceVertex, sample_setSample_of_ne _ (by simpa using Ne.symm same),
        sample_replaceEdge]
    rw [merit, other] at better
    exact absurd better (not_lt.mpr (best k))

/-! ## All that the choice does -/

/-- **What the choice of the pole does.**  For any scalars that compare lawfully, values that
are not a number included, another vertex becomes the pole if and only if the pole is dethroned;
after that it is not, and to choose again changes nothing.  In exact arithmetic the pole then has
the least merit, and while there is no penalty also the least violation among its equals, and
the points with their samples are the same as before. -/
theorem selectPole_settles :
    (∀ {α : Type} [Scalar α] [LawfulComparison α] {n m : Nat} (simplex : Simplex α n m)
      (penalty : α),
      ((simplex.selectPole penalty).2.isSome = true ↔ simplex.dethroned penalty = true) ∧
        (simplex.selectPole penalty).1.dethroned penalty = false ∧
        (simplex.selectPole penalty).1.selectPole penalty =
          ((simplex.selectPole penalty).1, none)) ∧
    ∀ {α : Type} [EuclideanField α] {n m : Nat} (simplex : Simplex α n m) (penalty : α),
      (∀ vertex, (simplex.selectPole penalty).1.merit penalty .pole ≤
        (simplex.selectPole penalty).1.merit penalty vertex) ∧
        (penalty = 0 → ∀ vertex,
          (simplex.selectPole penalty).1.merit penalty vertex =
            (simplex.selectPole penalty).1.merit penalty .pole →
          (simplex.selectPole penalty).1.violation .pole ≤
            (simplex.selectPole penalty).1.violation vertex) ∧
        (simplex.selectPole penalty).1.sampledPoints = simplex.sampledPoints := by
  constructor
  · intro α _ _ n m simplex penalty
    refine ⟨?_, simplex.dethroned_selectPole penalty, simplex.selectPole_selectPole penalty⟩
    rw [isSome_selectPole]
  · intro α _ n m simplex penalty
    refine ⟨fun vertex => ?_, fun none vertex level => ?_,
      simplex.sampledPoints_selectPole penalty⟩
    · cases vertex with
      | pole => exact le_rfl
      | edge j => exact simplex.poleBest_selectPole penalty j
    · subst none
      exact simplex.violation_selectPole_le level

/-- A simplex in the plane.  The pole and the second vertex have the same objective, and the
second one has the smaller violation; the objective of the first vertex is given. -/
def contested {α : Type} [Scalar α] (objective : α) : Simplex α 2 1 where
  edges := #v[#v[1, 0], #v[0, 1]]
  pole := #v[0, 0]
  inverse := #v[#v[1, 0], #v[0, 1]]
  samples := #v[⟨#v[0], objective, 0⟩, ⟨#v[-1], 1, 1⟩]
  poleSample := ⟨#v[-2.0], 1, 2.0⟩

theorem contested_best : (contested (5 : ℝ)).best 0 = .edge 1 := by
  simp [Simplex.best, Fin.foldl_succ, Simplex.betterOf, Simplex.merit, contested, Simplex.sample,
    Sample.merit, Simplex.winsTie, Simplex.violation, get_eq_getElem]
  norm_num

/-- The second vertex wins the tie: in double precision, where the first one has an objective that
is not a number, and in exact arithmetic, where the pole then has a smaller violation than its
equal. -/
theorem selectPole_settles_contested :
    (IsNan ((contested (0 / 0 : Float)).merit 0 (.edge 0)) ∧
      ((contested (0 / 0 : Float)).selectPole 0).2 = some 1 ∧
      (contested (0 / 0 : Float)).dethroned 0 = true ∧
      ((contested (0 / 0 : Float)).selectPole 0).1.dethroned 0 = false ∧
      ((contested (0 / 0 : Float)).selectPole 0).1.selectPole 0 =
        (((contested (0 / 0 : Float)).selectPole 0).1, none)) ∧
      ((contested (5 : ℝ)).selectPole 0).2 = some 1 ∧
      ((contested (5 : ℝ)).selectPole 0).1.violation .pole ≤
        ((contested (5 : ℝ)).selectPole 0).1.violation (.edge 1) := by
  constructor
  · have chosen : ((contested (0 / 0 : Float)).selectPole 0).2 = some 1 := by decide +kernel
    obtain ⟨promoted, calm, again⟩ := selectPole_settles.1 (contested (0 / 0 : Float)) 0
    have some : ((contested (0 / 0 : Float)).selectPole 0).2.isSome = true := by rw [chosen]; rfl
    exact ⟨by decide +kernel, chosen, promoted.mp some, calm, again⟩
  · have chosen : (contested (5 : ℝ)).selectPole 0 = ((contested 5).promote 1, some 1) := by
      rw [selectPole, contested_best]
    have level : ((contested (5 : ℝ)).selectPole 0).1.merit 0 (.edge 1) =
        ((contested (5 : ℝ)).selectPole 0).1.merit 0 .pole := by
      rw [chosen, merit_promote, merit_promote, Equiv.swap_apply_left, Equiv.swap_apply_right]
      norm_num [merit, contested, Sample.merit, Simplex.sample, get_eq_getElem]
    obtain ⟨-, ties, -⟩ := selectPole_settles.2 (contested (5 : ℝ)) 0
    exact ⟨by rw [chosen], ties rfl _ level⟩

end DerivativeFree.Simplex
