import DerivativeFree.Proofs.Interpolation.Inverse
import DerivativeFree.Interpolation.LinearModel

/-!
# Linear models that agree with the samples

A linear model agrees with the samples of a simplex if its slopes along the edges are the
differences of the values at their ends, and its bounds are the negated values in the pole
(`Interpolates`).  The objective is to be lowered, and its differences are taken the other way
round.

The gradients that are computed are combinations of the rows of the inverse, weighted by these
differences, and so a slope along an edge picks out one of them (`dot_gradientOf`).  There is no
other model with the same slopes, since the edges span the space
(`HasInverse.eq_zero_of_edges`).  At a vertex such a model predicts what has been found there.
-/

namespace DerivativeFree

set_option autoImplicit false

variable {α : Type} [EuclideanField α] {n m : Nat} {simplex : Simplex α n m}

/-! ## Edges -/

/-- A vector that is orthogonal to all edges is zero. -/
theorem Simplex.HasInverse.eq_zero_of_edges (exact : simplex.HasInverse) {v : Vector α n}
    (orthogonal : ∀ j, dot (simplex.edges.get j) v = 0) : v = 0 := by
  have left : simplex.inverseMatrix.transpose * simplex.edgeMatrix.transpose = 1 := by
    rw [← Matrix.transpose_mul, mul_eq_one_comm.mp (hasInverse_iff.mp exact), Matrix.transpose_one]
  have edges : simplex.edgeMatrix.transpose.mulVec v.get = 0 := by
    funext j
    rw [Matrix.mulVec, Pi.zero_apply, ← orthogonal j, dot_eq_sum]
    rfl
  have same : v.get = 0 := by
    rw [← Matrix.one_mulVec v.get, ← left, ← Matrix.mulVec_mulVec, edges, Matrix.mulVec_zero]
  exact vector_ext fun i => (congrFun same i).trans (get_zero i).symm

namespace LinearModel

variable {model : LinearModel α n m}

/-- Two gradients with the same slopes along all edges are the same. -/
theorem eq_of_edges (exact : simplex.HasInverse) {v w : Vector α n}
    (same : ∀ j, dot (simplex.edges.get j) v = dot (simplex.edges.get j) w) : v = w := by
  have difference : v - w = 0 := by
    refine exact.eq_zero_of_edges fun j => ?_
    rw [dot_sub, same j, sub_self]
  refine vector_ext fun i => sub_eq_zero.mp ?_
  rw [← get_sub, difference, get_zero]

/-- The slope of a computed gradient along an edge is the difference of the values at its ends. -/
theorem dot_gradientOf (exact : simplex.HasInverse) (k : Fin (m + 1)) (j : Fin n) :
    dot (simplex.edges.get j) (gradientOf simplex k) =
      (simplex.samples.get j).row.get k - simplex.poleSample.row.get k := by
  have column : ∀ i, (gradientOf simplex k).get i =
      ∑ l, ((simplex.samples.get l).row.get k + -simplex.poleSample.row.get k) *
        (simplex.inverse.get l).get i := by
    intro i
    simp only [gradientOf, Vector.get_ofFn, dot_eq_sum, get_map, column]
  calc dot (simplex.edges.get j) (gradientOf simplex k)
      = ∑ i, ∑ l, ((simplex.samples.get l).row.get k + -simplex.poleSample.row.get k) *
          ((simplex.inverse.get l).get i * (simplex.edges.get j).get i) := by
        simp only [dot_eq_sum, column, Finset.mul_sum]
        exact Finset.sum_congr rfl fun i _ => Finset.sum_congr rfl fun l _ => by ring
    _ = ∑ l, ((simplex.samples.get l).row.get k + -simplex.poleSample.row.get k) *
          dot (simplex.inverse.get l) (simplex.edges.get j) := by
        rw [Finset.sum_comm]
        simp only [dot_eq_sum, Finset.mul_sum]
    _ = (simplex.samples.get j).row.get k - simplex.poleSample.row.get k := by
        simp only [exact _ j, mul_ite, mul_one, mul_zero, Finset.sum_ite_eq', Finset.mem_univ,
          if_true, sub_eq_add_neg]

/-! ## Models -/

/-- The model has the values of the samples at all vertices. -/
structure Interpolates (model : LinearModel α n m) (simplex : Simplex α n m) : Prop where
  /-- The constraints at the ends of the edges. -/
  constraint : ∀ (j : Fin n) (k : Fin m), model.slope k.castSucc (simplex.edges.get j) =
    (simplex.samples.get j).constraints.get k - simplex.poleSample.constraints.get k
  /-- The objective at the ends of the edges. -/
  objective : ∀ j : Fin n, model.slope (Fin.last m) (simplex.edges.get j) =
    simplex.poleSample.objective - (simplex.samples.get j).objective
  /-- The constraints in the pole. -/
  bound : ∀ k : Fin m, model.bounds.get k.castSucc = -simplex.poleSample.constraints.get k
  /-- The objective in the pole. -/
  level : model.bounds.get (Fin.last m) = -simplex.poleSample.objective

/-- **The computed model has the values of the samples.** -/
theorem interpolates_interpolate (exact : simplex.HasInverse) :
    (interpolate simplex).Interpolates simplex where
  constraint j k := by
    rw [slope, interpolate, Vector.get_ofFn, if_neg (Fin.castSucc_ne_last k), dot_gradientOf exact,
      Sample.row_castSucc, Sample.row_castSucc]
  objective j := by
    have negated : dot (simplex.edges.get j) (-gradientOf simplex (Fin.last m)) =
        -dot (simplex.edges.get j) (gradientOf simplex (Fin.last m)) := by
      simp [dot_eq_sum]
    rw [slope, interpolate, Vector.get_ofFn, if_pos rfl, negated, dot_gradientOf exact,
      Sample.row_last, Sample.row_last, neg_sub]
  bound k := by rw [interpolate, get_neg, Sample.row_castSucc]
  level := by rw [interpolate, get_neg, Sample.row_last]

namespace Interpolates

/-- There is at most one such model. -/
theorem unique (exact : simplex.HasInverse) {other : LinearModel α n m}
    (first : model.Interpolates simplex) (second : other.Interpolates simplex) : model = other := by
  have gradients : model.gradients = other.gradients := by
    refine vector_ext fun k => eq_of_edges exact fun j => ?_
    induction k using Fin.lastCases with
    | last => exact (first.objective j).trans (second.objective j).symm
    | cast k => exact (first.constraint j k).trans (second.constraint j k).symm
  have bounds : model.bounds = other.bounds := by
    refine vector_ext fun k => ?_
    induction k using Fin.lastCases with
    | last => exact first.level.trans second.level.symm
    | cast k => exact (first.bound k).trans (second.bound k).symm
  cases model
  cases other
  exact congrArg₂ LinearModel.mk gradients bounds

/-- At the end of an edge the model predicts the violations of the values found there. -/
theorem predictedViolation (interpolates : model.Interpolates simplex) (j : Fin n) :
    model.predictedViolation (simplex.edges.get j) =
      Sample.worstViolation (simplex.samples.get j).constraints := by
  have shortfall : ∀ k : Fin m, model.bounds.get k.castSucc -
      model.slope k.castSucc (simplex.edges.get j) =
        -(simplex.samples.get j).constraints.get k := by
    intro k
    rw [interpolates.bound, interpolates.constraint]
    ring
  simp only [LinearModel.predictedViolation, shortfall, Sample.worstViolation]

/-- At the end of an edge the model predicts the increase of the objective found there. -/
theorem predictedIncrease (interpolates : model.Interpolates simplex) (j : Fin n) :
    model.predictedIncrease (simplex.edges.get j) =
      (simplex.samples.get j).objective - simplex.poleSample.objective := by
  rw [LinearModel.predictedIncrease, interpolates.objective, zero_sub, neg_sub]

end Interpolates

/-- **The computed model is the only one that has the values of the samples at all vertices.**
Where a sample holds the greatest violation of its constraints, the model predicts the violation
and the increase of the objective that have been found. -/
theorem interpolates_iff (exact : simplex.HasInverse) :
    (∀ model : LinearModel α n m, model.Interpolates simplex ↔ model = interpolate simplex) ∧
      ∀ j : Fin n,
        (simplex.samples.get j).violation =
            Sample.worstViolation (simplex.samples.get j).constraints →
          ((interpolate simplex).predictedViolation (simplex.edges.get j),
              (interpolate simplex).predictedIncrease (simplex.edges.get j)) =
            ((simplex.samples.get j).violation,
              (simplex.samples.get j).objective - simplex.poleSample.objective) := by
  have computed := interpolates_interpolate exact
  refine ⟨fun model => ⟨fun given => given.unique exact computed, ?_⟩, fun j known => ?_⟩
  · rintro rfl
    exact computed
  · rw [computed.predictedViolation, computed.predictedIncrease, known]

/-! ## A simplex with a skew edge -/

/-- One edge is not along an axis, and the constraint is violated at its end. -/
noncomputable def skewSimplex : Simplex ℝ 2 1 where
  edges := .ofFn ![rationals ![1, 1], rationals ![0, 1]]
  pole := rationals ![0, 0]
  inverse := .ofFn ![rationals ![1, 0], rationals ![-1, 1]]
  samples := .ofFn ![⟨rationals ![-1], -1, 1⟩, ⟨rationals ![2], 1, 0⟩]
  poleSample := ⟨rationals ![1], 0, 0⟩

/-- The values `1 - 3 x + y` of the constraint and `y - 2 x` of the objective. -/
noncomputable def skewModel : LinearModel ℝ 2 1 where
  gradients := .ofFn ![rationals ![-3, 1], rationals ![2, -1]]
  bounds := rationals ![-1, 0]

theorem interpolates_iff_on_skew :
    skewSimplex.HasInverse ∧ interpolate skewSimplex = skewModel ∧
      (skewModel.predictedViolation (skewSimplex.edges.get 0),
        skewModel.predictedIncrease (skewSimplex.edges.get 0)) = (1, -1) := by
  have exact : skewSimplex.HasInverse := by
    simp [Simplex.HasInverse, Fin.forall_fin_two, dot_eq_sum, Fin.sum_univ_two, skewSimplex,
      rationals]
  have model : skewModel.Interpolates skewSimplex := by
    constructor <;>
      simp [Fin.forall_fin_two, slope, dot_eq_sum, Fin.sum_univ_two, skewSimplex, skewModel,
        rationals] <;> norm_num
  obtain ⟨only, predicts⟩ := interpolates_iff exact
  have computed := ((only skewModel).mp model).symm
  have sampled : (skewSimplex.samples.get 0).violation =
      Sample.worstViolation (skewSimplex.samples.get 0).constraints := by
    simp [Sample.worstViolation, largestFrom, Fin.foldl_succ, skewSimplex, rationals]
  have found := predicts 0 sampled
  rw [computed] at found
  refine ⟨exact, computed, found.trans ?_⟩
  simp [skewSimplex]

end LinearModel

end DerivativeFree
