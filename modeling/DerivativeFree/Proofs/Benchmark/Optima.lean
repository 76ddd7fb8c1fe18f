import DerivativeFree.Proofs.Exact.Vector
import DerivativeFree.Proofs.Problem.Projection
import DerivativeFree.Benchmark.Nonlinear
import DerivativeFree.Benchmark.Quadratic

/-!
# The optima of the benchmarks

A listed optimum is the solution of its problem (`IsSolution`): it is feasible, and every other
feasible point has a greater objective.  For the quadratic benchmarks this is so because the
objective grows at least with the square of the distance (`solution_of_growth`).

Without constraints the growth is an identity, and in a box it comes from the projection by which
the optimum is found (`clamp_growth`).  The optima of `halfPlane` and `rosenSuzuki` lie on the
boundary.  There the objective is a sum of squares and of the active constraints, each of them with
its multiplier.
-/

namespace DerivativeFree

set_option autoImplicit false

variable {α : Type} [EuclideanField α] {n : Nat}

/-! ## Solutions -/

namespace Problem

/-- The bounds and the constraints of a problem hold at a point, whatever has been written for the
constraints before. -/
structure Feasible (problem : Problem Id α) (x : Vector α problem.dim) : Prop where
  lower : ∀ i, ∀ l ∈ problem.box.lower.get i, l ≤ x.get i
  upper : ∀ i, ∀ u ∈ problem.box.upper.get i, x.get i ≤ u
  constraints : ∀ (values : Vector α problem.constraintCount) k,
    0 ≤ (problem.evaluate x values).run.1.get k

/-- The point is feasible, and all others that are have a greater objective. -/
structure IsSolution (problem : Problem Id α) (optimum : Vector α problem.dim) : Prop where
  feasible : problem.Feasible optimum
  least : ∀ x, problem.Feasible x → ∀ values values' : Vector α problem.constraintCount,
    ∃ best value, (problem.evaluate optimum values).run.2 = .ok best ∧
      (problem.evaluate x values').run.2 = .ok value ∧
      best ≤ value ∧ (value = best → x = optimum)

end Problem

namespace Benchmark

/-- Optima are listed, and they are solutions of the problem. -/
structure Solved (benchmark : Benchmark Id α) : Prop where
  listed : benchmark.optima ≠ []
  solution : ∀ optimum ∈ benchmark.optima, benchmark.problem.IsSolution optimum

section Constrained

variable {box : Box α n} {objective : {k : Nat} → Vector α k → α}
  {constraints : {k : Nat} → Vector α k → List α} {count : Nat} {x optimum : Vector α n}

/-- The constraints of a problem that never fails are those of its list. -/
theorem feasible_iff (length : (constraints x).length = count) :
    (constrained (M := Id) box objective constraints count).Feasible x ↔
      (∀ i, ∀ l ∈ box.lower.get i, l ≤ x.get i) ∧ (∀ i, ∀ u ∈ box.upper.get i, x.get i ≤ u) ∧
        ∀ c ∈ constraints x, 0 ≤ c := by
  have entry : ∀ (values : Vector α count) (k : Fin count),
      ((constrained (M := Id) box objective constraints count).evaluate x values).run.1.get k =
        (constraints x).get ⟨k.val, length.symm ▸ k.isLt⟩ := by
    intro values k
    exact (Vector.get_ofFn _ k).trans (List.getD_eq_getElem ..)
  constructor
  · rintro ⟨lower, upper, holds⟩
    refine ⟨lower, upper, fun c among => ?_⟩
    obtain ⟨k, inside, rfl⟩ := List.mem_iff_getElem.mp among
    exact (holds 0 ⟨k, length ▸ inside⟩).trans_eq (entry 0 _)
  · rintro ⟨lower, upper, holds⟩
    exact ⟨lower, upper, fun values k => (holds _ (List.getElem_mem _)).trans_eq
      (entry values k).symm⟩

/-- **A feasible point from which the objective grows with the square of the distance is the
solution.** -/
theorem solution_of_growth
    (feasible : (constrained (M := Id) box objective constraints count).Feasible optimum)
    (growth : ∀ x : Vector α n,
      (constrained (M := Id) box objective constraints count).Feasible x →
        objective optimum + dot (x - optimum) (x - optimum) ≤ objective x) :
    (constrained (M := Id) box objective constraints count).IsSolution optimum := by
  refine ⟨feasible, fun (x : Vector α n) found values values' =>
    ⟨objective optimum, objective x, rfl, rfl, ?_⟩⟩
  have far := growth x found
  refine ⟨(le_add_of_nonneg_right (dot_self_nonneg _)).trans far, fun same => ?_⟩
  have none : x - optimum = 0 := by
    by_contra apart
    have distance := dot_self_pos apart
    linarith
  refine vector_ext fun i => sub_eq_zero.mp ?_
  rw [← get_sub, none, get_zero]

end Constrained

/-! ## Coordinates -/

theorem distance_two (x y : Vector α 2) : dot (x - y) (x - y) =
    square (entry x 0 - entry y 0) + square (entry x 1 - entry y 1) := by
  rw [dot_eq_sum, Fin.sum_univ_two, get_sub, get_sub]
  simp [entry, square, get_eq_getElem]

theorem distance_four (x y : Vector α 4) : dot (x - y) (x - y) =
    square (entry x 0 - entry y 0) + square (entry x 1 - entry y 1) +
      square (entry x 2 - entry y 2) + square (entry x 3 - entry y 3) := by
  rw [dot_eq_sum, Fin.sum_univ_four, get_sub, get_sub, get_sub, get_sub]
  simp [entry, square, get_eq_getElem]

/-! ## Without constraints -/

theorem unbounded_feasible (positive : 0 < n) (x : Vector α n) :
    (∀ i, ∀ l ∈ (Box.unbounded n positive : Box α n).lower.get i, l ≤ x.get i) ∧
      ∀ i, ∀ u ∈ (Box.unbounded n positive : Box α n).upper.get i, x.get i ≤ u := by
  simp [Box.unbounded, get_eq_getElem]

theorem sphere_solved (n : Nat) (positive : 0 < n) :
    (sphere n positive : Benchmark Id α).Solved := by
  have growth : ∀ x : Vector α n, (sumFrom 0 fun i : Fin n => square ((0 : Vector α n).get i)) +
      dot (x - 0) (x - 0) ≤ sumFrom 0 fun i : Fin n => square (x.get i) := by
    intro x
    simp [sumFrom_eq_sum, square, dot_eq_sum]
  refine ⟨nofun, fun optimum listed => ?_⟩
  obtain rfl := List.mem_singleton.mp listed
  refine solution_of_growth ((feasible_iff rfl).mpr ?_) fun x _ => growth x
  exact ⟨(unbounded_feasible positive _).1, (unbounded_feasible positive _).2, nofun⟩

/-! ## In a box -/

section Clamp

variable {lower upper : Option α}

/-- A number is moved between the bounds. -/
theorem clamp_between (ordered : ∀ l ∈ lower, ∀ u ∈ upper, l ≤ u) (centre : α) :
    (∀ l ∈ lower, l ≤ Box.clamp lower upper centre) ∧
      ∀ u ∈ upper, Box.clamp lower upper centre ≤ u := by
  have moved := Box.clamped lower upper centre
  generalize Box.clamp lower upper centre = point,
    Box.violates lower upper centre = outside at moved
  cases moved with
  | raised bound below =>
    refine ⟨fun l given => ?_, ordered _ bound⟩
    exact (Option.some.inj (given.symm.trans bound)).le
  | lowered right bound above =>
    refine ⟨fun l given => ordered l given _ bound, fun u given => ?_⟩
    exact (Option.some.inj (bound.symm.trans given)).le
  | kept between => exact ⟨fun l given => not_lt.mp (between.1 l given),
      fun u given => not_lt.mp (between.2 u given)⟩

/-- A number that is moved to a bound comes closer to everything between the bounds, even in the
square. -/
theorem clamp_growth {x : α} (above : ∀ l ∈ lower, l ≤ x) (below : ∀ u ∈ upper, x ≤ u)
    (centre : α) : square (Box.clamp lower upper centre - centre) +
      square (x - Box.clamp lower upper centre) ≤ square (x - centre) := by
  have moved := Box.clamped lower upper centre
  generalize Box.clamp lower upper centre = point,
    Box.violates lower upper centre = outside at moved
  -- The square of a sum exceeds the squares by a product, which is of one sign.
  suffices product : 0 ≤ (point - centre) * (x - point) by
    simp only [square]
    linarith
  cases moved with
  | raised bound under =>
    exact mul_nonneg (sub_nonneg.mpr under.le) (sub_nonneg.mpr (above _ bound))
  | lowered _ bound beyond =>
    exact mul_nonneg_of_nonpos_of_nonpos (sub_nonpos.mpr beyond.le) (sub_nonpos.mpr (below _ bound))
  | kept => rw [sub_self, zero_mul]

end Clamp

theorem shiftedParaboloid_solved (box : Box α 2) :
    (shiftedParaboloid box : Benchmark Id α).Solved := by
  have growth : ∀ x : Vector α 2, (∀ i, ∀ l ∈ box.lower.get i, l ≤ x.get i) →
      (∀ i, ∀ u ∈ box.upper.get i, x.get i ≤ u) →
      square (entry (box.project #v[1.0, 2.0]).1 0 - 1.0) +
            square (entry (box.project #v[1.0, 2.0]).1 1 - 2.0) +
          dot (x - (box.project #v[1.0, 2.0]).1) (x - (box.project #v[1.0, 2.0]).1) ≤
        square (entry x 0 - 1.0) + square (entry x 1 - 2.0) := by
    intro x above below
    have left : entry (box.project #v[1.0, 2.0]).1 0 =
        Box.clamp (box.lower.get 0) (box.upper.get 0) 1.0 :=
      (entry_of_lt _ (by decide)).trans (box.project_get _ 0)
    have right : entry (box.project #v[1.0, 2.0]).1 1 =
        Box.clamp (box.lower.get 1) (box.upper.get 1) 2.0 :=
      (entry_of_lt _ (by decide)).trans (box.project_get _ 1)
    have first := clamp_growth (above 0) (below 0) 1.0
    have second := clamp_growth (above 1) (below 1) 2.0
    rw [← left, show x.get 0 = entry x 0 from (entry_of_lt x (by decide)).symm] at first
    rw [← right, show x.get 1 = entry x 1 from (entry_of_lt x (by decide)).symm] at second
    rw [distance_two]
    simp only [square] at first second ⊢
    linarith
  refine ⟨nofun, fun optimum listed => ?_⟩
  obtain rfl := List.mem_singleton.mp listed
  refine solution_of_growth ((feasible_iff rfl).mpr ⟨fun i => ?_, fun i => ?_, nofun⟩)
    fun x found => ?_
  · rw [Box.project_get]
    exact (clamp_between (box.ordered i) _).1
  · rw [Box.project_get]
    exact (clamp_between (box.ordered i) _).2
  · exact growth x found.lower found.upper

/-! ## On the boundary -/

theorem halfPlane_solved : (halfPlane : Benchmark Id α).Solved := by
  have growth : ∀ x : Vector α 2, 0 ≤ entry x 0 + entry x 1 - 1.0 →
      square (entry #v[0.5, 0.5] 0) + square (entry #v[0.5, 0.5] 1) +
          dot (x - #v[0.5, 0.5]) (x - #v[0.5, 0.5]) ≤ square (entry x 0) + square (entry x 1) := by
    intro x holds
    have first : entry #v[(0.5 : α), 0.5] 0 = 1 / 2 := (by norm_num : (0.5 : α) = 1 / 2)
    have second : entry #v[(0.5 : α), 0.5] 1 = 1 / 2 := first
    rw [distance_two, first, second]
    simp only [square]
    norm_num at holds ⊢
    linarith
  refine ⟨nofun, fun optimum listed => ?_⟩
  obtain rfl := List.mem_singleton.mp listed
  refine solution_of_growth ((feasible_iff rfl).mpr ?_) fun x found => ?_
  · refine ⟨(unbounded_feasible _ _).1, (unbounded_feasible _ _).2, ?_⟩
    simp [entry]
    norm_num
  · obtain ⟨-, -, holds⟩ := (feasible_iff rfl).mp found
    exact growth x (holds _ List.mem_cons_self)

/-- The objective in terms of the distances from the optimum and the two constraints that are active
there. -/
theorem rosenSuzukiObjective_eq (x₁ x₂ x₃ x₄ : α) :
    rosenSuzukiObjective x₁ x₂ x₃ x₄ =
      -44 + 6 * (x₁ * x₁) + 4 * ((x₂ - 1) * (x₂ - 1)) + 5 * ((x₃ - 2) * (x₃ - 2)) +
        2 * ((x₄ + 1) * (x₄ + 1)) +
        (8.0 - x₁ * x₁ - x₂ * x₂ - x₃ * x₃ - x₄ * x₄ - x₁ + x₂ - x₃ + x₄) +
        2 * (5.0 - 2.0 * x₁ * x₁ - x₂ * x₂ - x₃ * x₃ - 2.0 * x₁ + x₂ + x₄) := by
  simp only [rosenSuzukiObjective]
  norm_num
  ring

theorem rosenSuzuki_solved : (rosenSuzuki : Benchmark Id α).Solved := by
  have growth : ∀ x : Vector α 4,
      (∀ c ∈ rosenSuzukiConstraints (entry x 0) (entry x 1) (entry x 2) (entry x 3), 0 ≤ c) →
      rosenSuzukiObjective (0.0 : α) 1.0 2.0 (-1.0) +
          dot (x - #v[0.0, 1.0, 2.0, -1.0]) (x - #v[0.0, 1.0, 2.0, -1.0]) ≤
        rosenSuzukiObjective (entry x 0) (entry x 1) (entry x 2) (entry x 3) := by
    intro x holds
    have first := holds _ List.mem_cons_self
    have third := holds _ (.tail _ (.tail _ (.head _)))
    have least : rosenSuzukiObjective (0.0 : α) 1.0 2.0 (-1.0) = -44 := by
      norm_num [rosenSuzukiObjective]
    rw [rosenSuzukiObjective_eq (entry x 0), least]
    have distance : dot (x - #v[0.0, 1.0, 2.0, -1.0]) (x - #v[0.0, 1.0, 2.0, -1.0]) =
        square (entry x 0 - 0.0) + square (entry x 1 - 1.0) + square (entry x 2 - 2.0) +
          square (entry x 3 - -1.0) := distance_four ..
    rw [distance]
    generalize entry x 0 = a, entry x 1 = b, entry x 2 = c, entry x 3 = d at first third ⊢
    simp only [square]
    norm_num at first third ⊢
    linarith [mul_self_nonneg a, mul_self_nonneg (b - 1), mul_self_nonneg (c - 2),
      mul_self_nonneg (d + 1)]
  refine ⟨nofun, fun optimum listed => ?_⟩
  obtain rfl := List.mem_singleton.mp listed
  refine solution_of_growth ((feasible_iff rfl).mpr ?_) fun x found => ?_
  · refine ⟨(unbounded_feasible _ _).1, (unbounded_feasible _ _).2, ?_⟩
    simp [entry, rosenSuzukiConstraints]
    norm_num
  · obtain ⟨-, -, holds⟩ := (feasible_iff rfl).mp found
    exact growth x holds

/-- **The listed optima are the solutions of their problems.** -/
theorem optima_solved :
    (∀ n positive, (sphere n positive : Benchmark Id α).Solved) ∧
      (∀ box : Box α 2, (shiftedParaboloid box : Benchmark Id α).Solved) ∧
      (halfPlane : Benchmark Id α).Solved ∧ (rosenSuzuki : Benchmark Id α).Solved :=
  ⟨sphere_solved, shiftedParaboloid_solved, halfPlane_solved, rosenSuzuki_solved⟩

end Benchmark

end DerivativeFree
