import DerivativeFree.Proofs.Exact.Vector
import DerivativeFree.Proofs.Machine.Difference
import DerivativeFree.Problem.Box

/-!
# Two views of a box

The start of a search is moved into the box by a projection, which compares it with every bound.
From then on the search knows the box only by the residuals of the bounds of finite size.  Both
must speak of the same set of points.

They do, whatever is rounded (`project_agrees`).  A residual is nonnegative exactly if its bound
is met (`residuals_nonneg_iff`), the projection ends at a point with nonnegative residuals and
leaves it there, and no point of the box is closer to the start in any coordinate.  What remains
is a bound that is infinite on the wrong side, a lower bound of infinity or an upper bound of
minus infinity: it has no residual, and yet the projection follows it (`project_beyond`).
-/

namespace DerivativeFree.Box

set_option autoImplicit false

variable {α : Type} [Scalar α] {n : Nat}

/-! ## Coordinates -/

/-- A number that is not found beyond either of two bounds. -/
def Between (lower upper : Option α) (x : α) : Prop :=
  (∀ l ∈ lower, ¬ x < l) ∧ ∀ u ∈ upper, ¬ u < x

/-- What becomes of a number that is moved between two bounds, and whether it violates one. -/
inductive Clamped (lower upper : Option α) (x : α) : α → Bool → Prop
  /-- It is raised to the lower bound. -/
  | raised {l : α} (bound : lower = some l) (below : x < l) : Clamped lower upper x l true
  /-- It is lowered to the upper bound. -/
  | lowered {u : α} (right : ∀ l ∈ lower, ¬ x < l) (bound : upper = some u) (above : u < x) :
      Clamped lower upper x u true
  /-- It is kept. -/
  | kept (between : Between lower upper x) : Clamped lower upper x x false

theorem isBelow_iff {x : α} {bound : Option α} :
    isBelow x bound = true ↔ ∃ l ∈ bound, x < l := by
  simp [isBelow, Option.any_eq_true]

theorem isAbove_iff {x : α} {bound : Option α} :
    isAbove x bound = true ↔ ∃ u ∈ bound, u < x := by
  simp [isAbove, Option.any_eq_true]

theorem clamped (lower upper : Option α) (x : α) :
    Clamped lower upper x (clamp lower upper x) (violates lower upper x) := by
  by_cases below : isBelow x lower = true
  · obtain ⟨l, rfl, under⟩ := isBelow_iff.mp below
    rw [clamp, violates, if_pos below, below, Bool.true_or]
    exact .raised rfl under
  · have right : ∀ l ∈ lower, ¬ x < l := by
      intro l bound under
      exact below (isBelow_iff.mpr ⟨l, bound, under⟩)
    rw [clamp, violates, if_neg below, Bool.eq_false_iff.mpr below, Bool.false_or]
    by_cases above : isAbove x upper = true
    · obtain ⟨u, rfl, beyond⟩ := isAbove_iff.mp above
      rw [if_pos above, above]
      exact .lowered right rfl beyond
    · rw [if_neg above, Bool.eq_false_iff.mpr above]
      exact .kept ⟨right, fun u bound beyond => above (isAbove_iff.mpr ⟨u, bound, beyond⟩)⟩

theorem violates_eq_false_iff {lower upper : Option α} {x : α} :
    violates lower upper x = false ↔ Between lower upper x := by
  simp [violates, ← Bool.not_eq_true, isBelow_iff, isAbove_iff, Between]

theorem Between.clamp_eq {lower upper : Option α} {x : α} (between : Between lower upper x) :
    clamp lower upper x = x := by
  have moved := clamped lower upper x
  rw [violates_eq_false_iff.mpr between] at moved
  generalize clamp lower upper x = y at moved ⊢
  cases moved with
  | kept => rfl

/-! ## Points -/

theorem project_get (box : Box α n) (x : Vector α n) (i : Fin n) :
    (box.project x).1.get i = clamp (box.lower.get i) (box.upper.get i) (x.get i) := by
  simp [project, get_eq_getElem]

theorem project_stays_iff {box : Box α n} {x : Vector α n} :
    (box.project x).2 = false ↔
      ∀ i, Between (box.lower.get i) (box.upper.get i) (x.get i) := by
  simp [project, get_eq_getElem, ← violates_eq_false_iff]

/-- A point between the bounds is left where it is. -/
theorem project_of_between {box : Box α n} {x : Vector α n}
    (between : ∀ i, Between (box.lower.get i) (box.upper.get i) (x.get i)) :
    box.project x = (x, false) := by
  refine Prod.ext (vector_ext fun i => ?_) (project_stays_iff.mpr between)
  rw [project_get, (between i).clamp_eq]

/-! ## Residuals -/

theorem toList_writeResiduals (box : Box α n) (x : Vector α n) (out : Vector α box.boundCount) :
    (box.writeResiduals x out).toList = box.residuals x := by
  refine List.ext_getElem (by simp [box.length_residuals]) fun i inside within => ?_
  simp [writeResiduals, List.getD_eq_getElem?_getD, within]

theorem forall_get_writeResiduals {box : Box α n} {x : Vector α n} {out : Vector α box.boundCount}
    {property : α → Prop} :
    (∀ k, property ((box.writeResiduals x out).get k)) ↔ ∀ r ∈ box.residuals x, property r := by
  rw [forall_get_iff, toList_writeResiduals]

/-- Each residual belongs to a bound of finite size. -/
theorem forall_mem_residuals {box : Box α n} {x : Vector α n} {property : α → Prop} :
    (∀ r ∈ box.residuals x, property r) ↔
      ∀ i, (∀ l ∈ box.lower.get i, Scalar.isFinite l = true → property (x.get i - l)) ∧
        ∀ u ∈ box.upper.get i, Scalar.isFinite u = true → property (u - x.get i) := by
  have within (i : Fin n) : x[i.val]? = some (x.get i) := by simp [get_eq_getElem]
  simp only [residuals, List.forall_mem_append, List.mem_filterMap, Prod.exists,
    mem_finiteBounds, within, Option.map_some, Option.some.injEq, forall_and]
  constructor
  · rintro ⟨lower, upper⟩
    exact ⟨fun i l bound finite => lower _ ⟨i, l, ⟨bound, finite⟩, rfl⟩,
      fun i u bound finite => upper _ ⟨i, u, ⟨bound, finite⟩, rfl⟩⟩
  · rintro ⟨lower, upper⟩
    constructor
    · rintro _ ⟨i, l, ⟨bound, finite⟩, rfl⟩
      exact lower i l bound finite
    · rintro _ ⟨i, u, ⟨bound, finite⟩, rfl⟩
      exact upper i u bound finite

/-! ## Bounds of finite size -/

section RealValued

open RealValued

variable [RealValued α]

/-- A number on the right side of the bounds of finite size. -/
def Meets (lower upper : Option α) (x : α) : Prop :=
  (∀ l ∈ lower, Scalar.isFinite l = true → l ≤ x) ∧ ∀ u ∈ upper, Scalar.isFinite u = true → x ≤ u

/-- A number that is not beyond a bound of infinite size. -/
def Unblocked (lower upper : Option α) (x : α) : Prop :=
  (∀ l ∈ lower, Scalar.isFinite l = false → ¬ x < l) ∧
    ∀ u ∈ upper, Scalar.isFinite u = false → ¬ u < x

/-- A bound of infinite size is open if its sign is that of its side. -/
theorem unblocked_of_open {lower upper : Option α} (below : ∀ l ∈ lower, value l ≠ ⊤)
    (above : ∀ u ∈ upper, value u ≠ ⊥) (x : α) : Unblocked lower upper x := by
  constructor
  · intro l bound infinite under
    obtain ⟨-, proper, less⟩ := lt_iff.mp under
    have bounded := isFinite_iff.mpr ⟨proper, less.ne_bot, below l bound⟩
    exact Bool.false_ne_true (infinite.symm.trans bounded)
  · intro u bound infinite beyond
    obtain ⟨proper, -, less⟩ := lt_iff.mp beyond
    have bounded := isFinite_iff.mpr ⟨proper, above u bound, less.ne_top⟩
    exact Bool.false_ne_true (infinite.symm.trans bounded)

/-- Between the bounds is what meets those of finite size and is not kept off by another. -/
theorem between_iff {lower upper : Option α} {x : α} (proper : ¬ IsNan x) :
    Between lower upper x ↔ Meets lower upper x ∧ Unblocked lower upper x := by
  constructor
  · rintro ⟨right, left⟩
    refine ⟨⟨fun l bound finite => ?_, fun u bound finite => ?_⟩,
      fun l bound _ => right l bound, fun u bound _ => left u bound⟩
    · exact (not_lt_iff proper (isFinite_iff.mp finite).1).mp (right l bound)
    · exact (not_lt_iff (isFinite_iff.mp finite).1 proper).mp (left u bound)
  · rintro ⟨⟨right, left⟩, ⟨right', left'⟩⟩
    constructor
    · intro l bound
      cases finite : Scalar.isFinite l with
      | true => exact (not_lt_iff proper (isFinite_iff.mp finite).1).mpr (right l bound finite)
      | false => exact right' l bound finite
    · intro u bound
      cases finite : Scalar.isFinite u with
      | true => exact (not_lt_iff (isFinite_iff.mp finite).1 proper).mpr (left u bound finite)
      | false => exact left' u bound finite

/-- **A residual is nonnegative exactly if its bound is met.** -/
theorem residuals_nonneg_iff {box : Box α n} {x : Vector α n} :
    (∀ r ∈ box.residuals x, 0 ≤ r) ↔ ∀ i, Meets (box.lower.get i) (box.upper.get i) (x.get i) := by
  rw [forall_mem_residuals]
  refine forall_congr' fun i => and_congr ?_ ?_
  · exact forall₃_congr fun l bound finite => nonneg_sub_iff (.inr finite)
  · exact forall₃_congr fun u bound finite => nonneg_sub_iff (.inl finite)

/-! ## Closeness -/

/-- How far two extended real numbers are apart. -/
noncomputable def separation (a b : EReal) : EReal :=
  max 0 (max (a - b) (b - a))

theorem separation_self (a : EReal) : separation a a = 0 := by
  rw [separation, max_self, max_eq_left EReal.sub_self_le_zero]

/-- A number between two others is not farther from the lesser one than the greater one is. -/
theorem separation_le_of_ge {a b c : EReal} (first : a ≤ b) (second : b ≤ c) :
    separation b a ≤ separation c a := by
  refine max_le (le_max_left _ _) (max_le ?_ ?_)
  · exact (EReal.sub_le_sub second le_rfl).trans ((le_max_left _ _).trans (le_max_right _ _))
  · exact (EReal.sub_nonpos.mpr first).trans (le_max_left _ _)

/-- Nor from the greater one than the lesser one is. -/
theorem separation_le_of_le {a b c : EReal} (first : b ≤ a) (second : c ≤ b) :
    separation b a ≤ separation c a := by
  refine max_le (le_max_left _ _) (max_le ?_ ?_)
  · exact (EReal.sub_nonpos.mpr first).trans (le_max_left _ _)
  · exact (EReal.sub_le_sub le_rfl second).trans ((le_max_right _ _).trans (le_max_right _ _))

/-! ## What becomes of a coordinate -/

namespace Clamped

variable {lower upper : Option α} {x y : α} {moved : Bool}

/-- What is moved remains a number. -/
theorem proper (clamped : Clamped lower upper x y moved) (number : ¬ IsNan x) : ¬ IsNan y := by
  cases clamped with
  | raised bound below => exact (lt_iff.mp below).2.1
  | lowered right bound above => exact (lt_iff.mp above).1
  | kept => exact number

/-- What is moved ends between the bounds. -/
theorem between (clamped : Clamped lower upper x y moved)
    (ordered : ∀ l ∈ lower, ∀ u ∈ upper, l ≤ u) (number : ¬ IsNan x) : Between lower upper y := by
  have own : ¬ y < y := RealValued.not_lt_of_le (le_self_iff.mpr (clamped.proper number))
  cases clamped with
  | raised bound below =>
    subst bound
    exact ⟨fun l same => Option.some.inj same ▸ own,
      fun u other => RealValued.not_lt_of_le (ordered y rfl u other)⟩
  | lowered right bound above =>
    subst bound
    exact ⟨fun l other => RealValued.not_lt_of_le (ordered l other y rfl),
      fun u same => Option.some.inj same ▸ own⟩
  | kept between => exact between

/-- Nothing within the bounds is closer. -/
theorem closest (clamped : Clamped lower upper x y moved) {z : α} (above : ∀ l ∈ lower, l ≤ z)
    (below : ∀ u ∈ upper, z ≤ u) :
    separation (value y) (value x) ≤ separation (value z) (value x) := by
  cases clamped with
  | raised bound under =>
    exact separation_le_of_ge (lt_iff.mp under).2.2.le (le_iff.mp (above y bound)).2.2
  | lowered right bound beyond =>
    exact separation_le_of_le (lt_iff.mp beyond).2.2.le (le_iff.mp (below y bound)).2.2
  | kept =>
    rw [separation_self]
    exact le_max_left _ _

end Clamped

/-! ## Agreement -/

/-- The point is within the bounds. -/
def Contains (box : Box α n) (y : Vector α n) : Prop :=
  ∀ i, (∀ l ∈ box.lower.get i, l ≤ y.get i) ∧ ∀ u ∈ box.upper.get i, y.get i ≤ u

/-- The two views of a box agree about a point: what the projection does, and what the residuals
say that are written over `out`. -/
structure Agrees (box : Box α n) (x : Vector α n) (out : Vector α box.boundCount) : Prop where
  stays_iff : (box.project x).2 = false ↔
    (∀ k, 0 ≤ (box.writeResiduals x out).get k) ∧
      ∀ i, Unblocked (box.lower.get i) (box.upper.get i) (x.get i)
  unchanged : (box.project x).2 = false → (box.project x).1 = x
  nonneg : ∀ k, 0 ≤ (box.writeResiduals (box.project x).1 out).get k
  again : (box.project (box.project x).1).2 = false
  closest : ∀ y, box.Contains y → ∀ i,
    separation (value ((box.project x).1.get i)) (value (x.get i)) ≤
      separation (value (y.get i)) (value (x.get i))

/-- **Projection and residuals see the same box**, apart from bounds that are infinite on the
wrong side. -/
theorem project_agrees (box : Box α n) (x : Vector α n) (out : Vector α box.boundCount)
    (numbers : ∀ i, ¬ IsNan (x.get i)) : box.Agrees x out := by
  have clamped (i : Fin n) := clamped (box.lower.get i) (box.upper.get i) (x.get i)
  have proper (i : Fin n) : ¬ IsNan ((box.project x).1.get i) := by
    rw [project_get]
    exact (clamped i).proper (numbers i)
  have between (i : Fin n) :
      Between (box.lower.get i) (box.upper.get i) ((box.project x).1.get i) := by
    rw [project_get]
    exact (clamped i).between (box.ordered i) (numbers i)
  constructor
  case stays_iff =>
    rw [forall_get_writeResiduals, residuals_nonneg_iff, project_stays_iff, ← forall_and]
    exact forall_congr' fun i => between_iff (numbers i)
  case unchanged =>
    intro stays
    rw [project_of_between (project_stays_iff.mp stays)]
  case nonneg =>
    rw [forall_get_writeResiduals, residuals_nonneg_iff]
    exact fun i => ((between_iff (proper i)).mp (between i)).1
  case again => exact project_stays_iff.mpr between
  case closest =>
    intro y within i
    rw [project_get]
    exact (clamped i).closest (within i).1 (within i).2

/-- Without bounds that are infinite on the wrong side the residuals alone decide. -/
theorem Agrees.stays_iff_of_open {box : Box α n} {x : Vector α n} {out : Vector α box.boundCount}
    (agrees : box.Agrees x out) (below : ∀ i, ∀ l ∈ box.lower.get i, value l ≠ ⊤)
    (above : ∀ i, ∀ u ∈ box.upper.get i, value u ≠ ⊥) :
    (box.project x).2 = false ↔ ∀ k, 0 ≤ (box.writeResiduals x out).get k :=
  agrees.stays_iff.trans
    (and_iff_left fun i => unblocked_of_open (below i) (above i) (x.get i))

end RealValued

/-! ## Double precision -/

/-- The second quadrant, with a bound of either infinity. -/
def quadrant : Box Float 2 where
  lower := #v[some (-1 / 0), some 0]
  upper := #v[some 0, some (1 / 0)]
  positive := Nat.two_pos
  ordered := by decide +kernel

/-- From the fourth quadrant the projection leads to the corner. -/
theorem project_agrees_at_corner :
    (∀ i, ¬ IsNan (#v[(3 : Float), -4].get i)) ∧
      quadrant.Agrees #v[3, -4] 0 ∧
      quadrant.boundCount = 2 ∧
      (quadrant.project #v[3, -4]).2 = true ∧
      ((quadrant.project #v[3, -4]).1.toArray == #[0, 0]) = true := by
  have numbers : ∀ i, ¬ IsNan (#v[(3 : Float), -4].get i) := by decide +kernel
  exact ⟨numbers, project_agrees quadrant #v[3, -4] 0 numbers, by decide +kernel⟩

/-- The interval from infinity to infinity. -/
def beyond : Box Float 1 where
  lower := #v[some (1 / 0)]
  upper := #v[some (1 / 0)]
  positive := Nat.one_pos
  ordered := by decide +kernel

/-- A bound that is infinite on the wrong side has no residual, but the projection follows it. -/
theorem project_beyond :
    (∀ i, ¬ IsNan (#v[(0 : Float)].get i)) ∧
      beyond.boundCount = 0 ∧
      ¬ ((beyond.project #v[0]).2 = false ↔
        ∀ k, 0 ≤ (beyond.writeResiduals #v[0] (0 : Vector Float beyond.boundCount)).get k) ∧
      ((beyond.project #v[0]).1.toArray == #[1 / 0]) = true := by
  decide +kernel

end DerivativeFree.Box
