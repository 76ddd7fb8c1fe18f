import DerivativeFree.Proofs.Problem.Projection
import DerivativeFree.Proofs.Search.Bounds

/-!
# What an evaluation finds

Everything that a search knows of a point is its sample.  In any arithmetic in which values stand
for numbers, the sample of an evaluation holds the values of the problem and the residuals of the
bounds, each in its place, and its violation tells whether the point is feasible
(`Evaluator.evaluate_describes`, `Sample.Describes.feasible_iff`).

The violation is a maximum, and a maximum passes over what is not a number
(`largestFrom_greatest`).  So a constraint that has no value at a point counts as one that holds
there (`Evaluator.evaluate_undefined`).
-/

namespace DerivativeFree

set_option autoImplicit false

open RealValued

/-! ## Maxima -/

section Maximum

variable {α : Type} [Scalar α] [RealValued α] {n : Nat}

/-- The value is the greatest of a start and of those terms that are numbers. -/
structure Greatest (start : α) (term : Fin n → α) (greatest : α) : Prop where
  proper : ¬ IsNan greatest
  least : value start ≤ value greatest
  terms : ∀ i, ¬ IsNan (term i) → value (term i) ≤ value greatest
  attained : value greatest = value start ∨
    ∃ i, ¬ IsNan (term i) ∧ value greatest = value (term i)

/-- The greater of a number and of something that need not be one. -/
inductive Larger (a b : α) : α → Prop
  | right (proper : ¬ IsNan b) (less : value a < value b) : Larger a b b
  | left (least : ¬ IsNan b → value b ≤ value a) : Larger a b a

theorem larger_number {a : α} (number : ¬ IsNan a) (b : α) : Larger a b (larger a b) := by
  rw [larger]
  by_cases less : a < b
  · obtain ⟨-, proper, below⟩ := lt_iff.mp less
    rw [if_pos less]
    exact .right proper below
  · rw [if_neg less, if_pos (Bool.not_eq_false _ ▸ number)]
    exact .left fun proper => (le_iff.mp ((not_lt_iff number proper).mp less)).2.2

/-- **A maximum passes over what is not a number.** -/
theorem largestFrom_greatest {start : α} (number : ¬ IsNan start) (term : Fin n → α) :
    Greatest start term (largestFrom start term) := by
  induction n with
  | zero =>
    rw [largestFrom_zero]
    exact ⟨number, le_rfl, nofun, .inl rfl⟩
  | succ n ih =>
    rw [largestFrom_succ]
    have before := ih fun i => term i.castSucc
    have step := larger_number before.proper (term (Fin.last n))
    generalize larger (largestFrom start fun i => term i.castSucc) (term (Fin.last n)) = greatest
      at step ⊢
    cases step with
    | right proper less =>
      refine ⟨proper, before.least.trans less.le, Fin.lastCases (fun _ => le_rfl) fun i other => ?_,
        .inr ⟨Fin.last n, proper, rfl⟩⟩
      exact (before.terms i other).trans less.le
    | left least =>
      refine ⟨before.proper, before.least, Fin.lastCases least before.terms, ?_⟩
      exact before.attained.imp_right fun ⟨i, proper, same⟩ => ⟨i.castSucc, proper, same⟩

end Maximum

variable {α : Type} [Scalar α] {n u : Nat} {box : Box α n} {x : Vector α n}

/-! ## Violations -/

namespace Sample

section Violation

variable [RealValued α] {m : Nat}

theorem worstViolation_greatest (constraints : Vector α m) :
    Greatest 0 (fun k => -constraints.get k) (worstViolation constraints) :=
  largestFrom_greatest proper_zero _

/-- The worst violation is not negative. -/
theorem worstViolation_nonneg (constraints : Vector α m) :
    0 ≤ worstViolation constraints := by
  obtain ⟨proper, least, -, -⟩ := worstViolation_greatest constraints
  exact le_iff.mpr ⟨proper_zero, proper, least⟩

/-- It is at least the violation of each constraint. -/
theorem neg_le_worstViolation {constraints : Vector α m} {k : Fin m}
    (number : ¬ IsNan (constraints.get k)) :
    -constraints.get k ≤ worstViolation constraints := by
  obtain ⟨proper, -, terms, -⟩ := worstViolation_greatest constraints
  have opposite : ¬ IsNan (-constraints.get k) := isNan_neg_iff.not.mpr number
  exact le_iff.mpr ⟨opposite, proper, terms k opposite⟩

/-- **It is zero exactly if no constraint is negative**, and what is not a number is not. -/
theorem worstViolation_eq_zero_iff {constraints : Vector α m} :
    (worstViolation constraints == 0) = true ↔
      ∀ k, ¬ IsNan (constraints.get k) → 0 ≤ constraints.get k := by
  obtain ⟨proper, least, terms, attained⟩ := worstViolation_greatest constraints
  rw [beq_iff, value_zero]
  constructor
  · rintro ⟨-, -, zero⟩ k number
    have below := terms k (isNan_neg_iff.not.mpr number)
    rw [zero, value_neg number] at below
    exact nonneg_iff.mpr ⟨number, EReal.neg_le_zero.mp below⟩
  · intro holds
    refine ⟨proper, proper_zero, ?_⟩
    rcases attained with zero | ⟨k, opposite, same⟩
    · rw [zero, value_zero]
    · have number := isNan_neg_iff.not.mp opposite
      have above := (nonneg_iff.mp (holds k number)).2
      rw [value_zero, same, value_neg number] at least
      rw [same, value_neg number]
      exact le_antisymm (EReal.neg_le_zero.mpr above) least

end Violation

end Sample

/-! ## Residuals -/

section Residuals

variable [RealValued α]

/-- A residual is a number if the coordinate is. -/
theorem isNan_residual {a b : α} (bounded : Scalar.isFinite b = true) :
    (IsNan (a - b) ↔ IsNan a) ∧ (IsNan (b - a) ↔ IsNan a) := by
  have number := (isFinite_iff.mp bounded).1
  rw [isNan_sub_iff (.inr bounded), isNan_sub_iff (.inl bounded)]
  exact ⟨or_iff_left number, or_iff_right number⟩

theorem residuals_nonneg_of_number_iff :
    (∀ r ∈ box.residuals x, ¬ IsNan r → 0 ≤ r) ↔
      ∀ i, ¬ IsNan (x.get i) → Box.Meets (box.lower.get i) (box.upper.get i) (x.get i) := by
  rw [Box.forall_mem_residuals]
  refine forall_congr' fun i => ?_
  constructor
  · rintro ⟨lower, upper⟩ number
    constructor
    · intro l bound finite
      exact (nonneg_sub_iff (.inr finite)).mp
        (lower l bound finite ((isNan_residual finite).1.not.mpr number))
    · intro u bound finite
      exact (nonneg_sub_iff (.inl finite)).mp
        (upper u bound finite ((isNan_residual finite).2.not.mpr number))
  · intro meets
    constructor
    · intro l bound finite number
      exact (nonneg_sub_iff (.inr finite)).mpr
        ((meets ((isNan_residual finite).1.not.mp number)).1 l bound finite)
    · intro u bound finite number
      exact (nonneg_sub_iff (.inl finite)).mpr
        ((meets ((isNan_residual finite).2.not.mp number)).2 u bound finite)

end Residuals

/-! ## Samples -/

namespace Sample

/-- The sample says what has been found at a point, and how far the point is from being feasible. -/
structure Describes [RealValued α] (box : Box α n) (x : Vector α n) (constraints : Vector α u)
    (objective : α) (sample : Sample α (u + box.boundCount)) : Prop where
  entries : sample.constraints.toList = constraints.toList ++ box.distances x
  objective : sample.objective = objective
  nonneg : 0 ≤ sample.violation
  above : ∀ k, ¬ IsNan (sample.constraints.get k) → -sample.constraints.get k ≤ sample.violation
  zero_iff : (sample.violation == 0) = true ↔
    (∀ k, ¬ IsNan (constraints.get k) → 0 ≤ constraints.get k) ∧
      ∀ i, ¬ IsNan (x.get i) → Box.Meets (box.lower.get i) (box.upper.get i) (x.get i)

section Samples

variable {constraints : Vector α u} {objective : α} {sample : Sample α (u + box.boundCount)}

/-- What holds of all values of a sample holds of those of the problem and of the residuals. -/
theorem forall_constraints_iff
    (entries : sample.constraints.toList = constraints.toList ++ box.distances x)
    (property : α → Prop) :
    (∀ k, property (sample.constraints.get k)) ↔
      (∀ k, property (constraints.get k)) ∧ ∀ r ∈ box.residuals x, property r := by
  rw [forall_get_iff, entries, List.forall_mem_append, ← forall_get_iff,
    Box.residuals_eq_distances]

variable [RealValued α]

theorem describes_sampleAt (box : Box α n) (x : Vector α n) (constraints : Vector α u)
    (objective : α) (last : Sample α (u + box.boundCount)) :
    Describes box x constraints objective
      (Evaluator.sampleAt box x constraints objective last) := by
  have entries : (Evaluator.sampleAt box x constraints objective last).constraints.toList =
      constraints.toList ++ box.distances x := by
    simp only [Evaluator.sampleAt, Vector.toList_append, Box.toList_writeResiduals,
      Box.residuals_eq_distances]
  constructor
  case entries => exact entries
  case objective => rfl
  case nonneg => exact worstViolation_nonneg _
  case above => exact fun _ => neg_le_worstViolation
  case zero_iff =>
    have nonneg := forall_constraints_iff entries fun c => ¬ IsNan c → 0 ≤ c
    rw [residuals_nonneg_of_number_iff] at nonneg
    exact worstViolation_eq_zero_iff.trans nonneg

/-- If all values are numbers, the violation is zero exactly at the feasible points. -/
theorem Describes.feasible_iff (describes : Describes box x constraints objective sample)
    (numbers : ∀ k, ¬ IsNan (sample.constraints.get k)) :
    (sample.violation == 0) = true ↔
      (∀ k, 0 ≤ constraints.get k) ∧
        ∀ i, Box.Meets (box.lower.get i) (box.upper.get i) (x.get i) := by
  obtain ⟨given, bounded⟩ := (forall_constraints_iff describes.entries (¬ IsNan ·)).mp numbers
  rw [Box.forall_mem_residuals] at bounded
  rw [describes.zero_iff]
  refine and_congr (forall_congr' fun k => imp_iff_right (given k)) (forall_congr' fun i => ?_)
  refine ⟨fun meets => ⟨fun l bound finite => ?_, fun u bound finite => ?_⟩, fun meets _ => meets⟩
  · have number := (isNan_residual finite).1.not.mp ((bounded i).1 l bound finite)
    exact (meets number).1 l bound finite
  · have number := (isNan_residual finite).2.not.mp ((bounded i).2 u bound finite)
    exact (meets number).2 u bound finite

end Samples

end Sample

/-! ## Evaluations -/

namespace Evaluator

section Evaluate

variable {evaluator : Evaluator α u box.boundCount} {oracle : Oracle Id α n u}
  {constraints : Vector α u} {objective : α}

theorem evaluate_of_answer (within : evaluator.evaluations < evaluator.limit)
    (answered : oracle x evaluator.buffer = (constraints, .ok objective)) :
    evaluator.evaluate oracle box x =
      ({ buffer := constraints
         sample := sampleAt box x constraints objective evaluator.sample
         evaluations := evaluator.evaluations + 1
         limit := evaluator.limit }, .found) := by
  rw [evaluate, if_neg within.not_ge]
  simp only [answered]
  rfl

/-- Values are found as long as the limit is not reached and the oracle knows them. -/
theorem evaluate_found_iff :
    (evaluator.evaluate oracle box x).2 = .found ↔
      evaluator.evaluations < evaluator.limit ∧
        ∃ constraints objective, oracle x evaluator.buffer = (constraints, .ok objective) := by
  constructor
  · intro found
    by_cases spent : evaluator.limit ≤ evaluator.evaluations
    · rw [evaluate, if_pos spent] at found
      cases found
    · rw [evaluate, if_neg spent] at found
      rcases answered : oracle x evaluator.buffer with ⟨constraints, error | objective⟩
      · simp only [answered] at found
        cases found
      · exact ⟨not_le.mp spent, constraints, objective, rfl⟩
  · rintro ⟨within, constraints, objective, answered⟩
    rw [evaluate_of_answer within answered]

/-- **An evaluation that finds the values at a point describes the point.** -/
theorem evaluate_describes [RealValued α] (evaluator : Evaluator α u box.boundCount)
    (oracle : Oracle Id α n u) (x : Vector α n)
    (found : (evaluator.evaluate oracle box x).2 = .found) :
    ∃ constraints objective,
      oracle x evaluator.buffer = (constraints, .ok objective) ∧
        Sample.Describes box x constraints objective
          (evaluator.evaluate oracle box x).1.sample := by
  obtain ⟨within, constraints, objective, answered⟩ := evaluate_found_iff.mp found
  refine ⟨constraints, objective, answered, ?_⟩
  rw [evaluate_of_answer within answered]
  exact Sample.describes_sampleAt box x constraints objective evaluator.sample

end Evaluate

/-! ## Double precision -/

/-- An evaluator for one constraint in the second quadrant. -/
def fresh : Evaluator Float 1 Box.quadrant.boundCount :=
  start 1 _ 10

/-- A saddle, to the right of a line. -/
def saddle : Oracle Id Float 2 1 :=
  fun x _ => (#v[entry x 0 + entry x 1 - 1], .ok (entry x 0 * entry x 1))

/-- At `(2, -3)` the constraint and both bounds of finite size are violated. -/
theorem evaluate_describes_saddle :
    (fresh.evaluate saddle Box.quadrant #v[2, -3]).2 = .found ∧
      (∃ constraints objective,
        saddle #v[2, -3] fresh.buffer = (constraints, .ok objective) ∧
          Sample.Describes Box.quadrant #v[2, -3] constraints objective
            (fresh.evaluate saddle Box.quadrant #v[2, -3]).1.sample) ∧
      ((fresh.evaluate saddle Box.quadrant #v[2, -3]).1.sample.constraints.toArray ==
        #[-2, -3, -2]) = true ∧
      ((fresh.evaluate saddle Box.quadrant #v[2, -3]).1.sample.violation == 3) = true := by
  have found : (fresh.evaluate saddle Box.quadrant #v[2, -3]).2 = .found := by decide +kernel
  exact ⟨found, evaluate_describes fresh saddle #v[2, -3] found, by decide +kernel⟩

/-- An oracle whose constraint has no value in the second quadrant. -/
def undefined : Oracle Id Float 2 1 :=
  fun x _ => (#v[Scalar.sqrt (entry x 0)], .ok (entry x 0 * entry x 1))

/-- A constraint that is not a number is not nonnegative, but it is no violation either. -/
theorem evaluate_undefined :
    (fresh.evaluate undefined Box.quadrant #v[-1, 1]).2 = .found ∧
      ((fresh.evaluate undefined Box.quadrant #v[-1, 1]).1.sample.violation == 0) = true ∧
      ¬ 0 ≤ (undefined #v[-1, 1] fresh.buffer).1.get 0 ∧
      ¬ -(fresh.evaluate undefined Box.quadrant #v[-1, 1]).1.sample.constraints.get 0 ≤
        (fresh.evaluate undefined Box.quadrant #v[-1, 1]).1.sample.violation := by
  decide +kernel

end Evaluator

end DerivativeFree
