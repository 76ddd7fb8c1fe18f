import Mathlib
import DerivativeFree.Linear.Vector

/-!
# Exact arithmetic

In an ordered field every computation of the library can be carried out without
rounding, as long as there are square roots.  An ordered field in which every
nonnegative number has one is called Euclidean; the real numbers are an example
(`EuclideanField.real`).  Its operations make it a `Scalar`, and every number in it is
of finite size.

There the greater and the lesser of two scalars are the maximum and the minimum
(`larger_eq_max`, `smaller_eq_min`), and two scalars are found equal exactly when they
are.
-/

namespace DerivativeFree

set_option autoImplicit false

/-- An ordered field in which every nonnegative number has a square root. -/
class EuclideanField (α : Type) extends Field α, LinearOrder α, IsStrictOrderedRing α where
  /-- The square root of a nonnegative number. -/
  root : α → α
  root_nonneg : ∀ a, 0 ≤ root a
  root_mul_self : ∀ a, 0 ≤ a → root a * root a = a

noncomputable instance EuclideanField.real : EuclideanField ℝ where
  root := Real.sqrt
  root_nonneg := Real.sqrt_nonneg
  root_mul_self _ := Real.mul_self_sqrt

/-- The operations of a Euclidean field. -/
instance Scalar.exact {α : Type} [EuclideanField α] : Scalar α where
  toZero := inferInstance
  toOne := inferInstance
  toAdd := inferInstance
  toSub := inferInstance
  toMul := inferInstance
  toDiv := inferInstance
  toNeg := inferInstance
  toLT := inferInstance
  toLE := inferInstance
  toBEq := instBEqOfDecidableEq
  toOfScientific := inferInstance
  decLt := inferInstance
  decLe := inferInstance
  sqrt := EuclideanField.root
  abs a := |a|
  isFinite _ := true

variable {α : Type} [EuclideanField α]

@[simp]
theorem isFinite_exact (a : α) : Scalar.isFinite a = true :=
  rfl

@[simp]
theorem abs_exact (a : α) : Scalar.abs a = |a| :=
  rfl

@[simp]
theorem larger_eq_max (a b : α) : larger a b = max a b := by
  rcases lt_or_ge a b with less | least
  · simp [larger, less, less.le]
  · simp [larger, least, not_lt.mpr least]

@[simp]
theorem smaller_eq_min (a b : α) : smaller a b = min a b := by
  rcases lt_or_ge b a with less | least
  · simp [smaller, less, less.le]
  · simp [smaller, least, not_lt.mpr least]

@[simp]
theorem add_beq_add_right (a b c : α) : (a + c == b + c) = (a == b) := by
  rw [Bool.eq_iff_iff, beq_iff_eq, beq_iff_eq, add_left_inj]

/-! ## Square roots -/

theorem sqrt_nonneg (a : α) : 0 ≤ Scalar.sqrt a :=
  EuclideanField.root_nonneg a

theorem sqrt_mul_sqrt {a : α} (nonneg : 0 ≤ a) : Scalar.sqrt a * Scalar.sqrt a = a :=
  EuclideanField.root_mul_self a nonneg

theorem sqrt_pos {a : α} (positive : 0 < a) : 0 < Scalar.sqrt a := by
  refine lt_of_le_of_ne (sqrt_nonneg a) fun zero => positive.ne ?_
  rw [← sqrt_mul_sqrt positive.le, ← zero, mul_zero]

/-- A nonnegative number is the root of its square. -/
theorem sqrt_eq_of_mul_self {a b : α} (nonneg : 0 ≤ b) (square : b * b = a) :
    Scalar.sqrt a = b := by
  have known : 0 ≤ a := square ▸ mul_self_nonneg b
  exact (mul_self_inj (sqrt_nonneg a) nonneg).mp ((sqrt_mul_sqrt known).trans square.symm)

end DerivativeFree
