import DerivativeFree.Proofs.Exact.Field
import DerivativeFree.Proofs.Machine.Order

/-!
# Comparisons

A choice by comparisons must not hang on the order in which they are made.  What it takes for
that holds of all values, those that are not a number included (`LawfulComparison`): strict
comparison is irreflexive and transitive, and two values that are found equal compare with the
same values.  That any two values compare is not asked for.

Exact arithmetic has these laws, and so have double and single precision, where two values are
found equal if both are numbers and have the same place (`beq_iff_place`).
-/

namespace DerivativeFree

set_option autoImplicit false

/-- Strict comparison is an order, and values that are found equal compare with the same
values. -/
class LawfulComparison (α : Type) [Scalar α] : Prop where
  irrefl : ∀ a : α, ¬ a < a
  trans : ∀ {a b c : α}, a < b → b < c → a < c
  beq_symm : ∀ {a b : α}, (a == b) = true → (b == a) = true
  beq_trans : ∀ {a b c : α}, (a == b) = true → (b == c) = true → (a == c) = true
  lt_of_beq_of_lt : ∀ {a b c : α}, (a == b) = true → b < c → a < c
  lt_of_lt_of_beq : ∀ {a b c : α}, a < b → (b == c) = true → a < c

instance LawfulComparison.exact {α : Type} [EuclideanField α] : LawfulComparison α where
  irrefl := lt_irrefl
  trans := lt_trans
  beq_symm same := beq_iff_eq.mpr (beq_iff_eq.mp same).symm
  beq_trans first second := beq_iff_eq.mpr ((beq_iff_eq.mp first).trans (beq_iff_eq.mp second))
  lt_of_beq_of_lt same less := (beq_iff_eq.mp same).trans_lt less
  lt_of_lt_of_beq less same := less.trans_eq (beq_iff_eq.mp same)

/-! ## Machine formats -/

section Unpacked

open Float.Model

variable {a b c : UnpackedFloat}

/-- Numbers are found equal if their places are the same. -/
theorem beq_iff_place (a b : UnpackedFloat) :
    a.beq b = true ↔ a.isNaN = false ∧ b.isNaN = false ∧ place a = place b := by
  have compared : a.beq b = true ↔ a.compare b = some .eq := beq_iff_eq
  rw [compared]
  rcases a with (_ | _) | _ | _ | ⟨_ | _, m₁, e₁, _⟩ <;>
    rcases b with (_ | _) | _ | _ | ⟨_ | _, m₂, e₂, _⟩ <;>
    simp [UnpackedFloat.compare, UnpackedFloat.isNaN, place]
  case infinity.negative.infinity.negative => rfl
  case infinity.positive.infinity.positive => rfl

theorem unpacked_beq_symm (same : a.beq b = true) : b.beq a = true := by
  obtain ⟨left, right, place⟩ := (beq_iff_place a b).mp same
  exact (beq_iff_place b a).mpr ⟨right, left, place.symm⟩

theorem unpacked_beq_trans (first : a.beq b = true) (second : b.beq c = true) :
    a.beq c = true := by
  obtain ⟨left, -, lower⟩ := (beq_iff_place a b).mp first
  obtain ⟨-, right, upper⟩ := (beq_iff_place b c).mp second
  exact (beq_iff_place a c).mpr ⟨left, right, lower.trans upper⟩

theorem unpacked_lt_of_beq_of_lt (same : a.beq b = true) (less : b.lt c = true) :
    a.lt c = true := by
  obtain ⟨left, -, lower⟩ := (beq_iff_place a b).mp same
  obtain ⟨-, right, upper⟩ := (lt_iff_place b c).mp less
  exact (lt_iff_place a c).mpr ⟨left, right, lower.trans_lt upper⟩

theorem unpacked_lt_of_lt_of_beq (less : a.lt b = true) (same : b.beq c = true) :
    a.lt c = true := by
  obtain ⟨left, -, lower⟩ := (lt_iff_place a b).mp less
  obtain ⟨-, right, upper⟩ := (beq_iff_place b c).mp same
  exact (lt_iff_place a c).mpr ⟨left, right, lower.trans_eq upper⟩

end Unpacked

instance LawfulComparison.double : LawfulComparison Float where
  irrefl := MachineFormat.irrefl
  trans := MachineFormat.trans
  beq_symm same := unpacked_beq_symm same
  beq_trans first second := unpacked_beq_trans first second
  lt_of_beq_of_lt same less :=
    decide_eq_true (unpacked_lt_of_beq_of_lt same (of_decide_eq_true less))
  lt_of_lt_of_beq less same :=
    decide_eq_true (unpacked_lt_of_lt_of_beq (of_decide_eq_true less) same)

instance LawfulComparison.single : LawfulComparison Float32 where
  irrefl := MachineFormat.irrefl
  trans := MachineFormat.trans
  beq_symm same := unpacked_beq_symm same
  beq_trans first second := unpacked_beq_trans first second
  lt_of_beq_of_lt same less :=
    decide_eq_true (unpacked_lt_of_beq_of_lt same (of_decide_eq_true less))
  lt_of_lt_of_beq less same :=
    decide_eq_true (unpacked_lt_of_lt_of_beq (of_decide_eq_true less) same)

end DerivativeFree
