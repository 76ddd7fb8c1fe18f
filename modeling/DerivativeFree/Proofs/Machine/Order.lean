import Mathlib
import DerivativeFree.Proofs.Machine.Nan

/-!
# The order of a machine format

A machine format has finitely many values, and its strict comparison is irreflexive and transitive,
although not every two values compare (`MachineFormat`).  So a value can fall only so many times:
its `rank`, the number of the values below it, becomes smaller each time (`rank_lt_rank`), and no
sequence of values falls for ever (`exists_not_lt_succ`).

Double and single precision are such formats.  Their values are ordered by sign and size, and what
is not a number stays outside (`lt_iff_place`).
-/

namespace DerivativeFree

set_option autoImplicit false

/-- Zero is found equal to itself, strict comparison is an order, and there are not more values
than words of a machine. -/
class MachineFormat (α : Type) [Scalar α] : Prop where
  zero : ((0 : α) == 0) = true
  irrefl : ∀ a : α, ¬ a < a
  trans : ∀ {a b c : α}, a < b → b < c → a < c
  finite : Finite α
  card_le : Nat.card α ≤ UInt64.size

/-! ## Ranks -/

section Rank

variable {α : Type} [Scalar α]

/-- The number of the values below the given one. -/
noncomputable def rank (a : α) : Nat :=
  Set.ncard {b : α | b < a}

variable [MachineFormat α]

theorem rank_lt_rank {a b : α} (less : a < b) : rank a < rank b := by
  have : Finite α := MachineFormat.finite
  refine Set.ncard_lt_ncard (Set.ssubset_iff_of_subset ?_ |>.mpr ⟨a, less, ?_⟩) (Set.toFinite _)
  · exact fun c below => MachineFormat.trans below less
  · exact MachineFormat.irrefl a

theorem rank_lt_size (a : α) : rank a < UInt64.size := by
  have : Finite α := MachineFormat.finite
  have proper : {b : α | b < a} ≠ Set.univ := by
    intro all
    exact MachineFormat.irrefl a (all.symm ▸ Set.mem_univ a : a ∈ {b : α | b < a})
  exact (Set.ncard_lt_card proper).trans_le MachineFormat.card_le

/-- The values of a machine format do not fall for ever. -/
theorem exists_not_lt_succ (values : Nat → α) : ∃ i, ¬ values (i + 1) < values i := by
  by_contra falling
  simp only [not_exists, not_not] at falling
  exact not_strictAnti_of_wellFoundedLT (fun i => rank (values i))
    (strictAnti_nat_of_succ_lt fun i => rank_lt_rank (falling i))

end Rank

/-! ## Machine formats -/

section Unpacked

open Float.Model

/-- The sign, the exponent and the mantissa of a value, in the order in which they compare. -/
def place : UnpackedFloat → ℤ ×ₗ ℤ ×ₗ ℤ
  | .notANumber => toLex (0, toLex (0, 0))
  | .infinity .negative => toLex (-2, toLex (0, 0))
  | .finite .negative mantissa exponent _ => toLex (-1, toLex (-exponent, -mantissa))
  | .zero _ => toLex (0, toLex (0, 0))
  | .finite .positive mantissa exponent _ => toLex (1, toLex (exponent, mantissa))
  | .infinity .positive => toLex (2, toLex (0, 0))

theorem compare_then_eq_lt {e₁ e₂ : ℤ} {m₁ m₂ : ℕ} :
    (compare e₁ e₂).then (compare m₁ m₂) = .lt ↔ e₁ < e₂ ∨ e₁ = e₂ ∧ m₁ < m₂ := by
  rw [Ordering.then_eq_lt, compare_lt_iff_lt, compare_eq_iff_eq, compare_lt_iff_lt]

theorem compare_then_eq_gt {e₁ e₂ : ℤ} {m₁ m₂ : ℕ} :
    (compare e₁ e₂).then (compare m₁ m₂) = .gt ↔ e₂ < e₁ ∨ e₁ = e₂ ∧ m₂ < m₁ := by
  rw [Ordering.then_eq_gt, compare_gt_iff_gt, compare_eq_iff_eq, compare_gt_iff_gt]

/-- Numbers compare as their places do. -/
theorem lt_iff_place (a b : UnpackedFloat) :
    a.lt b = true ↔ a.isNaN = false ∧ b.isNaN = false ∧ place a < place b := by
  have compared : a.lt b = true ↔ a.compare b = some .lt := beq_iff_eq
  rw [compared]
  -- The values of different kinds are told apart by the first entry of their places.
  rcases a with (_ | _) | _ | _ | ⟨_ | _, m₁, e₁, _⟩ <;>
    rcases b with (_ | _) | _ | _ | ⟨_ | _, m₂, e₂, _⟩ <;>
    simp [UnpackedFloat.compare, UnpackedFloat.isNaN, place, Prod.Lex.toLex_lt_toLex]
  case infinity.negative.infinity.positive => rfl
  case finite.negative.finite.negative => exact compare_then_eq_gt
  case finite.positive.finite.positive => exact compare_then_eq_lt

theorem unpacked_irrefl (a : UnpackedFloat) : ¬ a.lt a = true := by
  intro less
  exact lt_irrefl _ ((lt_iff_place a a).mp less).2.2

theorem unpacked_trans {a b c : UnpackedFloat} (first : a.lt b = true) (second : b.lt c = true) :
    a.lt c = true := by
  obtain ⟨left, -, lower⟩ := (lt_iff_place a b).mp first
  obtain ⟨-, right, upper⟩ := (lt_iff_place b c).mp second
  exact (lt_iff_place a c).mpr ⟨left, right, lower.trans upper⟩

end Unpacked

/-- The bits of a value in double precision. -/
def doubleBits (x : Float) : Fin UInt64.size :=
  x.toModel.toBits.toFin

theorem doubleBits_injective : Function.Injective doubleBits := by
  rintro ⟨bits, valid⟩ ⟨bits', valid'⟩ same
  obtain rfl : bits = bits' := UInt64.toFin_inj.mp same
  rfl

/-- The bits of a value in single precision. -/
def singleBits (x : Float32) : Fin UInt32.size :=
  x.toModel.toBits.toFin

theorem singleBits_injective : Function.Injective singleBits := by
  rintro ⟨bits, valid⟩ ⟨bits', valid'⟩ same
  obtain rfl : bits = bits' := UInt32.toFin_inj.mp same
  rfl

/-- Values that are told apart by so many bits are not more than those. -/
theorem card_le_of_bits {β : Type} {size : Nat} {bits : β → Fin size}
    (injective : Function.Injective bits) : Nat.card β ≤ size :=
  (Nat.card_le_card_of_injective bits injective).trans_eq (Nat.card_fin size)

instance MachineFormat.double : MachineFormat Float where
  zero := by decide +kernel
  irrefl a less := unpacked_irrefl _ (of_decide_eq_true less)
  trans first second :=
    decide_eq_true (unpacked_trans (of_decide_eq_true first) (of_decide_eq_true second))
  finite := .of_injective _ doubleBits_injective
  card_le := card_le_of_bits doubleBits_injective

instance MachineFormat.single : MachineFormat Float32 where
  zero := by decide +kernel
  irrefl a less := unpacked_irrefl _ (of_decide_eq_true less)
  trans first second :=
    decide_eq_true (unpacked_trans (of_decide_eq_true first) (of_decide_eq_true second))
  finite := .of_injective _ singleBits_injective
  card_le := (card_le_of_bits singleBits_injective).trans (by decide)

end DerivativeFree
