import DerivativeFree.Proofs.Machine.Comparison

/-!
# The numbers that values stand for

Rounding spoils the laws of arithmetic, but not everything is lost.  Each value of a machine
format that is a number stands for a real number or for one of the two infinities.  Comparison
and the test for finite size are about these numbers, negation is exact, and a difference has the
sign that it should have (`RealValued`).  This is all that it takes to speak about bounds and
violations.

The real numbers stand for themselves.  For a machine format the number is read from the parts
of the value (`extended`), and what is unpacked has its parts in the form in which comparison
looks at them (`canonical_unpack`).
-/

namespace DerivativeFree

set_option autoImplicit false

/-! ## Values that stand for numbers -/

/-- What is a number stands for an extended real number, in such a way that comparison,
negation and the sign of a difference are exact. -/
class RealValued (α : Type) [Scalar α] where
  /-- The extended real number that a scalar stands for. -/
  value : α → EReal
  proper_zero : ¬ IsNan (0 : α)
  value_zero : value 0 = 0
  lt_iff : ∀ {a b : α}, a < b ↔ ¬ IsNan a ∧ ¬ IsNan b ∧ value a < value b
  le_iff : ∀ {a b : α}, a ≤ b ↔ ¬ IsNan a ∧ ¬ IsNan b ∧ value a ≤ value b
  beq_iff : ∀ {a b : α}, (a == b) = true ↔ ¬ IsNan a ∧ ¬ IsNan b ∧ value a = value b
  isFinite_iff : ∀ {a : α}, Scalar.isFinite a = true ↔ ¬ IsNan a ∧ value a ≠ ⊥ ∧ value a ≠ ⊤
  isNan_neg_iff : ∀ {a : α}, IsNan (-a) ↔ IsNan a
  value_neg : ∀ {a : α}, ¬ IsNan a → value (-a) = -value a
  isNan_sub_iff : ∀ {a b : α}, Scalar.isFinite a = true ∨ Scalar.isFinite b = true →
    (IsNan (a - b) ↔ IsNan a ∨ IsNan b)
  sub_nonneg_iff : ∀ {a b : α}, Scalar.isFinite a = true ∨ Scalar.isFinite b = true →
    ¬ IsNan a → ¬ IsNan b → (0 ≤ value (a - b) ↔ value b ≤ value a)

noncomputable instance RealValued.real : RealValued ℝ where
  value a := a
  proper_zero := by simp [IsNan]
  value_zero := EReal.coe_zero
  lt_iff := by simp [IsNan]
  le_iff := by simp [IsNan]
  beq_iff := by simp [IsNan]
  isFinite_iff := by simp [IsNan, Scalar.isFinite]
  isNan_neg_iff := by simp [IsNan]
  value_neg _ := EReal.coe_neg _
  isNan_sub_iff := by simp [IsNan]
  sub_nonneg_iff {a b} _ _ _ := by
    rw [EReal.coe_nonneg, EReal.coe_le_coe_iff, sub_nonneg]

namespace RealValued

variable {α : Type} [Scalar α] [RealValued α] {a b : α}

theorem le_self_iff : a ≤ a ↔ ¬ IsNan a := by
  simp [le_iff]

theorem not_lt_iff (left : ¬ IsNan a) (right : ¬ IsNan b) : ¬ a < b ↔ b ≤ a := by
  simp [lt_iff, le_iff, left, right]

theorem not_lt_of_le (least : a ≤ b) : ¬ b < a := by
  obtain ⟨left, right, -⟩ := le_iff.mp least
  exact (not_lt_iff right left).mpr least

/-- The sign of a difference tells how its sides compare. -/
theorem nonneg_sub_iff (bounded : Scalar.isFinite a = true ∨ Scalar.isFinite b = true) :
    0 ≤ a - b ↔ b ≤ a := by
  rw [le_iff, le_iff, isNan_sub_iff bounded, value_zero, not_or]
  constructor
  · rintro ⟨-, ⟨left, right⟩, sign⟩
    exact ⟨right, left, (sub_nonneg_iff bounded left right).mp sign⟩
  · rintro ⟨right, left, least⟩
    exact ⟨proper_zero, ⟨left, right⟩, (sub_nonneg_iff bounded left right).mpr least⟩

theorem nonneg_iff : 0 ≤ a ↔ ¬ IsNan a ∧ 0 ≤ value a := by
  simp [le_iff, proper_zero, value_zero]

end RealValued

/-! ## Unpacked values -/

section Unpacked

open Float.Model Float.Model.UnpackedFloat

variable {spec : Format} {a b : UnpackedFloat} {sign : Sign} {mantissa : ℕ} {exponent : ℤ}

/-- The size of a finite value. -/
noncomputable def magnitude (mantissa : ℕ) (exponent : ℤ) : ℝ :=
  mantissa * ((2 : ℕ) : ℝ) ^ exponent

theorem magnitude_eq (mantissa : ℕ) (exponent : ℤ) :
    magnitude mantissa exponent = mantissa * 2 ^ exponent := by
  rw [magnitude, Nat.cast_ofNat]

theorem magnitude_pos (positive : 0 < mantissa) (exponent : ℤ) :
    0 < magnitude mantissa exponent := by
  rw [magnitude_eq]
  exact mul_pos (Nat.cast_pos.mpr positive) (zpow_pos two_pos exponent)

/-- The extended real number that an unpacked value stands for, or zero if it is not a number. -/
noncomputable def extended : UnpackedFloat → EReal
  | .notANumber => 0
  | .infinity .negative => ⊥
  | .infinity .positive => ⊤
  | .zero _ => 0
  | .finite .negative mantissa exponent _ => ((-magnitude mantissa exponent : ℝ) : EReal)
  | .finite .positive mantissa exponent _ => ((magnitude mantissa exponent : ℝ) : EReal)

theorem extended_of_isFinite (bounded : a.isFinite = true) :
    extended a ≠ ⊥ ∧ extended a ≠ ⊤ := by
  rcases a with _ | _ | _ | ⟨_ | _, _, _, _⟩
  case infinity | notANumber => cases bounded
  case zero => exact ⟨EReal.zero_ne_bot, EReal.zero_ne_top⟩
  case finite.negative | finite.positive => exact ⟨EReal.coe_ne_bot _, EReal.coe_ne_top _⟩

/-- The mantissa fits into its bits and uses all of them, unless the exponent is the least one. -/
structure FitsIn (spec : Format) (mantissa : ℕ) (exponent : ℤ) : Prop where
  small : mantissa < 2 ^ spec.mantissaBits
  lower : spec.minExponent ≤ exponent
  normal : 2 ^ spec.mantissaBitsWithoutImplicit ≤ mantissa ∨ exponent = spec.minExponent

/-- The form of an unpacked value in which comparison is made. -/
def Canonical (spec : Format) : UnpackedFloat → Prop
  | .finite _ mantissa exponent _ => FitsIn spec mantissa exponent
  | _ => True

theorem minExponent_eq (spec : Format) :
    spec.minExponent = 1 - ((spec.exponentBias : ℤ) + spec.mantissaBitsWithoutImplicit) := by
  have positive : 1 ≤ 2 ^ (spec.exponentBits - 1) := Nat.one_le_two_pow
  simp only [Format.minExponent, Format.exponentBias, Format.mantissaBits]
  rw [Nat.cast_sub positive]
  push_cast
  ring

theorem two_pow_mantissaBits (spec : Format) :
    2 ^ spec.mantissaBits = 2 ^ spec.mantissaBitsWithoutImplicit * 2 := by
  rw [Format.mantissaBits, Nat.add_comm, pow_succ]

/-- The implicit bit comes before the others. -/
theorem toNat_implicit {size : ℕ} (bits : BitVec size) :
    (1#1 ++ bits).toNat = 2 ^ size + bits.toNat := by
  rw [BitVec.toNat_append, ← Nat.shiftLeft_add_eq_or_of_lt bits.isLt]
  simp [Nat.shiftLeft_eq]

/-- **What is unpacked is in canonical form.** -/
theorem canonical_unpack (spec : Format) (bits : BitVec spec.numBits) :
    Canonical spec (unpack spec bits) := by
  have fits := (unpackMantissa bits).isLt
  have least := minExponent_eq spec
  have double := two_pow_mantissaBits spec
  fun_cases unpack spec bits with
  | case1 | case2 | case3 => trivial
  | case4 mantissa exponents exponent signs sign finite zero subnormal =>
    have none : exponents.toNat = 0 := by rw [zero, BitVec.toNat_zero]
    have own : exponent + 1 = spec.minExponent := by omega
    exact ⟨by omega, own.ge, .inr own⟩
  | case5 mantissa exponents exponent signs sign finite normal =>
    have some : exponents.toNat ≠ 0 := fun none => normal (BitVec.eq_of_toNat_eq none)
    have whole := toNat_implicit mantissa
    exact ⟨by omega, by omega, .inl (by omega)⟩

/-! ## Order -/

/-- The greater exponent decides, and then the greater mantissa. -/
theorem magnitude_lt {m₁ m₂ : ℕ} {e₁ e₂ : ℤ} (first : FitsIn spec m₁ e₁)
    (second : FitsIn spec m₂ e₂) (less : e₁ < e₂ ∨ e₁ = e₂ ∧ m₁ < m₂) :
    magnitude m₁ e₁ < magnitude m₂ e₂ := by
  rw [magnitude_eq, magnitude_eq]
  rcases less with less | ⟨rfl, less⟩
  · have normal : 2 ^ spec.mantissaBitsWithoutImplicit ≤ m₂ :=
      second.normal.resolve_right (first.lower.trans_lt less).ne'
    have small := first.small
    rw [two_pow_mantissaBits] at small
    have twice : (m₁ : ℝ) < m₂ * 2 := by
      exact_mod_cast small.trans_le (Nat.mul_le_mul_right 2 normal)
    have step : (2 : ℝ) * 2 ^ e₁ ≤ 2 ^ e₂ := by
      rw [← zpow_one_add₀ two_ne_zero]
      exact zpow_le_zpow_right₀ one_le_two (by omega)
    calc (m₁ * 2 ^ e₁ : ℝ) < m₂ * 2 * 2 ^ e₁ := by gcongr
      _ = m₂ * (2 * 2 ^ e₁) := mul_assoc ..
      _ ≤ m₂ * 2 ^ e₂ := by gcongr
  · gcongr

theorem extended_lt_of_place (first : Canonical spec a) (second : Canonical spec b)
    (less : place a < place b) : extended a < extended b := by
  -- The values of different kinds are told apart by the first entry of their places.
  rcases a with (_ | _) | _ | _ | ⟨_ | _, m₁, e₁, some⟩ <;>
    rcases b with (_ | _) | _ | _ | ⟨_ | _, m₂, e₂, other⟩ <;>
    simp [place, Prod.Lex.toLex_lt_toLex] at less <;> simp [extended, -EReal.coe_neg]
  case notANumber.finite.positive | zero.finite.positive => exact magnitude_pos other e₂
  case finite.negative.notANumber | finite.negative.zero => exact magnitude_pos some e₁
  case finite.negative.finite.negative =>
    exact magnitude_lt second first (less.imp_right fun same => ⟨same.1.symm, same.2⟩)
  case finite.negative.finite.positive =>
    exact (neg_lt_zero.mpr (magnitude_pos some e₁)).trans (magnitude_pos other e₂)
  case finite.positive.finite.positive => exact magnitude_lt first second less

theorem extended_eq_of_place (same : place a = place b) : extended a = extended b := by
  rcases a with (_ | _) | _ | _ | ⟨_ | _, m₁, e₁, _⟩ <;>
    rcases b with (_ | _) | _ | _ | ⟨_ | _, m₂, e₂, _⟩ <;>
    simp [place] at same <;> simp [extended, same]

theorem place_lt_iff (first : Canonical spec a) (second : Canonical spec b) :
    place a < place b ↔ extended a < extended b := by
  refine ⟨extended_lt_of_place first second, fun less => ?_⟩
  rcases lt_trichotomy (place a) (place b) with before | same | after
  · exact before
  · exact absurd (extended_eq_of_place same) less.ne
  · exact absurd (extended_lt_of_place second first after) less.not_gt

theorem place_eq_iff (first : Canonical spec a) (second : Canonical spec b) :
    place a = place b ↔ extended a = extended b := by
  refine ⟨extended_eq_of_place, fun same => ?_⟩
  rcases lt_trichotomy (place a) (place b) with before | equal | after
  · exact absurd same (extended_lt_of_place first second before).ne
  · exact equal
  · exact absurd same (extended_lt_of_place second first after).ne'

theorem lt_iff_extended (first : Canonical spec a) (second : Canonical spec b) :
    a.lt b = true ↔ a.isNaN = false ∧ b.isNaN = false ∧ extended a < extended b := by
  rw [lt_iff_place, place_lt_iff first second]

theorem beq_iff_extended (first : Canonical spec a) (second : Canonical spec b) :
    a.beq b = true ↔ a.isNaN = false ∧ b.isNaN = false ∧ extended a = extended b := by
  rw [beq_iff_place, place_eq_iff first second]

theorem le_iff_lt_or_beq (a b : UnpackedFloat) :
    a.le b = true ↔ a.lt b = true ∨ a.beq b = true := by
  simp only [UnpackedFloat.le, UnpackedFloat.lt, UnpackedFloat.beq]
  cases a.compare b with
  | none => simp
  | some order => cases order <;> decide

theorem le_iff_extended (first : Canonical spec a) (second : Canonical spec b) :
    a.le b = true ↔ a.isNaN = false ∧ b.isNaN = false ∧ extended a ≤ extended b := by
  rw [le_iff_lt_or_beq, lt_iff_extended first second, beq_iff_extended first second,
    ← and_or_left, ← and_or_left, le_iff_lt_or_eq]

theorem isFinite_iff_extended (a : UnpackedFloat) :
    a.isFinite = true ↔ a.isNaN = false ∧ extended a ≠ ⊥ ∧ extended a ≠ ⊤ := by
  constructor
  · intro bounded
    refine ⟨?_, extended_of_isFinite bounded⟩
    cases a with
    | notANumber | infinity => cases bounded
    | zero | finite => rfl
  · rintro ⟨proper, low, high⟩
    rcases a with (_ | _) | _ | _ | _
    case infinity.negative => exact absurd rfl low
    case infinity.positive => exact absurd rfl high
    case notANumber => cases proper
    case zero | finite => rfl

/-! ## Negation -/

theorem isNaN_neg (a : UnpackedFloat) : a.neg.isNaN = a.isNaN := by
  cases a <;> rfl

theorem extended_neg (a : UnpackedFloat) : extended a.neg = -extended a := by
  rcases a with (_ | _) | _ | _ | ⟨_ | _, mantissa, exponent, _⟩
  case infinity.negative => exact EReal.neg_bot.symm
  case infinity.positive => exact EReal.neg_top.symm
  case notANumber | zero => exact neg_zero.symm
  case finite.negative =>
    change ((magnitude mantissa exponent : ℝ) : EReal) =
      -((-magnitude mantissa exponent : ℝ) : EReal)
    rw [EReal.coe_neg, neg_neg]
  case finite.positive => exact EReal.coe_neg _

end Unpacked

end DerivativeFree
