import DerivativeFree.Proofs.Machine.Value

/-!
# The sign of a difference

Rounding changes the size of a difference, but not its sign (`sub_sign`).  Two finite values are
brought to the smaller exponent, where their difference is an integer (`normalize_sign`).  It is
shifted until it fits, and no further than that, so that it does not vanish (`round_fits`), and it
remains different from zero when it is packed (`Fits.signed`).

So the numbers of double and of single precision are `RealValued`.  Both read them from the same
parts (`ReadFrom`).
-/

namespace DerivativeFree

set_option autoImplicit false

section Unpacked

open Float.Model Float.Model.UnpackedFloat

variable {spec : Format} {value : UnpackedFloat} {sign : Sign} {mantissa : ℕ} {exponent : ℤ}

/-! ## Rounding -/

theorem mantissa_shiftRight (extended : ExtendedMantissa) (amount : ℕ) :
    (extended >>> amount).mantissa = extended.mantissa / 2 ^ amount := by
  induction amount with
  | zero => exact (Nat.div_one _).symm
  | succ amount ih =>
    change (extended >>> amount).mantissa / 2 = _
    rw [ih, Nat.div_div_eq_div_mul, pow_succ]

theorem mantissa_ofMantissaAndAccuracy (mantissa : ℕ) (accuracy : Accuracy) :
    (ExtendedMantissa.ofMantissaAndAccuracy mantissa accuracy).mantissa = mantissa := by
  cases accuracy with
  | exact => rfl
  | inexact order => cases order <;> rfl

theorem mantissa_le_roundedMantissa (extended : ExtendedMantissa) :
    extended.mantissa ≤ extended.roundedMantissa := by
  rw [ExtendedMantissa.roundedMantissa]
  cases extended.accuracy with
  | exact => exact le_rfl
  | inexact order =>
    cases order with
    | lt => exact le_rfl
    | eq => exact Nat.le_add_right _ _
    | gt => exact Nat.le_succ _

/-- A mantissa that is not zero is shifted until it fits, and no further. -/
theorem shiftToTargetExponent_fits (spec : Format) (positive : 0 < mantissa)
    (lower : spec.minExponent ≤ exponent) (accuracy : Accuracy) :
    let shifted := shiftToTargetExponent spec mantissa exponent accuracy
    0 < shifted.1.mantissa ∧ shifted.1.mantissa < 2 ^ spec.mantissaBits ∧
      spec.minExponent ≤ shifted.2 := by
  have least := Nat.log2_self_le positive.ne'
  have greatest := Nat.lt_log2_self (n := mantissa)
  have bits : 0 < spec.mantissaBits := Nat.lt_add_right _ Nat.one_pos
  simp only [shiftToTargetExponent, shiftToExponent, mantissa_shiftRight,
    mantissa_ofMantissaAndAccuracy]
  have amount : (spec.targetExponent (totalExponent mantissa exponent) - exponent).toNat =
      mantissa.log2 + 1 - spec.mantissaBits := by
    simp only [Format.targetExponent, totalExponent]
    omega
  rw [amount]
  refine ⟨Nat.div_pos ((Nat.pow_le_pow_right two_pos (by omega)).trans least) (Nat.two_pow_pos _),
    ?_, by omega⟩
  rw [Nat.div_lt_iff_lt_mul (Nat.two_pow_pos _), ← pow_add]
  exact greatest.trans_le (Nat.pow_le_pow_right two_pos (by omega))

/-- The value is finite and not zero, of the given sign, and its mantissa fits. -/
inductive Fits (spec : Format) (sign : Sign) : UnpackedFloat → Prop
  | finite {mantissa : ℕ} {exponent : ℤ} (positive : 0 < mantissa)
      (small : mantissa < 2 ^ spec.mantissaBits) (lower : spec.minExponent ≤ exponent) :
      Fits spec sign (.finite sign mantissa exponent positive)

theorem roundWithAccuracy_fits (spec : Format) (sign : Sign) (positive : 0 < mantissa)
    (lower : spec.minExponent ≤ exponent) (accuracy : Accuracy) :
    Fits spec sign (roundWithAccuracy spec sign mantissa exponent accuracy) := by
  obtain ⟨some, -, above⟩ := shiftToTargetExponent_fits spec positive lower accuracy
  obtain ⟨left, small, least⟩ := shiftToTargetExponent_fits spec
    (some.trans_le (mantissa_le_roundedMantissa _)) above .exact
  have rounded : roundWithAccuracy spec sign mantissa exponent accuracy =
      .finite sign _ _ left := dif_neg left.ne'
  rw [rounded]
  exact .finite left small least

/-- **Rounding neither loses the sign nor makes a number vanish.** -/
theorem round_fits (spec : Format) (sign : Sign) (positive : 0 < mantissa)
    (lower : spec.minExponent ≤ exponent) :
    Fits spec sign (UnpackedFloat.round spec sign mantissa exponent) := by
  refine roundWithAccuracy_fits spec sign ?_ ?_ .exact
  · rw [Nat.shiftLeft_eq]
    exact Nat.mul_pos positive (Nat.two_pow_pos _)
  · have target : spec.minExponent ≤ spec.targetExponent (totalExponent mantissa exponent) :=
      le_max_right _ _
    omega

/-! ## Packing -/

/-- What is left of a value when it has been put into the bits of the format. -/
def stored (spec : Format) (value : UnpackedFloat) : UnpackedFloat :=
  unpack spec (pack spec value)

@[simp]
theorem stored_notANumber (spec : Format) : stored spec .notANumber = .notANumber :=
  unpack_packedNaN

@[simp]
theorem stored_infinity (spec : Format) (sign : Sign) :
    stored spec (.infinity sign) = .infinity sign := by
  simp [stored, UnpackedFloat.pack, UnpackedFloat.unpack, packedInfinity]

@[simp]
theorem stored_zero (spec : Format) (sign : Sign) : stored spec (.zero sign) = .zero sign :=
  unpack_packedZero

/-- The value is not zero and has the given sign. -/
inductive Signed (sign : Sign) : UnpackedFloat → Prop
  | infinity : Signed sign (.infinity sign)
  | finite {mantissa : ℕ} {exponent : ℤ} (positive : 0 < mantissa) :
      Signed sign (.finite sign mantissa exponent positive)

/-- The components of a finite number stand for one unless all of them are zero. -/
theorem signed_packComponents (sign : Sign) {exponent : BitVec spec.exponentBits}
    {mantissa : BitVec spec.mantissaBitsWithoutImplicit} (bounded : exponent ≠ -1#_)
    (some : exponent = 0#_ → mantissa ≠ 0#_) :
    Signed sign (unpack spec (packComponents spec sign exponent mantissa)) := by
  simp only [UnpackedFloat.unpack, unpackMantissa_packComponents, unpackExponent_packComponents,
    unpackSign_packComponents, Sign.ofBitVec_toBitVec, if_neg bounded]
  split
  case isTrue subnormal =>
    rw [dif_neg (some subnormal)]
    exact .finite _
  case isFalse => exact .finite _

/-- **A number that is not zero is packed into one of the same sign.** -/
theorem Fits.signed (fits : Fits spec sign value) : Signed sign (stored spec value) := by
  cases fits with
  | @finite mantissa exponent positive small lower =>
    have least := minExponent_eq spec
    simp only [stored, UnpackedFloat.pack]
    split
    case isTrue =>
      change Signed sign (stored spec (.infinity sign))
      rw [stored_infinity]
      exact .infinity
    case isFalse bounded =>
      split
      case isTrue normal =>
        generalize known : (exponent + spec.exponentBias +
          spec.mantissaBitsWithoutImplicit).toNat = biased at bounded ⊢
        have kept : (BitVec.ofNat spec.exponentBits biased).toNat = biased :=
          Nat.mod_eq_of_lt (by omega)
        refine signed_packComponents sign (fun full => ?_) fun none => ?_
        · rw [full, BitVec.neg_one_eq_allOnes, BitVec.toNat_allOnes] at kept
          omega
        · rw [none, BitVec.toNat_zero] at kept
          omega
      case isFalse subnormal =>
        have inside : mantissa < 2 ^ spec.mantissaBitsWithoutImplicit := by
          rw [← Nat.log2_lt positive.ne']
          have upto := (Nat.log2_lt positive.ne').mpr small
          rw [Format.mantissaBits] at upto subnormal
          omega
        have kept : (BitVec.ofNat spec.mantissaBitsWithoutImplicit mantissa).toNat = mantissa :=
          Nat.mod_eq_of_lt inside
        refine signed_packComponents sign (fun full => ?_) fun _ none => ?_
        · exact spec.he.ne' (BitVec.zero_eq_neg_one_iff.mp full)
        · rw [none, BitVec.toNat_zero] at kept
          exact positive.ne kept

/-- The other sign is packed into the other sign bit. -/
theorem unpack_packComponents_neg (spec : Format) (sign : Sign)
    (exponent : BitVec spec.exponentBits) (mantissa : BitVec spec.mantissaBitsWithoutImplicit) :
    unpack spec (packComponents spec (-sign) exponent mantissa) =
      (unpack spec (packComponents spec sign exponent mantissa)).neg := by
  simp only [UnpackedFloat.unpack, unpackMantissa_packComponents, unpackExponent_packComponents,
    unpackSign_packComponents, Sign.ofBitVec_toBitVec]
  split_ifs <;> rfl

theorem stored_neg (spec : Format) (value : UnpackedFloat) :
    stored spec value.neg = (stored spec value).neg := by
  cases value with
  | notANumber | infinity | zero => simp [UnpackedFloat.neg]
  | finite sign mantissa exponent positive =>
    simp only [stored, UnpackedFloat.neg, UnpackedFloat.pack]
    split_ifs
    · exact unpack_packComponents_neg ..
    · exact unpack_packComponents_neg ..
    · exact unpack_packComponents_neg ..

/-! ## Signs -/

/-- The value is a number, and it is nonnegative exactly if the condition holds. -/
structure NonnegIff (value : UnpackedFloat) (condition : Prop) : Prop where
  proper : value.isNaN = false
  nonneg_iff : 0 ≤ extended value ↔ condition

namespace Signed

theorem proper (signed : Signed sign value) : value.isNaN = false := by
  cases signed <;> rfl

theorem extended_pos (signed : Signed .positive value) : 0 < extended value := by
  cases signed with
  | infinity => exact EReal.zero_lt_top
  | finite positive => exact EReal.coe_pos.mpr (magnitude_pos positive _)

theorem extended_neg (signed : Signed .negative value) : extended value < 0 := by
  cases signed with
  | infinity => exact EReal.bot_lt_zero
  | finite positive => exact EReal.coe_neg'.mpr (neg_lt_zero.mpr (magnitude_pos positive _))

/-- What is not zero is nonnegative if its sign is positive. -/
theorem nonnegIff (signed : Signed sign value) {condition : Prop}
    (right : sign = .positive ↔ condition) : NonnegIff value condition := by
  refine ⟨signed.proper, Iff.trans ?_ right⟩
  cases sign with
  | negative => exact iff_of_false signed.extended_neg.not_ge nofun
  | positive => exact iff_of_true signed.extended_pos.le rfl

end Signed

/-- The difference of the integers at the smaller exponent decides the sign. -/
theorem normalize_sign (spec : Format) (lower : spec.minExponent ≤ exponent) (difference : ℤ) :
    NonnegIff (stored spec (UnpackedFloat.normalize spec difference exponent .positive))
      (0 ≤ difference) := by
  rcases lt_trichotomy difference 0 with negative | rfl | positive
  · have known : UnpackedFloat.normalize spec difference exponent .positive =
        UnpackedFloat.round spec .negative (-difference).toNat exponent := by
      simp only [UnpackedFloat.normalize, compare_lt_iff_lt.mpr negative]
    rw [known]
    exact (round_fits spec .negative (by omega) lower).signed.nonnegIff
      (iff_of_false nofun negative.not_ge)
  · change NonnegIff (stored spec (.zero .positive)) (0 ≤ 0)
    rw [stored_zero]
    exact ⟨rfl, iff_of_true le_rfl le_rfl⟩
  · have known : UnpackedFloat.normalize spec difference exponent .positive =
        UnpackedFloat.round spec .positive difference.toNat exponent := by
      simp only [UnpackedFloat.normalize, compare_gt_iff_gt.mpr positive]
    rw [known]
    exact (round_fits spec .positive (by omega) lower).signed.nonnegIff
      (iff_of_true rfl positive.le)

/-- A smaller exponent leaves the number as it is. -/
theorem extended_decreaseExponent (sign : Sign) (positive : 0 < mantissa) {smaller : ℤ}
    (below : smaller ≤ exponent) :
    extended (.finite sign mantissa exponent positive) =
      (((sign.apply (decreaseExponent mantissa exponent smaller).1 : ℤ) * 2 ^ smaller : ℝ) :
        EReal) := by
  have whole : magnitude mantissa exponent =
      (decreaseExponent mantissa exponent smaller).1 * 2 ^ smaller := by
    have split : (2 : ℝ) ^ exponent = 2 ^ (exponent - smaller).toNat * 2 ^ smaller := by
      rw [← zpow_natCast, ← zpow_add₀ two_ne_zero]
      congr 1
      omega
    simp only [magnitude_eq, decreaseExponent, Nat.shiftLeft_eq, Nat.cast_mul, Nat.cast_pow,
      Nat.cast_ofNat, split, mul_assoc]
  cases sign with
  | positive =>
    change ((magnitude mantissa exponent : ℝ) : EReal) = _
    rw [whole]
    rfl
  | negative =>
    change ((-magnitude mantissa exponent : ℝ) : EReal) = _
    rw [whole, ← neg_mul, Sign.apply, Int.cast_neg, Int.cast_natCast]

/-! ## Differences -/

section Difference

variable {a b : UnpackedFloat}

theorem infinity_sub_sign (sign : Sign) (bounded : b.isFinite = true) :
    NonnegIff (stored spec (UnpackedFloat.sub spec (.infinity sign) b))
      (extended b ≤ extended (.infinity sign)) := by
  obtain ⟨low, -⟩ := extended_of_isFinite bounded
  have known : UnpackedFloat.sub spec (.infinity sign) b = .infinity sign := by
    cases b with
    | notANumber | infinity => cases bounded
    | zero | finite => rfl
  rw [known, stored_infinity]
  refine Signed.infinity.nonnegIff ?_
  cases sign with
  | negative => exact iff_of_false nofun (mt le_bot_iff.mp low)
  | positive => exact iff_of_true rfl le_top

theorem sub_infinity_sign (sign : Sign) (bounded : a.isFinite = true) :
    NonnegIff (stored spec (UnpackedFloat.sub spec a (.infinity sign)))
      (extended (.infinity sign) ≤ extended a) := by
  obtain ⟨-, high⟩ := extended_of_isFinite bounded
  have known : UnpackedFloat.sub spec a (.infinity sign) = .infinity (-sign) := by
    cases a with
    | notANumber | infinity => cases bounded
    | zero | finite => rfl
  rw [known, stored_infinity]
  refine Signed.infinity.nonnegIff ?_
  cases sign with
  | negative => exact iff_of_true rfl bot_le
  | positive => exact iff_of_false nofun (mt top_le_iff.mp high)

theorem zero_sub_zero (spec : Format) (s₁ s₂ : Sign) :
    ∃ sign, UnpackedFloat.sub spec (.zero s₁) (.zero s₂) = .zero sign := by
  change ∃ sign, (if s₁ == -s₂ then UnpackedFloat.zero s₁ else .zero .positive) = .zero sign
  split
  · exact ⟨s₁, rfl⟩
  · exact ⟨.positive, rfl⟩

/-- **The sign of a difference is that of the exact one**, if one of the two values is finite. -/
theorem sub_sign (first : Canonical spec a) (second : Canonical spec b)
    (bounded : a.isFinite = true ∨ b.isFinite = true) (left : a.isNaN = false)
    (right : b.isNaN = false) :
    NonnegIff (stored spec (UnpackedFloat.sub spec a b)) (extended b ≤ extended a) := by
  rcases a with s₁ | _ | s₁ | ⟨s₁, m₁, e₁, some⟩
  case notANumber => cases left
  case infinity => exact infinity_sub_sign s₁ (bounded.resolve_left Bool.false_ne_true)
  all_goals rcases b with s₂ | _ | s₂ | ⟨s₂, m₂, e₂, other⟩
  case zero.notANumber | finite.notANumber => cases right
  case zero.infinity | finite.infinity => exact sub_infinity_sign s₂ rfl
  case zero.zero =>
    obtain ⟨sign, known⟩ := zero_sub_zero spec s₁ s₂
    rw [known, stored_zero]
    exact ⟨rfl, Iff.rfl⟩
  case zero.finite =>
    refine (Fits.finite other second.small second.lower).signed.nonnegIff ?_
    have signed : Signed s₂ (.finite s₂ m₂ e₂ other) := .finite other
    cases s₂ with
    | negative => exact iff_of_true rfl signed.extended_neg.le
    | positive => exact iff_of_false nofun signed.extended_pos.not_ge
  case finite.zero =>
    refine (Fits.finite some first.small first.lower).signed.nonnegIff ?_
    exact ((Signed.finite some).nonnegIff Iff.rfl).nonneg_iff.symm
  case finite.finite =>
    obtain ⟨proper, sign⟩ := normalize_sign spec (le_min first.lower second.lower)
      (s₁.apply (decreaseExponent m₁ e₁ (min e₁ e₂)).1 -
        s₂.apply (decreaseExponent m₂ e₂ (min e₁ e₂)).1)
    refine ⟨proper, sign.trans ?_⟩
    rw [extended_decreaseExponent s₁ some (min_le_left e₁ e₂),
      extended_decreaseExponent s₂ other (min_le_right e₁ e₂), EReal.coe_le_coe_iff,
      mul_le_mul_iff_left₀ (zpow_pos two_pos _), Int.cast_le, sub_nonneg]

theorem sub_notANumber (nan : a.isNaN = true ∨ b.isNaN = true) :
    UnpackedFloat.sub spec a b = .notANumber := by
  rcases nan with left | right
  · cases a with
    | notANumber => rfl
    | infinity | zero | finite => cases left
  · cases b with
    | notANumber => cases a <;> rfl
    | infinity | zero | finite => cases right

/-- A difference is not a number only if one of its sides is not. -/
theorem isNaN_sub (first : Canonical spec a) (second : Canonical spec b)
    (bounded : a.isFinite = true ∨ b.isFinite = true) :
    (stored spec (UnpackedFloat.sub spec a b)).isNaN = true ↔
      a.isNaN = true ∨ b.isNaN = true := by
  constructor
  · intro nan
    by_contra neither
    obtain ⟨left, right⟩ := not_or.mp neither
    have signed := sub_sign first second bounded (Bool.eq_false_iff.mpr left)
      (Bool.eq_false_iff.mpr right)
    exact Bool.eq_false_iff.mp signed.proper nan
  · intro nan
    rw [sub_notANumber nan, stored_notANumber]
    rfl

end Difference

/-! ## Machine formats -/

/-- The operations on scalars are those on the values of a format that are read from them. -/
structure ReadFrom {α : Type} [Scalar α] (spec : Format) (read : α → UnpackedFloat) : Prop where
  canonical : ∀ a, Canonical spec (read a)
  isNan : ∀ a, IsNan a ↔ (read a).isNaN = true
  zero : ∃ sign, read 0 = .zero sign
  lt : ∀ {a b}, a < b ↔ (read a).lt (read b) = true
  le : ∀ {a b}, a ≤ b ↔ (read a).le (read b) = true
  beq : ∀ {a b}, (a == b) = (read a).beq (read b)
  isFinite : ∀ {a}, Scalar.isFinite a = (read a).isFinite
  neg : ∀ a, read (-a) = (read a).neg
  sub : ∀ a b, read (a - b) = stored spec (UnpackedFloat.sub spec (read a) (read b))

/-- The values of a format stand for extended real numbers. -/
@[reducible]
noncomputable def ReadFrom.realValued {α : Type} [Scalar α] {read : α → UnpackedFloat}
    (readFrom : ReadFrom spec read) : RealValued α :=
  have proper (a : α) : ¬ IsNan a ↔ (read a).isNaN = false :=
    (readFrom.isNan a).not.trans Bool.eq_false_iff.symm
  { value a := extended (read a)
    proper_zero := by
      obtain ⟨sign, zero⟩ := readFrom.zero
      rw [proper, zero]
      rfl
    value_zero := by
      obtain ⟨sign, zero⟩ := readFrom.zero
      rw [zero]
      rfl
    lt_iff := by
      intro a b
      rw [proper, proper, readFrom.lt]
      exact lt_iff_extended (readFrom.canonical a) (readFrom.canonical b)
    le_iff := by
      intro a b
      rw [proper, proper, readFrom.le]
      exact le_iff_extended (readFrom.canonical a) (readFrom.canonical b)
    beq_iff := by
      intro a b
      rw [proper, proper, readFrom.beq]
      exact beq_iff_extended (readFrom.canonical a) (readFrom.canonical b)
    isFinite_iff := by
      intro a
      rw [proper, readFrom.isFinite]
      exact isFinite_iff_extended (read a)
    isNan_neg_iff := by
      intro a
      rw [readFrom.isNan, readFrom.isNan, readFrom.neg, isNaN_neg]
    value_neg := by
      intro a _
      rw [readFrom.neg, extended_neg]
    isNan_sub_iff := by
      intro a b bounded
      rw [readFrom.isFinite, readFrom.isFinite] at bounded
      rw [readFrom.isNan, readFrom.isNan, readFrom.isNan, readFrom.sub]
      exact isNaN_sub (readFrom.canonical a) (readFrom.canonical b) bounded
    sub_nonneg_iff := by
      intro a b bounded left right
      rw [readFrom.isFinite, readFrom.isFinite] at bounded
      rw [readFrom.sub]
      exact (sub_sign (readFrom.canonical a) (readFrom.canonical b) bounded
        ((proper a).mp left) ((proper b).mp right)).nonneg_iff }

/-- What is packed again after a change of its sign has the other sign. -/
theorem stored_unpack_neg {bits : BitVec spec.numBits} (valid : spec.Valid bits)
    (wide : 2 ≤ spec.exponentBits) :
    stored spec (unpack spec bits).neg = (unpack spec bits).neg := by
  rw [stored_neg, stored, pack_unpack_of_valid valid wide]

theorem unpack_zero {bits : BitVec spec.numBits} (known : bits = packedZero spec .positive) :
    ∃ sign, unpack spec bits = .zero sign :=
  ⟨.positive, known ▸ unpack_packedZero⟩

end Unpacked

open Float.Model

theorem readFrom_double : ReadFrom .binary64 fun x : Float => x.toModel.unpack where
  canonical a := canonical_unpack ..
  isNan := isNan_double
  zero := unpack_zero (by decide +kernel)
  lt := ⟨of_decide_eq_true, decide_eq_true⟩
  le := ⟨of_decide_eq_true, decide_eq_true⟩
  beq := rfl
  isFinite := rfl
  neg a := stored_unpack_neg a.toModel.valid (by decide)
  sub a b := rfl

theorem readFrom_single : ReadFrom .binary32 fun x : Float32 => x.toModel.unpack where
  canonical a := canonical_unpack ..
  isNan := isNan_single
  zero := unpack_zero (by decide +kernel)
  lt := ⟨of_decide_eq_true, decide_eq_true⟩
  le := ⟨of_decide_eq_true, decide_eq_true⟩
  beq := rfl
  isFinite := rfl
  neg a := stored_unpack_neg a.toModel.valid (by decide)
  sub a b := rfl

noncomputable instance RealValued.double : RealValued Float :=
  readFrom_double.realValued

noncomputable instance RealValued.single : RealValued Float32 :=
  readFrom_single.realValued

end DerivativeFree
