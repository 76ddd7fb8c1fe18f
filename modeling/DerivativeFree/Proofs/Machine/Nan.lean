import DerivativeFree.Scalar

/-!
# Values that are not a number

A machine format has a value that is not a number.  It is told by the fact that it is not
found equal to itself (`IsNan`).  What is known of it is little: it does not compare with
anything, and a sum that begins with it is not a number either (`LawfulNan`).  Double and
single precision have these laws.
-/

namespace DerivativeFree

set_option autoImplicit false

/-- A scalar that is not a number is not found equal to itself. -/
def IsNan {α : Type} [Scalar α] (a : α) : Prop :=
  (a == a) = false

instance decidableIsNan {α : Type} [Scalar α] (a : α) : Decidable (IsNan a) :=
  inferInstanceAs (Decidable (_ = _))

/-- What compares with anything is a number, and what is not a number stays so in a sum. -/
class LawfulNan (α : Type) [Scalar α] : Prop where
  of_lt : ∀ {a b : α}, a < b → ¬ IsNan a ∧ ¬ IsNan b
  of_le : ∀ {a b : α}, a ≤ b → ¬ IsNan a ∧ ¬ IsNan b
  of_beq : ∀ {a b : α}, (a == b) = true → ¬ IsNan a ∧ ¬ IsNan b
  add : ∀ {a : α} (b : α), IsNan a → IsNan (a + b)

/-! ## Machine formats -/

section Unpacked

open Float.Model

variable {a b : UnpackedFloat}

/-- What compares with anything is a number. -/
theorem proper_of_compare {order : Ordering} (known : a.compare b = some order) :
    a.isNaN = false ∧ b.isNaN = false := by
  cases a with
  | notANumber => cases known
  | infinity | zero | finite =>
    cases b with
    | notANumber => cases known
    | infinity | zero | finite => exact ⟨rfl, rfl⟩

theorem proper_of_lt (less : a.lt b = true) : a.isNaN = false ∧ b.isNaN = false :=
  proper_of_compare (beq_iff_eq.mp less)

theorem proper_of_le (least : a.le b = true) : a.isNaN = false ∧ b.isNaN = false := by
  change (a.compare b).any _ = true at least
  cases known : a.compare b with
  | none =>
    rw [known] at least
    cases least
  | some order => exact proper_of_compare known

theorem proper_of_beq (same : a.beq b = true) : a.isNaN = false ∧ b.isNaN = false :=
  proper_of_compare (beq_iff_eq.mp same)

theorem compare_self (proper : a.isNaN = false) : a.compare a = some .eq := by
  cases a with
  | notANumber => cases proper
  | infinity sign => cases sign <;> rfl
  | zero sign => rfl
  | finite sign mantissa exponent =>
    have same : (compare exponent exponent).then (compare mantissa mantissa) = .eq := by simp
    cases sign with
    | positive => exact congrArg some same
    | negative => exact congrArg (fun order => some order.swap) same

theorem beq_self_eq_false_iff : a.beq a = false ↔ a.isNaN = true := by
  cases nan : a.isNaN with
  | true =>
    cases a with
    | notANumber => exact ⟨fun _ => rfl, fun _ => rfl⟩
    | infinity | zero | finite => cases nan
  | false =>
    change (a.compare a == some .eq) = false ↔ false = true
    rw [compare_self nan]
    decide

theorem isNaN_add (spec : Format) (nan : a.isNaN = true) (b : UnpackedFloat) :
    UnpackedFloat.add spec a b = .notANumber := by
  cases a with
  | notANumber => rfl
  | infinity | zero | finite => cases nan

end Unpacked

/-- In double precision this is the test for what is not a number. -/
theorem isNan_double (x : Float) : IsNan x ↔ x.isNaN = true :=
  beq_self_eq_false_iff

/-- In single precision as well. -/
theorem isNan_single (x : Float32) : IsNan x ↔ x.isNaN = true :=
  beq_self_eq_false_iff

theorem not_isNan_double {a b : Float}
    (proper : a.toModel.unpack.isNaN = false ∧ b.toModel.unpack.isNaN = false) :
    ¬ IsNan a ∧ ¬ IsNan b := by
  rw [isNan_double, isNan_double]
  exact ⟨Bool.eq_false_iff.mp proper.1, Bool.eq_false_iff.mp proper.2⟩

theorem not_isNan_single {a b : Float32}
    (proper : a.toModel.unpack.isNaN = false ∧ b.toModel.unpack.isNaN = false) :
    ¬ IsNan a ∧ ¬ IsNan b := by
  rw [isNan_single, isNan_single]
  exact ⟨Bool.eq_false_iff.mp proper.1, Bool.eq_false_iff.mp proper.2⟩

instance LawfulNan.double : LawfulNan Float where
  of_lt less := not_isNan_double (proper_of_lt (of_decide_eq_true less))
  of_le least := not_isNan_double (proper_of_le (of_decide_eq_true least))
  of_beq same := not_isNan_double (proper_of_beq same)
  add {a} b nan := by
    have sum : a + b = ⟨.pack .notANumber⟩ :=
      congrArg (fun sum => Float.ofModel (.pack sum)) (isNaN_add _ ((isNan_double a).mp nan) _)
    rw [sum]
    decide +kernel

instance LawfulNan.single : LawfulNan Float32 where
  of_lt less := not_isNan_single (proper_of_lt (of_decide_eq_true less))
  of_le least := not_isNan_single (proper_of_le (of_decide_eq_true least))
  of_beq same := not_isNan_single (proper_of_beq same)
  add {a} b nan := by
    have sum : a + b = ⟨.pack .notANumber⟩ :=
      congrArg (fun sum => Float32.ofModel (.pack sum)) (isNaN_add _ ((isNan_single a).mp nan) _)
    rw [sum]
    decide +kernel

end DerivativeFree
