/-!
# Scalars

Every computation of this library is written once, for any type that offers the
operations of `Scalar`.  The class holds operations and no laws: a machine number
format and an ordered field with square roots are both instances, and a statement
that needs laws asks for them where it is made.

A comparison may fail both ways, as it does when one side is not a number.
`larger` and `smaller` are the greater and the lesser of two scalars in this
setting: when one argument is incomparable with itself, the other one is returned.
-/

namespace DerivativeFree

set_option autoImplicit false

/-- The operations on numbers that an optimizer needs. -/
class Scalar (α : Type) extends Zero α, One α, Add α, Sub α, Mul α, Div α, Neg α,
    LT α, LE α, BEq α, OfScientific α where
  /-- Strict comparison can be decided. -/
  decLt : DecidableLT α
  /-- Weak comparison can be decided. -/
  decLe : DecidableLE α
  /-- The square root. -/
  sqrt : α → α
  /-- The absolute value. -/
  abs : α → α
  /-- Whether the scalar is a number of finite size. -/
  isFinite : α → Bool

variable {α : Type} [Scalar α]

instance Scalar.decidableLT : DecidableLT α := Scalar.decLt

instance Scalar.decidableLE : DecidableLE α := Scalar.decLe

/-- The greater of two scalars, or the comparable one if the other is not. -/
def larger (a b : α) : α :=
  if a < b then b else if a == a then a else b

/-- The lesser of two scalars, or the comparable one if the other is not. -/
def smaller (a b : α) : α :=
  if b < a then b else if a == a then a else b

/-! ## Machine formats -/

/-- Double precision. -/
instance Scalar.double : Scalar Float where
  zero := 0
  one := 1
  decLt := inferInstance
  decLe := inferInstance
  sqrt := Float.sqrt
  abs := Float.abs
  isFinite := Float.isFinite

/-- Single precision; a literal is rounded to double precision first. -/
instance Scalar.single : Scalar Float32 where
  zero := 0
  one := 1
  ofScientific mantissa negative exponent :=
    (OfScientific.ofScientific mantissa negative exponent : Float).toFloat32
  decLt := inferInstance
  decLe := inferInstance
  sqrt := Float32.sqrt
  abs := Float32.abs
  isFinite := Float32.isFinite

end DerivativeFree
