import DerivativeFree.Problem.Basic

/-!
# Options, statuses and failures of a search

A search starts with a trust region of the radius `radiusBegin` and ends when the radius
`radiusEnd` gives no more progress, or when the evaluations are used up.  `obstacle?`
finds out whether a search can start at all.
-/

namespace DerivativeFree

set_option autoImplicit false

/-- How much is reported about a search. -/
inductive Verbosity where
  /-- Nothing. -/
  | silent
  /-- The final result. -/
  | final
  /-- Also every change of the radius and of the penalty. -/
  | radius
  /-- Also every evaluation. -/
  | evaluations
  deriving Repr, DecidableEq

/-- The verbosity of a level; what exceeds the greatest one counts as that. -/
def Verbosity.ofLevel : Nat → Verbosity
  | 0 => .silent
  | 1 => .final
  | 2 => .radius
  | _ => .evaluations

/-- The level of a verbosity. -/
def Verbosity.level : Verbosity → Nat
  | .silent => 0
  | .final => 1
  | .radius => 2
  | .evaluations => 3

theorem Verbosity.ofLevel_level (verbosity : Verbosity) :
    Verbosity.ofLevel verbosity.level = verbosity := by
  cases verbosity <;> rfl

/-- Whether a verbosity includes what another one reports. -/
def Verbosity.includes (verbosity other : Verbosity) : Bool :=
  other.level ≤ verbosity.level

/-- What is done about an inverse that rounding has spoilt. -/
inductive RoundingCheck where
  /-- It is not looked for. -/
  | off
  /-- It is reported. -/
  | warn
  /-- It ends the search. -/
  | abort
  deriving Repr, DecidableEq

/-- The options of a search. -/
structure Options (α : Type) [Scalar α] where
  /-- The initial radius of the trust region, a reasonable first change of a variable. -/
  radiusBegin : α := 0.5
  /-- The final radius, the accuracy that is asked for in the variables. -/
  radiusEnd : α := 1e-6
  /-- The greatest number of evaluations. -/
  maxEvaluations : Nat := 1000
  /-- What is reported. -/
  verbosity : Verbosity := .silent
  /-- What is done about rounding errors. -/
  roundingCheck : RoundingCheck := .off

/-- Why a search has ended. -/
inductive Status where
  /-- The final radius gives no more progress. -/
  | converged
  /-- The evaluations are used up, or the oracle wanted the search to stop. -/
  | exhausted
  /-- Rounding has spoilt the inverse of the simplex. -/
  | inaccurate
  deriving Repr, DecidableEq

/-- Why a step of a search has no result. -/
inductive Failure where
  /-- There are no variables. -/
  | noVariables
  /-- The initial point has the wrong dimension or an entry that is not finite. -/
  | badStart
  /-- The radii are not finite and positive, the initial one being the greater. -/
  | badRadii
  /-- There are not enough evaluations for the initial simplex. -/
  | badBudget
  /-- The oracle has failed. -/
  | evaluation (error : EvalError)
  /-- The point that is to receive the best one has another dimension. -/
  | lengthMismatch
  /-- The turns that were allowed did not suffice. -/
  | outOfFuel
  deriving Repr, DecidableEq

/-- The message of a failure. -/
def Failure.message : Failure → String
  | .noVariables => "number of variables must be positive"
  | .badStart => "invalid initial point"
  | .badRadii => "initial radius must be greater than final radius and both must be positive"
  | .badBudget =>
    "maximum number of evaluations must be at least the number of variables plus one"
  | .evaluation error => error.message
  | .lengthMismatch => "the point has the wrong dimension"
  | .outOfFuel => "the number of turns does not suffice"

namespace Options

variable {α : Type} [Scalar α]

/-- The radii of the trust region are positive and finite, and the final one is less. -/
def ValidRadii (options : Options α) : Prop :=
  0 < options.radiusEnd ∧ options.radiusEnd < options.radiusBegin ∧
    Scalar.isFinite options.radiusBegin = true

instance decidableValidRadii (options : Options α) : Decidable options.ValidRadii :=
  inferInstanceAs (Decidable (_ ∧ _ ∧ _))

/-- A point has `n` entries of finite size. -/
def ValidStart (n : Nat) (x : Array α) : Prop :=
  x.size = n ∧ x.all Scalar.isFinite = true

instance decidableValidStart (n : Nat) (x : Array α) : Decidable (ValidStart n x) :=
  inferInstanceAs (Decidable (_ ∧ _))

/-- What keeps a search in `n` variables from starting at `x`, if anything does. -/
def obstacle? (options : Options α) (n : Nat) (x : Array α) : Option Failure :=
  if n = 0 then some .noVariables
  else if ¬ ValidStart n x then some .badStart
  else if ¬ options.ValidRadii then some .badRadii
  else if options.maxEvaluations < n + 1 then some .badBudget
  else none

theorem obstacle?_eq_none_iff (options : Options α) (n : Nat) (x : Array α) :
    options.obstacle? n x = none ↔
      n ≠ 0 ∧ ValidStart n x ∧ options.ValidRadii ∧ n + 1 ≤ options.maxEvaluations := by
  unfold obstacle?
  split <;> simp_all
  split <;> simp_all
  split <;> simp_all

end Options

end DerivativeFree
