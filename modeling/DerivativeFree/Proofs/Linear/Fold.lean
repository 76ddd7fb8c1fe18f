import DerivativeFree.Linear.Vector

/-!
# Folds

A fold over the indices below `n` keeps what its step keeps.  The invariant may mention
how many indices have been taken so far, which is what a search through a vector needs.
If a map commutes with the steps of two folds, it takes the result of one to that of the
other, and two folds whose steps keep a relation end in related states.
-/

namespace DerivativeFree

set_option autoImplicit false

theorem foldl_invariant {β : Type} {n : Nat} (step : β → Fin n → β) (start : β)
    (motive : Nat → β → Prop) (zero : motive 0 start)
    (succ : ∀ (k : Fin n) (state : β), motive k state → motive (k + 1) (step state k)) :
    motive n (Fin.foldl n step start) := by
  induction n with
  | zero => exact zero
  | succ n ih =>
    rw [Fin.foldl_succ_last]
    exact succ (Fin.last n) _ (ih _ fun k => succ k.castSucc)

/-- Two folds stay related by a map with which their steps commute. -/
theorem foldl_hom {β γ : Type} {n : Nat} (map : β → γ) (step : β → Fin n → β)
    (other : γ → Fin n → γ) (start : β)
    (commutes : ∀ state k, other (map state) k = map (step state k)) :
    Fin.foldl n other (map start) = map (Fin.foldl n step start) := by
  induction n with
  | zero => rw [Fin.foldl_zero, Fin.foldl_zero]
  | succ n ih =>
    rw [Fin.foldl_succ_last, Fin.foldl_succ_last,
      ih _ _ fun state k => commutes state k.castSucc, commutes]

theorem foldr_keep {β : Type} {n : Nat} (start : β) :
    Fin.foldr n (fun _ state => state) start = start := by
  induction n with
  | zero => rw [Fin.foldr_zero]
  | succ n ih => rw [Fin.foldr_succ, ih]

/-- Two folds from the last index on stay related if their steps keep the relation, which may
mention the last index that has been taken. -/
theorem foldr_relation {β γ : Type} {n : Nat} (step : Fin n → β → β) (other : Fin n → γ → γ)
    (start : β) (start' : γ) (related : Nat → β → γ → Prop) (last : related n start start')
    (pred : ∀ (k : Fin n) (state : β) (state' : γ), related (k + 1) state state' →
      related k (step k state) (other k state')) :
    related 0 (Fin.foldr n step start) (Fin.foldr n other start') := by
  induction n generalizing start start' with
  | zero =>
    rw [Fin.foldr_zero, Fin.foldr_zero]
    exact last
  | succ n ih =>
    rw [Fin.foldr_succ_last, Fin.foldr_succ_last]
    exact ih _ _ _ _ (pred (Fin.last n) start start' last) fun k => pred k.castSucc

/-- A fold from the last index on keeps what its step keeps. -/
theorem foldr_invariant {β : Type} {n : Nat} (step : Fin n → β → β) (start : β)
    (motive : Nat → β → Prop) (last : motive n start)
    (pred : ∀ (k : Fin n) (state : β), motive (k + 1) state → motive k (step k state)) :
    motive 0 (Fin.foldr n step start) :=
  foldr_relation step step start start (fun k state _ => motive k state) last
    fun k state _ => pred k state

end DerivativeFree
