import DerivativeFree.Linear.Vector

/-!
# Checked positions and counts

Beyond the end of a vector a read by position gives a default and a write does nothing, and no
count falls below zero.  A routine that must not rely on this can be written so that each of these
cases is a `Fault`.  Where the positions are in bounds, it then does what the unchecked one does;
a loop does so if each of its steps does (`change_eq`, `foldlM_eq`, `foldrM_eq`).
-/

namespace DerivativeFree

set_option autoImplicit false

/-- What a routine must not do. -/
inductive Fault where
  /-- To read or write beyond the end of a vector. -/
  | position
  /-- To lower a count below zero. -/
  | count
  deriving Repr, DecidableEq

namespace Checked

/-! ## Positions and counts -/

section Positions

variable {β : Type} {k : Nat}

/-- The entry at a position. -/
def read (v : Vector β k) (position : Nat) : Except Fault β :=
  match v[position]? with
  | some value => pure value
  | none => throw .position

theorem read_getD (v : Vector β k) (default : β) {position : Nat} (inside : position < k) :
    read v position = pure (v[position]?.getD default) := by
  rw [read, Vector.getElem?_eq_getElem inside]
  rfl

/-- The vector with the entry at a position replaced. -/
def write (v : Vector β k) (position : Nat) (value : β) : Except Fault (Vector β k) :=
  if position < k then pure (v.setIfInBounds position value) else throw .position

theorem write_of_lt (v : Vector β k) {position : Nat} (inside : position < k) (value : β) :
    write v position value = pure (v.setIfInBounds position value) :=
  if_pos inside

/-- The vector with the entries at two positions exchanged. -/
def swap (v : Vector β k) (left right : Nat) : Except Fault (Vector β k) :=
  if left < k ∧ right < k then pure (v.swapIfInBounds left right) else throw .position

theorem swap_of_lt (v : Vector β k) {left right : Nat} (first : left < k) (second : right < k) :
    swap v left right = pure (v.swapIfInBounds left right) :=
  if_pos ⟨first, second⟩

/-- The constraint with the given index. -/
def constraint {m : Nat} (index : Nat) : Except Fault (Fin (m + 1)) :=
  if inside : index < m + 1 then pure ⟨index, inside⟩ else throw .position

/-- The difference of two counts. -/
def minus (count less : Nat) : Except Fault Nat :=
  if less ≤ count then pure (count - less) else throw .count

theorem minus_of_le {count less : Nat} (enough : less ≤ count) :
    minus count less = pure (count - less) :=
  if_pos enough

/-- The vector with its entries changed in turn, at the positions from `first` up to, but not
including, `last`. -/
def change (first last : Nat) (update : Nat → β → Except Fault β) (v : Vector β k) :
    Except Fault (Vector β k) :=
  (List.range' first (last - first)).foldlM (fun v position => do
    let before ← read v position
    let after ← update position before
    write v position after) v

/-- Each entry is changed once. -/
theorem change_eq {first last : Nat} {update : Nat → β → Except Fault β} (value : Nat → β → β)
    (v : Vector β k) (within : last ≤ k)
    (known : ∀ position before, first ≤ position → position < last →
      update position before = pure (value position before)) :
    change first last update v = pure (Vector.ofFn fun i =>
      if first ≤ i.val ∧ i.val < last then value i (v.get i) else v.get i) := by
  obtain ⟨count, length⟩ : ∃ count, last - first = count := ⟨_, rfl⟩
  unfold change
  rw [length]
  induction count generalizing first v with
  | zero =>
    refine congrArg pure (Vector.ext fun i inside => ?_)
    have out : ¬ (first ≤ i ∧ i < last) := by omega
    rw [Vector.getElem_ofFn, if_neg out]
    rfl
  | succ count ih =>
    have below : first < last := by omega
    have inside : first < k := Nat.lt_of_lt_of_le below within
    rw [List.range'_succ, List.foldlM_cons, read, Vector.getElem?_eq_getElem inside]
    simp only [pure_bind, known first _ (Nat.le_refl first) below, write_of_lt v inside]
    rw [ih _ (fun position before later => known position before (Nat.le_of_succ_le later))
      (by omega)]
    refine congrArg pure (Vector.ext fun i within => ?_)
    simp only [Vector.getElem_ofFn, get_eq_getElem, Vector.getElem_setIfInBounds]
    by_cases here : first = i
    · subst here
      have before : ¬ (first + 1 ≤ first ∧ first < last) := by omega
      rw [if_neg before, if_pos rfl, if_pos ⟨Nat.le_refl first, below⟩]
    · have same : first + 1 ≤ i ↔ first ≤ i := by omega
      simp only [same, here, if_false]

end Positions

/-- A fold over a list that meets no fault. -/
theorem foldlM_eq {β γ : Type} {checked : β → γ → Except Fault β} {step : β → γ → β}
    {positions : List γ} (known : ∀ position ∈ positions, ∀ state,
      checked state position = pure (step state position)) (start : β) :
    positions.foldlM checked start = pure (positions.foldl step start) := by
  induction positions generalizing start with
  | nil => rfl
  | cons position positions ih =>
    rw [List.foldlM_cons, known position List.mem_cons_self, pure_bind]
    exact ih (fun later among => known later (List.mem_cons_of_mem position among)) _

/-- A fold from the last index on that meets no fault as long as the invariant holds. -/
theorem foldrM_eq {β : Type} {k : Nat} {checked : Fin k → β → Except Fault β}
    {step : Fin k → β → β} (motive : Nat → β → Prop) {start : β} (last : motive k start)
    (known : ∀ (i : Fin k) (state : β), motive (i + 1) state →
      checked i state = pure (step i state) ∧ motive i (step i state)) :
    Fin.foldrM k checked start = pure (Fin.foldr k step start) := by
  induction k generalizing start with
  | zero => rw [Fin.foldrM_zero, Fin.foldr_zero]
  | succ k ih =>
    obtain ⟨first, kept⟩ := known (Fin.last k) start last
    simp only [Fin.foldrM_succ_last, Fin.foldr_succ_last, first, pure_bind]
    exact ih kept fun i => known i.castSucc

end Checked

end DerivativeFree
