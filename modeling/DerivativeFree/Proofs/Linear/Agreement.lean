import DerivativeFree.Proofs.Exact.Vector

/-!
# Vectors that agree at some positions

Two vectors agree on an interval of positions if they have the same entries there.  Writing
the same entries into both keeps the agreement and may extend it, whatever the vectors hold
elsewhere.
-/

namespace DerivativeFree

set_option autoImplicit false

variable {β : Type} {k first last : Nat} {v w : Vector β k}

theorem set_eq_setIfInBounds (v : Vector β k) {i : Nat} (inside : i < k) (value : β) :
    v.set i value inside = v.setIfInBounds i value := by
  simp [Vector.ext_iff, Vector.getElem_set, Vector.getElem_setIfInBounds]

/-- The vectors have the same entries at the positions from `first` up to, but not including,
`last`. -/
def AgreeOn (first last : Nat) (v w : Vector β k) : Prop :=
  ∀ i, first ≤ i → i < last → w[i]? = v[i]?

namespace AgreeOn

theorem refl (first last : Nat) (v : Vector β k) : AgreeOn first last v v :=
  fun _ _ _ => rfl

theorem empty (first : Nat) (v w : Vector β k) : AgreeOn first first v w :=
  fun _ from_first below => absurd below (Nat.not_lt_of_le from_first)

theorem mono {first' last' : Nat} (agree : AgreeOn first last v w) (later : first ≤ first')
    (earlier : last' ≤ last) : AgreeOn first' last' v w :=
  fun i from_first below => agree i (later.trans from_first) (below.trans_le earlier)

theorem get (agree : AgreeOn first last v w) {i : Fin k} (from_first : first ≤ i.val)
    (below : i.val < last) : w.get i = v.get i := by
  have same := agree i.val from_first below
  rw [Vector.getElem?_eq_getElem i.isLt, Vector.getElem?_eq_getElem i.isLt] at same
  exact Option.some.inj same

theorem of_get (same : ∀ i : Fin k, first ≤ i.val → i.val < last → w.get i = v.get i) :
    AgreeOn first last v w := by
  intro i from_first below
  by_cases inside : i < k
  · rw [Vector.getElem?_eq_getElem inside, Vector.getElem?_eq_getElem inside]
    exact congrArg some (same ⟨i, inside⟩ from_first below)
  · rw [Vector.getElem?_eq_none (Nat.le_of_not_lt inside),
      Vector.getElem?_eq_none (Nat.le_of_not_lt inside)]

theorem entry {α : Type} [Scalar α] {v w : Vector α k} (agree : AgreeOn first last v w) {i : Nat}
    (from_first : first ≤ i) (below : i < last) : entry w i = entry v i := by
  rw [DerivativeFree.entry, agree i from_first below, DerivativeFree.entry]

/-- The position that is written need not have agreed before. -/
theorem set_of_ne {j : Nat} (value : β)
    (agree : ∀ i, i ≠ j → first ≤ i → i < last → w[i]? = v[i]?) :
    AgreeOn first last (v.setIfInBounds j value) (w.setIfInBounds j value) := by
  intro i from_first below
  rw [Vector.getElem?_setIfInBounds, Vector.getElem?_setIfInBounds]
  split
  case isTrue => rfl
  case isFalse other => exact agree i (Ne.symm other) from_first below

theorem set (agree : AgreeOn first last v w) (j : Nat) (value : β) :
    AgreeOn first last (v.setIfInBounds j value) (w.setIfInBounds j value) :=
  set_of_ne value fun i _ => agree i

theorem set_first (agree : AgreeOn (first + 1) last v w) (value : β) :
    AgreeOn first last (v.setIfInBounds first value) (w.setIfInBounds first value) :=
  set_of_ne value fun i other from_first => agree i (Nat.lt_of_le_of_ne from_first (Ne.symm other))

theorem set_last (agree : AgreeOn first last v w) (value : β) :
    AgreeOn first (last + 1) (v.setIfInBounds last value) (w.setIfInBounds last value) :=
  set_of_ne value fun i other from_first below =>
    agree i from_first (Nat.lt_of_le_of_ne (Nat.le_of_lt_succ below) other)

/-- Entries at positions that agree may change places. -/
theorem swap (agree : AgreeOn 0 last v w) {i j : Nat} (left : i < last) (right : j < last) :
    AgreeOn 0 last (v.swapIfInBounds i j) (w.swapIfInBounds i j) := by
  by_cases inside : i < k ∧ j < k
  · intro p _ below
    rw [getElem?_swapIfInBounds w inside.1 inside.2, getElem?_swapIfInBounds v inside.1 inside.2]
    exact agree _ (Nat.zero_le _) (swap_lt left right below)
  · have still : ∀ u : Vector β k, u.swapIfInBounds i j = u := by
      intro u
      rw [← Vector.toArray_inj]
      simp only [Vector.toArray_swapIfInBounds, Array.swapIfInBounds, Vector.size_toArray]
      split
      case isTrue first =>
        split
        case isTrue second => exact absurd ⟨first, second⟩ inside
        case isFalse => rfl
      case isFalse => rfl
    rw [still, still]
    exact agree

end AgreeOn

end DerivativeFree
