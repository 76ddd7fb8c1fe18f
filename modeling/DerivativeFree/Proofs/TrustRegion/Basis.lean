import DerivativeFree.Proofs.Exact.Rounding
import DerivativeFree.Proofs.Linear.Agreement
import DerivativeFree.Proofs.Linear.Fold

/-!
# The rotations of the basis

The columns of the basis are orthonormal, and a plane rotation of two neighbours keeps them
so (`OrthonormalColumns.rotate`).  `alignBasis` makes such rotations from the last free
column on, until only the first of the free columns has a component along a new gradient.
It leaves the other columns alone, and what the free columns are orthogonal to
(`AlignedFrom.alignBasis`).
-/

namespace DerivativeFree

set_option autoImplicit false

variable {α : Type} [EuclideanField α] {n m : Nat}

/-! ## Columns -/

theorem getD_setIfInBounds {β : Type} {k : Nat} (v : Vector β k) (i j : Nat) (value default : β) :
    (v.setIfInBounds i value)[j]?.getD default =
      if i = j ∧ i < k then value else v[j]?.getD default := by
  rw [Vector.getElem?_setIfInBounds]
  by_cases same : i = j
  · subst same
    by_cases inside : i < k
    · simp [inside]
    · simp [inside]
  · simp [same]

/-- The column at a position, or zero beyond the last one. -/
def columnAt (basis : Vector (Vector α n) n) (k : Nat) : Vector α n :=
  basis[k]?.getD 0

theorem columnAt_get (basis : Vector (Vector α n) n) (k : Fin n) :
    columnAt basis k = basis.get k := by
  simp [columnAt, get_eq_getElem]

theorem columnAt_beyond (basis : Vector (Vector α n) n) {k : Nat} (beyond : n ≤ k) :
    columnAt basis k = 0 := by
  simp [columnAt, Vector.getElem?_eq_none beyond]

/-- The basis with two neighbours replaced. -/
def replacePair (basis : Vector (Vector α n) n) (k : Nat) (first second : Vector α n) :
    Vector (Vector α n) n :=
  (basis.setIfInBounds k first).setIfInBounds (k + 1) second

theorem columnAt_replacePair (basis : Vector (Vector α n) n) {k : Nat} (inside : k + 1 < n)
    (first second : Vector α n) (j : Nat) :
    columnAt (replacePair basis k first second) j =
      if j = k then first else if j = k + 1 then second else columnAt basis j := by
  have before : k < n := Nat.lt_of_succ_lt inside
  simp only [columnAt, replacePair, getD_setIfInBounds, inside, before, and_true]
  split_ifs <;> first | rfl | omega

/-- The columns have length one and are orthogonal to each other. -/
def OrthonormalColumns (basis : Vector (Vector α n) n) : Prop :=
  ∀ i j, i < n → j < n → dot (columnAt basis i) (columnAt basis j) = if i = j then 1 else 0

namespace OrthonormalColumns

variable {basis : Vector (Vector α n) n}

theorem self (ortho : OrthonormalColumns basis) {i : Nat} (inside : i < n) :
    dot (columnAt basis i) (columnAt basis i) = 1 := by
  rw [ortho i i inside inside, if_pos rfl]

theorem cross (ortho : OrthonormalColumns basis) {i j : Nat} (inside : i < n) (within : j < n)
    (different : i ≠ j) : dot (columnAt basis i) (columnAt basis j) = 0 := by
  rw [ortho i j inside within, if_neg different]

/-- Beyond the last column there is none that would not be orthogonal to another one. -/
theorem apart (ortho : OrthonormalColumns basis) {i j : Nat} (different : i ≠ j) :
    dot (columnAt basis i) (columnAt basis j) = 0 := by
  rcases Nat.lt_or_ge i n with inside | beyond
  · rcases Nat.lt_or_ge j n with within | after
    · exact ortho.cross inside within different
    · rw [columnAt_beyond _ after, dot_zero]
  · rw [columnAt_beyond _ beyond, zero_dot]

/-- Two neighbours may be replaced by others of length one that are orthogonal to each other
and to the remaining columns. -/
theorem replacePair (ortho : OrthonormalColumns basis) {k : Nat} (inside : k + 1 < n)
    {first second : Vector α n} (one : dot first first = 1) (two : dot second second = 1)
    (apart : dot first second = 0)
    (rest : ∀ i < n, i ≠ k → i ≠ k + 1 →
      dot (columnAt basis i) first = 0 ∧ dot (columnAt basis i) second = 0) :
    OrthonormalColumns (replacePair basis k first second) := by
  have place : ∀ i, i = k ∨ i = k + 1 ∨ i ≠ k ∧ i ≠ k + 1 := fun i => by omega
  intro i j below under
  simp only [columnAt_replacePair _ inside]
  rcases place i with rfl | rfl | ⟨other, further⟩
  · rcases place j with rfl | rfl | ⟨aside, beyond⟩
    · simp [one]
    · simp [apart]
    · simp [aside, beyond, Ne.symm aside, dot_comm first, rest j under aside beyond]
  · rcases place j with rfl | rfl | ⟨aside, beyond⟩
    · simp [dot_comm second, apart]
    · simp [two]
    · simp [aside, beyond, Ne.symm beyond, dot_comm second, rest j under aside beyond]
  · rcases place j with rfl | rfl | ⟨aside, beyond⟩
    · simp [other, further, rest i below other further]
    · simp [other, further, rest i below other further]
    · simpa [other, further, aside, beyond] using ortho i j below under

/-- **A plane rotation of two neighbours keeps the columns orthonormal**, whichever of them
comes first. -/
theorem rotate (ortho : OrthonormalColumns basis) {k i j : Nat} (inside : k + 1 < n)
    (places : i = k ∧ j = k + 1 ∨ i = k + 1 ∧ j = k) {cosine sine : α}
    (unit : cosine * cosine + sine * sine = 1) :
    OrthonormalColumns (DerivativeFree.replacePair basis k
      (DerivativeFree.rotate cosine sine (columnAt basis i) (columnAt basis j)).1
      (DerivativeFree.rotate cosine sine (columnAt basis i) (columnAt basis j)).2) := by
  have left : i < n := by omega
  have right : j < n := by omega
  have one := ortho.self left
  have two := ortho.self right
  have apart := ortho.cross left right (by omega)
  have back := (dot_comm _ _).trans apart
  refine ortho.replacePair inside ?first ?second ?cross fun l below other further => ?rest
  case first =>
    simp only [DerivativeFree.rotate, add_dot, dot_add, smul_dot, dot_smul, one, two, apart, back]
    linear_combination unit
  case second =>
    simp only [DerivativeFree.rotate, sub_dot, dot_sub, smul_dot, dot_smul, one, two, apart, back]
    linear_combination unit
  case cross =>
    simp only [DerivativeFree.rotate, add_dot, dot_sub, smul_dot, dot_smul, one, two, apart, back]
    ring
  case rest =>
    have first := ortho.cross below left (by omega)
    have second := ortho.cross below right (by omega)
    simp [DerivativeFree.rotate, dot_add, dot_sub, dot_smul, first, second]

theorem diagonal (n : Nat) : OrthonormalColumns (DerivativeFree.diagonal n (1 : α)) := by
  intro i j below under
  rw [columnAt_get _ ⟨i, below⟩, columnAt_get _ ⟨j, under⟩, dot_eq_sum]
  simp [eq_comm]

end OrthonormalColumns

/-- Two entries, one of which is not zero, are turned into one of a positive length. -/
theorem rotation_length (component : α) {later : α} (nonzero : later ≠ 0) :
    0 < Scalar.sqrt (component * component + later * later) ∧
      Scalar.sqrt (component * component + later * later) *
          Scalar.sqrt (component * component + later * later) =
        component * component + later * later := by
  have square : 0 < component * component + later * later :=
    add_pos_of_nonneg_of_pos (mul_self_nonneg _) (mul_self_pos.mpr nonzero)
  exact ⟨sqrt_pos square, sqrt_mul_sqrt square.le⟩

/-! ## Alignment -/

namespace Workspace

/-- The free columns from `first` on have been turned so that only the first of them has a
component along the gradient. -/
structure AlignedFrom (basis : Vector (Vector α n) n) (gradient : Vector α n)
    (active first : Nat) (state : Vector (Vector α n) n × α) : Prop where
  ortho : OrthonormalColumns state.1
  before : ∀ i < first, columnAt state.1 i = columnAt basis i
  component : ∀ j, first ≤ j →
    dot (columnAt state.1 j) gradient = if j = first then state.2 else 0
  inside : state.2 ≠ 0 → first < n
  blind : ∀ v, (∀ j, active ≤ j → dot (columnAt basis j) v = 0) →
    ∀ j, active ≤ j → dot (columnAt state.1 j) v = 0

namespace AlignedFrom

variable {basis turned : Vector (Vector α n) n} {gradient : Vector α n} {active first : Nat}
  {later : α}

theorem last (ortho : OrthonormalColumns basis) (gradient : Vector α n) (active : Nat)
    (beyond : n ≤ first) : AlignedFrom basis gradient active first (basis, 0) where
  ortho := ortho
  before _ _ := rfl
  component j after := by rw [columnAt_beyond _ (beyond.trans after), zero_dot, ite_self]
  inside nonzero := absurd rfl nonzero
  blind _ orthogonal := orthogonal

theorem keep {k : Fin n} (aligned : AlignedFrom basis gradient active (k + 1) (turned, 0)) :
    AlignedFrom basis gradient active k (turned, dot (columnAt turned k) gradient) where
  ortho := aligned.ortho
  before i below := aligned.before i (Nat.lt_succ_of_lt below)
  component j after := by
    rcases Nat.eq_or_lt_of_le after with rfl | beyond
    · rw [if_pos rfl]
    · rw [aligned.component j beyond, ite_self, if_neg (Nat.ne_of_gt beyond)]
  inside _ := k.isLt
  blind := aligned.blind

theorem turn {k : Fin n} (aligned : AlignedFrom basis gradient active (k + 1) (turned, later))
    (free : active ≤ k) {component length : α}
    (known : dot (columnAt turned k) gradient = component) (further : later ≠ 0)
    (positive : 0 < length) (square : length * length = component * component + later * later) :
    AlignedFrom basis gradient active k
      (replacePair turned k
        (rotate (component / length) (later / length) (columnAt turned k)
          (columnAt turned (k + 1))).1
        (rotate (component / length) (later / length) (columnAt turned k)
          (columnAt turned (k + 1))).2, length) := by
  have inside : k.val + 1 < n := aligned.inside further
  have next : dot (columnAt turned (k + 1)) gradient = later := by
    rw [aligned.component _ le_rfl, if_pos rfl]
  refine ⟨?ortho, fun i below => ?before, fun j after => ?component, fun _ => k.isLt,
    fun v orthogonal j after => ?blind⟩
  case ortho =>
    refine aligned.ortho.rotate inside (.inl ⟨rfl, rfl⟩) ?_
    field_simp
    linear_combination -square
  case before =>
    rw [columnAt_replacePair _ inside, if_neg (by omega), if_neg (by omega)]
    exact aligned.before i (by omega)
  case component =>
    rw [columnAt_replacePair _ inside]
    by_cases own : j = k
    · simp only [own, if_true, rotate, add_dot, smul_dot, known, next]
      field_simp
      linear_combination -square
    · rw [if_neg own, if_neg own]
      by_cases second : j = k + 1
      · simp only [second, if_true, rotate, sub_dot, smul_dot, known, next]
        ring
      · rw [if_neg second, aligned.component j (by omega), if_neg second]
  case blind =>
    have before := aligned.blind v orthogonal
    rw [columnAt_replacePair _ inside]
    split_ifs
    · simp [rotate, add_dot, smul_dot, before k free, before (k + 1) (by omega)]
    · simp [rotate, sub_dot, smul_dot, before k free, before (k + 1) (by omega)]
    · exact before j after

theorem alignColumn {k : Fin n}
    (aligned : AlignedFrom basis gradient active (k + 1) (turned, later)) (free : active ≤ k) :
    AlignedFrom basis gradient active k (alignColumn gradient k (turned, later)) := by
  by_cases idle : later = 0
  · subst idle
    have stays : Workspace.alignColumn gradient k (turned, 0) =
        (turned, dot (columnAt turned k) gradient) := by
      simp [Workspace.alignColumn, columnAt_get]
    exact stays ▸ aligned.keep
  · have own : turned.get k = columnAt turned k := (columnAt_get turned k).symm
    have next : turned[k.val + 1]?.getD 0 = columnAt turned (k + 1) := rfl
    have known := rotation_length (dot (columnAt turned k) gradient) idle
    simp only [Workspace.alignColumn, roundedDot_exact, beq_iff_eq, idle, if_false, own, next,
      set_eq_setIfInBounds]
    exact aligned.turn free rfl idle known.1 known.2

/-- **After the alignment only the first free column has a component along the gradient.** -/
theorem alignBasis {workspace : Workspace α n m} (ortho : OrthonormalColumns workspace.basis)
    (gradient : Vector α n) :
    AlignedFrom workspace.basis gradient workspace.active workspace.active
      (workspace.alignBasis gradient) := by
  have invariant := foldr_invariant
    (fun (k : Fin n) state =>
      if workspace.active ≤ k.val then Workspace.alignColumn gradient k state else state)
    (workspace.basis, 0)
    (fun k state => AlignedFrom workspace.basis gradient workspace.active
      (max k workspace.active) state)
    (.last ortho gradient workspace.active (le_max_left _ _)) fun k state aligned => ?_
  · rwa [Nat.zero_max] at invariant
  · split
    case isTrue free =>
      rw [max_eq_left free]
      rw [max_eq_left (Nat.le_succ_of_le free)] at aligned
      exact aligned.alignColumn free
    case isFalse taken =>
      rw [max_eq_right (by omega)]
      rwa [max_eq_right (by omega)] at aligned

end AlignedFrom

end Workspace

end DerivativeFree
