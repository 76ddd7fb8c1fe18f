import DerivativeFree.Proofs.TrustRegion.Positions

/-!
# Combinations of the active gradients

There are as many columns in the basis as variables, so a vector that is orthogonal to all of
them is zero (`OrthonormalColumns.complete`).  The leading columns are made from the active
gradients.  A vector that is orthogonal to the free columns is therefore a combination of the
active gradients, and the coefficients are found from the last one to the first, by what is left
of the vector (`Resolved`).

In this way the search expresses a gradient that depends on the active ones
(`dependence_combination`), and a trial step of the first stage (`candidates_combination`).
-/

namespace DerivativeFree

set_option autoImplicit false

variable {α : Type} [EuclideanField α] {n m : Nat}

/-! ## Combinations -/

/-- The sum of the first vectors, each with its coefficient. -/
def combination (count : Nat) (coefficients : Nat → α) (vectors : Nat → Vector α n) :
    Vector α n :=
  Vector.ofFn fun i => ∑ k ∈ Finset.range count, coefficients k * (vectors k).get i

theorem dot_combination (count : Nat) (coefficients : Nat → α) (vectors : Nat → Vector α n)
    (u : Vector α n) : dot u (combination count coefficients vectors) =
      ∑ k ∈ Finset.range count, coefficients k * dot u (vectors k) := by
  simp only [dot_eq_sum, combination, Vector.get_ofFn, Finset.mul_sum]
  rw [Finset.sum_comm]
  exact Finset.sum_congr rfl fun k _ => Finset.sum_congr rfl fun i _ => mul_left_comm _ _ _

section

variable {count : Nat} {coefficients others : Nat → α} {vectors : Nat → Vector α n}

theorem combination_congr {replaced : Nat → Vector α n}
    (same : ∀ k < count, coefficients k = others k ∧ vectors k = replaced k) :
    combination count coefficients vectors = combination count others replaced := by
  refine vector_ext fun i => ?_
  simp only [combination, Vector.get_ofFn]
  refine Finset.sum_congr rfl fun k among => ?_
  obtain ⟨coefficient, vector⟩ := same k (Finset.mem_range.mp among)
  rw [coefficient, vector]

/-- The vectors may change places. -/
theorem combination_permuted {σ : Equiv.Perm Nat} (fixed : ∀ k, count ≤ k → σ k = k) :
    combination count (fun k => coefficients (σ k)) (fun k => vectors (σ k)) =
      combination count coefficients vectors := by
  have back : ∀ k, count ≤ k → σ.symm k = k := fun k beyond => by
    rw [Equiv.symm_apply_eq, fixed k beyond]
  refine vector_ext fun i => ?_
  simp only [combination, Vector.get_ofFn]
  refine Finset.sum_nbij' σ σ.symm (fun k among => ?_) (fun k among => ?_)
    (fun k _ => σ.symm_apply_apply k) (fun k _ => σ.apply_symm_apply k) fun _ _ => rfl
  · exact Finset.mem_range.mpr (Workspace.lt_of_fixed fixed (Finset.mem_range.mp among))
  · exact Finset.mem_range.mpr (Workspace.lt_of_fixed back (Finset.mem_range.mp among))

/-- A vector without a coefficient may be left out. -/
theorem combination_succ (none : coefficients count = 0) :
    combination (count + 1) coefficients vectors = combination count coefficients vectors := by
  refine vector_ext fun i => ?_
  simp only [combination, Vector.get_ofFn, Finset.sum_range_succ, none, zero_mul, add_zero]

/-- What lies between two combinations is one of them. -/
theorem combination_mix (part : α) :
    (1 - part) * combination count coefficients vectors + part * combination count others vectors =
      combination count (fun k => (1 - part) * coefficients k + part * others k) vectors := by
  refine vector_ext fun i => ?_
  simp only [get_add, get_smul, combination, Vector.get_ofFn, Finset.mul_sum,
    ← Finset.sum_add_distrib]
  exact Finset.sum_congr rfl fun k _ => by ring

/-- A combination of the vectors takes the place of the last one. -/
theorem combination_replace {v : Vector α n} {ratio : α} (some : 0 < count)
    (expressed : v = combination count others vectors)
    (limit : coefficients (count - 1) = ratio * others (count - 1)) :
    combination count coefficients vectors = combination count
      (fun k => if k = count - 1 then ratio else coefficients k - ratio * others k)
      (fun k => if k = count - 1 then v else vectors k) := by
  obtain ⟨last, rfl⟩ := Nat.exists_eq_succ_of_ne_zero some.ne'
  rw [Nat.succ_sub_one] at limit ⊢
  have earlier : ∀ (i : Fin n), ∀ k ∈ Finset.range last,
      (if k = last then ratio else coefficients k - ratio * others k) *
          (if k = last then v else vectors k).get i =
        coefficients k * (vectors k).get i - ratio * (others k * (vectors k).get i) := by
    intro i k among
    have before : k ≠ last := (Finset.mem_range.mp among).ne
    rw [if_neg before, if_neg before]
    ring
  refine vector_ext fun i => ?_
  have component : v.get i = ∑ k ∈ Finset.range (last + 1), others k * (vectors k).get i := by
    rw [expressed, combination, Vector.get_ofFn]
  simp only [combination, Vector.get_ofFn]
  rw [Finset.sum_range_succ, Finset.sum_range_succ, Finset.sum_congr rfl (earlier i),
    Finset.sum_sub_distrib, ← Finset.mul_sum, if_pos rfl, if_pos rfl, component,
    Finset.sum_range_succ, limit]
  ring

end

/-- The matrix with the columns as its rows has its transpose as its inverse. -/
theorem OrthonormalColumns.mul_transpose {basis : Vector (Vector α n) n}
    (ortho : OrthonormalColumns basis) :
    (Matrix.of fun i j : Fin n => (basis.get i).get j) *
      (Matrix.of fun i j : Fin n => (basis.get i).get j).transpose = 1 := by
  ext i j
  have product := ortho i j i.isLt j.isLt
  rw [columnAt_get, columnAt_get, dot_eq_sum] at product
  rw [Matrix.one_apply, Matrix.mul_apply]
  exact product.trans (if_congr Fin.ext_iff.symm rfl rfl)

/-- **What is orthogonal to all columns is zero.** -/
theorem OrthonormalColumns.complete {basis : Vector (Vector α n) n}
    (ortho : OrthonormalColumns basis) {v : Vector α n}
    (orthogonal : ∀ j, dot (columnAt basis j) v = 0) : v = 0 := by
  let rows : Matrix (Fin n) (Fin n) α := Matrix.of fun i j => (basis.get i).get j
  have left : rows.transpose * rows = 1 := mul_eq_one_comm.mp ortho.mul_transpose
  have none : rows.mulVec v.get = 0 := by
    funext j
    have product := orthogonal j
    rwa [columnAt_get, dot_eq_sum] at product
  have whole : v.get = 0 := by
    rw [← Matrix.one_mulVec v.get, ← left, ← Matrix.mulVec_mulVec, none, Matrix.mulVec_zero]
  exact vector_ext fun i => (congrFun whole i).trans (get_zero i).symm

/-- A vector is known by its components along the columns. -/
theorem OrthonormalColumns.ext {basis : Vector (Vector α n) n} (ortho : OrthonormalColumns basis)
    {v w : Vector α n} (same : ∀ j, dot (columnAt basis j) v = dot (columnAt basis j) w) :
    v = w := by
  have none : v - w = 0 := ortho.complete fun j => by rw [dot_sub, same, sub_self]
  refine vector_ext fun i => sub_eq_zero.mp ?_
  rw [← get_sub, none, get_zero]

/-- What the other columns are orthogonal to is a combination of the leading ones. -/
theorem OrthonormalColumns.eq_combination {basis : Vector (Vector α n) n}
    (ortho : OrthonormalColumns basis) {count : Nat} (few : count ≤ n) {v : Vector α n}
    (orthogonal : ∀ j, count ≤ j → dot (columnAt basis j) v = 0) :
    v = combination count (fun j => dot (columnAt basis j) v) (columnAt basis) := by
  refine ortho.ext fun j => ?_
  rw [dot_combination]
  rcases Nat.lt_or_ge j count with before | behind
  · have among : j ∈ Finset.range count := Finset.mem_range.mpr before
    rw [Finset.sum_eq_single_of_mem j among fun i _ other => ?_, ortho.self (before.trans_le few),
      mul_one]
    rw [ortho.apart other.symm, mul_zero]
  · rw [orthogonal j behind]
    refine (Finset.sum_eq_zero fun i among => ?_).symm
    have other : j ≠ i := ((Finset.mem_range.mp among).trans_le behind).ne'
    rw [ortho.apart other, mul_zero]

namespace Workspace

variable {model : LinearModel α n m} {workspace : Workspace α n m} {k : Nat} {v : Vector α n}

/-! ## Coefficients from the last to the first -/

/-- The coefficients from a position on are those of a vector, and what is left of the vector is
the rest of it. -/
structure Resolved (model : LinearModel α n m) (workspace : Workspace α n m) (v : Vector α n)
    (k : Nat) (rest : Vector α n) (coefficients : Vector α (m + 1)) : Prop where
  rest : 1 ≤ k → ∀ u, dot u rest = dot u v - ∑ i ∈ Finset.Ico k workspace.active,
    entry coefficients i * dot u (workspace.gradientAt model i)
  component : ∀ j, k ≤ j → dot (workspace.basisAt j) v = ∑ i ∈ Finset.Ico k workspace.active,
    entry coefficients i * dot (workspace.basisAt j) (workspace.gradientAt model i)

namespace Resolved

variable {rest less : Vector α n} {coefficients : Vector α (m + 1)} {coefficient : α}

/-- At first the whole vector is left. -/
theorem start (free : ∀ j, workspace.active ≤ j → dot (workspace.basisAt j) v = 0)
    (coefficients : Vector α (m + 1)) :
    Resolved model workspace v workspace.active v coefficients where
  rest _ u := by simp
  component j after := by simp [free j after]

/-- The component along a column determines the coefficient of the gradient at its position, as
no gradient before it has such a component. -/
theorem next (resolved : Resolved model workspace v (k + 1) rest coefficients)
    (factored : workspace.Factored model) (inside : k < workspace.active)
    (known : coefficient * entry workspace.pivots k = dot (workspace.basisAt k) rest)
    (left : 1 ≤ k → ∀ u, dot u less =
      dot u rest - coefficient * dot u (workspace.gradientAt model k)) :
    Resolved model workspace v k less (coefficients.setIfInBounds k coefficient) := by
  have place : k < m + 1 := inside.trans_le (factored.room.trans factored.most)
  have sum : ∀ u, ∑ i ∈ Finset.Ico k workspace.active,
      entry (coefficients.setIfInBounds k coefficient) i * dot u (workspace.gradientAt model i) =
        coefficient * dot u (workspace.gradientAt model k) +
          ∑ i ∈ Finset.Ico (k + 1) workspace.active,
            entry coefficients i * dot u (workspace.gradientAt model i) := by
    intro u
    rw [Finset.sum_eq_sum_Ico_succ_bot inside, entry_setIfInBounds _ place, if_pos rfl]
    congr 1
    refine Finset.sum_congr rfl fun i among => ?_
    have later : k ≠ i := (Nat.lt_of_succ_le (Finset.mem_Ico.mp among).1).ne
    rw [entry_setIfInBounds _ place, if_neg later]
  have before := resolved.rest (Nat.succ_le_succ (Nat.zero_le k))
  refine ⟨fun least u => ?_, fun j after => ?_⟩
  · rw [sum, left least, before]
    ring
  · rw [sum, factored.triangular k inside j after]
    rcases Nat.eq_or_lt_of_le after with rfl | beyond
    · rw [if_pos rfl, known, before, sub_add_cancel]
    · rw [if_neg beyond.ne', mul_zero, zero_add]
      exact resolved.component j beyond

/-- **At the end the coefficients are those of the whole vector.** -/
theorem combination_eq (resolved : Resolved model workspace v 0 rest coefficients)
    (factored : workspace.Factored model) :
    v = combination workspace.active (entry coefficients) (workspace.gradientAt model) := by
  refine factored.ortho.ext fun j => ?_
  rw [dot_combination, Finset.range_eq_Ico]
  exact resolved.component j (Nat.zero_le j)

end Resolved

/-! ## Dependent gradients -/

/-- A component of zero gives a coefficient of zero, which need not be set apart. -/
theorem dependenceAt_eq (model : LinearModel α n m) (workspace : Workspace α n m) (k : Nat)
    (found : Dependence α n m) {coefficient : α}
    (known : dot (workspace.basisAt k) found.rest / entry workspace.pivots k = coefficient) :
    dependenceAt model workspace k found =
      { rest := if 1 ≤ k then found.rest - coefficient * workspace.gradientAt model k
          else found.rest
        coefficients := found.coefficients.setIfInBounds k coefficient
        ratio := if 0 < coefficient ∧ (workspace.constraintAt k).val < m ∧
            ∀ least, found.ratio = some least → entry workspace.multipliers k / coefficient < least
          then some (entry workspace.multipliers k / coefficient) else found.ratio } := by
  subst known
  by_cases none : dot (workspace.basisAt k) found.rest = 0
  · have still : found.rest - (0 : α) * workspace.gradientAt model k = found.rest :=
      vector_ext fun i => by simp
    simp [dependenceAt, none, still]
  · simp [dependenceAt, none, and_assoc, Option.all_eq_true]

/-- No ratio of a multiplier to a positive coefficient from a position on is less than the one that
has been found, and there is none only if no coefficient is positive. -/
structure Limited (workspace : Workspace α n m) (k : Nat) (found : Dependence α n m) : Prop where
  none : found.ratio = none → ∀ i, k ≤ i → i < workspace.active →
    (workspace.constraintAt i).val < m → entry found.coefficients i ≤ 0
  least : ∀ ratio, found.ratio = some ratio → ∀ i, k ≤ i → i < workspace.active →
    (workspace.constraintAt i).val < m → 0 < entry found.coefficients i →
      ratio * entry found.coefficients i ≤ entry workspace.multipliers i

theorem Limited.next {found : Dependence α n m} (limited : workspace.Limited (k + 1) found)
    (place : k < m + 1) (model : LinearModel α n m) :
    workspace.Limited k (dependenceAt model workspace k found) := by
  obtain ⟨coefficient, known⟩ : ∃ coefficient,
      dot (workspace.basisAt k) found.rest / entry workspace.pivots k = coefficient := ⟨_, rfl⟩
  rw [dependenceAt_eq model workspace k found known]
  have entries : ∀ i, entry (found.coefficients.setIfInBounds k coefficient) i =
      if k = i then coefficient else entry found.coefficients i :=
    entry_setIfInBounds _ place _
  constructor
  case none =>
    intro none i after inside constraint
    dsimp only at none ⊢
    rw [entries]
    split at none
    case isTrue => cases none
    case isFalse free =>
      split_ifs with here
      · subst here
        by_contra positive
        exact free ⟨not_le.mp positive, constraint, fun least known => by simp [none] at known⟩
      · exact limited.none none i (Nat.lt_of_le_of_ne after here) inside constraint
  case least =>
    intro ratio known i after inside constraint
    dsimp only at known ⊢
    rw [entries]
    split at known
    case isTrue limits =>
      obtain ⟨positive, -, less⟩ := limits
      cases known
      split_ifs with here
      · rw [← here, div_mul_cancel₀ _ positive.ne']
        exact fun _ => le_rfl
      · intro above
        have later : k + 1 ≤ i := Nat.lt_of_le_of_ne after here
        cases before : found.ratio with
        | none => exact absurd above (limited.none before i later inside constraint).not_gt
        | some least =>
          exact (mul_le_mul_of_nonneg_right (less least before).le above.le).trans
            (limited.least least before i later inside constraint above)
    case isFalse free =>
      split_ifs with here
      · subst here
        intro positive
        refine (le_div_iff₀ positive).mp (not_lt.mp fun less => free ?_)
        refine ⟨positive, constraint, fun least same => ?_⟩
        rw [known] at same
        cases same
        exact less
      · exact limited.least ratio known i (Nat.lt_of_le_of_ne after here) inside constraint

/-- **A gradient without a component along the free columns is a combination of the active ones**,
and the ratio that is found for it is the least one. -/
theorem dependence_combination (factored : workspace.Factored model) {gradient : Vector α n}
    (free : ∀ j, workspace.active ≤ j → dot (workspace.basisAt j) gradient = 0) :
    gradient = combination workspace.active
        (entry (dependence model workspace gradient).coefficients) (workspace.gradientAt model) ∧
      workspace.Limited 0 (dependence model workspace gradient) := by
  have few := factored.room.trans factored.most
  have invariant := foldr_invariant (fun k : Fin workspace.active => dependenceAt model workspace k)
    ⟨gradient, workspace.candidates, none⟩
    (fun k found => Resolved model workspace gradient k found.rest found.coefficients ∧
      workspace.Limited k found)
    ⟨.start free _, fun _ i after inside => absurd after (not_le.mpr inside), nofun⟩ ?_
  · exact ⟨invariant.1.combination_eq factored, invariant.2⟩
  · rintro k found ⟨resolved, limited⟩
    refine ⟨?_, limited.next (k.isLt.trans_le few) model⟩
    rw [dependenceAt_eq model workspace k found rfl]
    refine resolved.next factored k.isLt (div_mul_cancel₀ _ (factored.pivot_ne_zero k k.isLt))
      fun later u => ?_
    rw [if_pos later, dot_sub, dot_smul]

/-- Only the last active gradient has a component along the last active column. -/
theorem Factored.dot_combination_last (factored : workspace.Factored model)
    (some : 0 < workspace.active) (coefficients : Nat → α) :
    dot (workspace.basisAt (workspace.active - 1))
        (combination workspace.active coefficients (workspace.gradientAt model)) =
      coefficients (workspace.active - 1) * entry workspace.pivots (workspace.active - 1) := by
  have last : workspace.active - 1 < workspace.active := Nat.sub_lt some Nat.one_pos
  rw [dot_combination, Finset.sum_eq_single_of_mem _ (Finset.mem_range.mpr last)]
  · rw [factored.triangular _ last _ le_rfl, if_pos rfl]
  · intro i among other
    have inside := Finset.mem_range.mp among
    rw [factored.triangular i inside _ (by omega), if_neg other.symm, mul_zero]

/-- No active gradient has a component along a free column. -/
theorem Factored.dot_combination_free (factored : workspace.Factored model) {j : Nat}
    (free : workspace.active ≤ j) (coefficients : Nat → α) :
    dot (workspace.basisAt j)
      (combination workspace.active coefficients (workspace.gradientAt model)) = 0 := by
  rw [dot_combination]
  refine Finset.sum_eq_zero fun i among => ?_
  have inside := Finset.mem_range.mp among
  rw [factored.triangular i inside j (by omega), if_neg (by omega), mul_zero]

/-! ## Trial steps -/

/-- **The candidates of the first stage are the multipliers of the trial step**, if it has no
component along the free columns. -/
theorem candidates_combination (factored : workspace.Factored model)
    (first : workspace.secondStage = false)
    (free : ∀ j, workspace.active ≤ j → dot (workspace.basisAt j) workspace.trial = 0) :
    workspace.trial = combination workspace.active
      (entry (workspace.withCandidates model).candidates) (workspace.gradientAt model) := by
  have few := factored.room.trans factored.most
  have resolved := foldr_invariant (fun k : Fin workspace.active => multiplierAt model workspace k)
    (workspace.trial, workspace.candidates)
    (fun k state => Resolved model workspace workspace.trial k state.1 state.2)
    (.start free _) fun k state resolved => ?_
  · refine (resolved.combination_eq factored).trans (vector_ext fun i => ?_)
    simp only [combination, Vector.get_ofFn]
    refine Finset.sum_congr rfl fun k among => ?_
    have inside := Finset.mem_range.mp among
    have place : k < m + 1 := inside.trans_le few
    have same : activeCandidates model workspace =
        (Fin.foldr workspace.active (fun k => multiplierAt model workspace k)
          (workspace.trial, workspace.candidates)).2 := by
      simp [activeCandidates, first]
    rw [← same, entry_of_lt _ place, entry_of_lt _ place]
    simp [withCandidates, not_le.mpr inside, get_eq_getElem]
  · simp only [multiplierAt, roundedDot_exact]
    refine resolved.next factored k.isLt (div_mul_cancel₀ _ (factored.pivot_ne_zero k k.isLt))
      fun later u => ?_
    rw [if_pos later, dot_sub, dot_smul]

end Workspace

end DerivativeFree
