import DerivativeFree.Proofs.TrustRegion.Violation

/-!
# The factorization of the active gradients

At the head of every turn of both stages, the basis is an orthogonal matrix, the order lists the
constraints that are considered, and the gradients of the active ones are factored by the basis and
a triangular matrix with the pivots on its diagonal (`factorization_coherent`).  So the active
gradients are linearly independent (`Factored.independent`), and each leading column adds to the
span of those before it what the gradient at its position does (`Factored.span_eq`).

The constraints may change places in a revision, but none of those that are considered is lost, nor
listed twice (`Listed.revise`).
-/

namespace DerivativeFree

set_option autoImplicit false

variable {α : Type} [EuclideanField α] {n m : Nat}

namespace Workspace

variable {model : LinearModel α n m} {workspace : Workspace α n m} {k : Nat}

/-! ## The basis -/

/-- The matrix of the columns of the basis. -/
def basisMatrix (workspace : Workspace α n m) : Matrix (Fin n) (Fin n) α :=
  Matrix.of fun i j => (workspace.basis.get j).get i

theorem basisMatrix_orthogonal (ortho : OrthonormalColumns workspace.basis) :
    workspace.basisMatrix ∈ Matrix.orthogonalGroup (Fin n) α :=
  (Matrix.mem_orthogonalGroup_iff' (Fin n) α).mpr ortho.mul_transpose

/-! ## The active gradients -/

namespace Factored

/-- No component of an active gradient is found along the columns behind its own. -/
theorem above (factored : workspace.Factored model) {i j : Nat} (inside : i < workspace.active)
    (behind : i < j) : dot (workspace.basisAt j) (workspace.gradientAt model i) = 0 := by
  rw [factored.triangular i inside j behind.le, if_neg behind.ne']

theorem diagonal (factored : workspace.Factored model) (inside : k < workspace.active) :
    dot (workspace.basisAt k) (workspace.gradientAt model k) = entry workspace.pivots k := by
  rw [factored.triangular k inside k le_rfl, if_pos rfl]

/-- **The active gradients are linearly independent**, as their components along the leading
columns make up a triangular matrix without zeros on its diagonal. -/
theorem independent (factored : workspace.Factored model) :
    LinearIndependent α fun i : Fin workspace.active => (workspace.gradientAt model i).get := by
  let components : Matrix (Fin workspace.active) (Fin workspace.active) α :=
    Matrix.of fun j i => dot (workspace.basisAt j) (workspace.gradientAt model i)
  have triangular : components.BlockTriangular id :=
    fun j i before => factored.above i.isLt before
  have regular : components.det ≠ 0 := by
    rw [Matrix.det_of_isUpperTriangular triangular]
    refine Finset.prod_ne_zero_iff.mpr fun i _ => ?_
    exact (factored.diagonal i.isLt).trans_ne (factored.pivot_ne_zero i i.isLt)
  refine Fintype.linearIndependent_iff.mpr fun coefficients none => ?_
  have zero : components.mulVec coefficients = 0 := by
    funext j
    have entries : ∀ l, ∑ i, coefficients i * (workspace.gradientAt model i).get l = 0 :=
      fun l => by simpa using congrFun none l
    calc ∑ i : Fin workspace.active, dot (workspace.basisAt j) (workspace.gradientAt model i) *
            coefficients i
        = ∑ i : Fin workspace.active, ∑ l, (workspace.basisAt j).get l *
            (coefficients i * (workspace.gradientAt model i).get l) := by
          refine Finset.sum_congr rfl fun i _ => ?_
          rw [dot_eq_sum, Finset.sum_mul]
          exact Finset.sum_congr rfl fun l _ => by ring
      _ = ∑ l, (workspace.basisAt j).get l *
            ∑ i : Fin workspace.active, coefficients i * (workspace.gradientAt model i).get l := by
          rw [Finset.sum_comm]
          exact Finset.sum_congr rfl fun l _ => (Finset.mul_sum ..).symm
      _ = 0 := by simp only [entries, mul_zero, Finset.sum_const_zero]
  exact congrFun (Matrix.eq_zero_of_mulVec_eq_zero regular zero)

/-- An active gradient is a combination of the columns up to its own. -/
theorem gradientAt_eq (factored : workspace.Factored model) (inside : k < workspace.active) :
    workspace.gradientAt model k = combination (k + 1)
      (fun j => dot (workspace.basisAt j) (workspace.gradientAt model k)) workspace.basisAt := by
  have few : k + 1 ≤ n := inside.trans_le factored.few
  exact factored.ortho.eq_combination few fun j behind => factored.above inside behind

/-- **The leading columns span the active gradients**, each of them with those before it. -/
theorem span_eq (factored : workspace.Factored model) (below : k ≤ workspace.active) :
    Submodule.span α ((fun i => (workspace.basisAt i).get) '' Set.Iio k) =
      Submodule.span α ((fun i => (workspace.gradientAt model i).get) '' Set.Iio k) := by
  have grown : ∀ (f : Nat → Fin n → α) (k : Nat),
      f '' Set.Iio (k + 1) = insert (f k) (f '' Set.Iio k) := by
    intro f k
    rw [← Order.succ_eq_add_one, Order.Iio_succ_eq_insert, Set.image_insert_eq]
  induction k with
  | zero => simp
  | succ k ih =>
    have same := ih (Nat.le_of_succ_le below)
    rw [grown, grown, Submodule.span_insert, Submodule.span_insert, ← same]
    generalize known : Submodule.span α ((fun i => (workspace.basisAt i).get) '' Set.Iio k) =
      before
    -- The gradient is its pivot times the column, but for what has been spanned before.
    obtain ⟨rest, spanned, split⟩ : ∃ rest ∈ before, (workspace.gradientAt model k).get =
        rest + entry workspace.pivots k • (workspace.basisAt k).get := by
      refine ⟨∑ j ∈ Finset.range k, dot (workspace.basisAt j) (workspace.gradientAt model k) •
        (workspace.basisAt j).get, Submodule.sum_mem _ fun j among => ?_, ?_⟩
      · refine Submodule.smul_mem _ _ (known ▸ Submodule.subset_span ?_)
        exact Set.mem_image_of_mem _ (Finset.mem_range.mp among)
      · funext i
        nth_rewrite 1 [factored.gradientAt_eq below]
        rw [combination, Vector.get_ofFn, Finset.sum_range_succ, factored.diagonal below]
        simp
    have pivot := factored.pivot_ne_zero k below
    refine le_antisymm (sup_le ?_ le_sup_right) (sup_le ?_ le_sup_right)
    · refine (Submodule.span_singleton_le_iff_mem ..).mpr ?_
      have column : (workspace.basisAt k).get =
          (entry workspace.pivots k)⁻¹ • ((workspace.gradientAt model k).get - rest) := by
        rw [split, add_sub_cancel_left, smul_smul, inv_mul_cancel₀ pivot, one_smul]
      rw [column]
      exact Submodule.smul_mem _ _ (Submodule.sub_mem _
        (Submodule.mem_sup_left (Submodule.mem_span_singleton_self _))
        (Submodule.mem_sup_right spanned))
    · refine (Submodule.span_singleton_le_iff_mem ..).mpr ?_
      rw [split]
      exact Submodule.add_mem _ (Submodule.mem_sup_right spanned) (Submodule.smul_mem _ _
        (Submodule.mem_sup_left (Submodule.mem_span_singleton_self _)))

end Factored

/-! ## The order -/

/-- Each constraint that is considered has one position among the first. -/
def Listed (workspace : Workspace α n m) : Prop :=
  Set.BijOn (fun k => (workspace.constraintAt k).val) (Set.Iio workspace.considered)
    (Set.Iio workspace.considered)

theorem listed_begin (workspace : Workspace α n m) (model : LinearModel α n m) :
    (workspace.begin model).Listed := by
  refine (Set.bijOn_id _).congr fun k inside => ?_
  have inside : k < m := inside
  rw [constraintAt_begin workspace model inside]
  rfl

namespace Listed

/-- A revision exchanges positions of constraints that are considered. -/
theorem revise (listed : workspace.Listed) (factored : workspace.Factored model) :
    (workspace.revise model).1.Listed := by
  obtain ⟨σ, fixed, order⟩ := (revise_rearranged factored).order
  have back : ∀ k, workspace.considered ≤ k → σ.symm k = k := fun k beyond => by
    rw [Equiv.symm_apply_eq, fixed k beyond]
  have exchange : Set.BijOn σ (Set.Iio workspace.considered) (Set.Iio workspace.considered) :=
    σ.bijOn' (fun _ inside => lt_of_fixed fixed inside) fun _ inside => lt_of_fixed back inside
  rw [Listed, considered_revise]
  refine (Set.BijOn.comp listed exchange).congr fun k _ => ?_
  exact congrArg Fin.val (order k).symm

/-- The objective takes the position behind the constraints. -/
theorem includeObjective (listed : workspace.Listed) (considered : workspace.considered = m) :
    workspace.includeObjective.Listed := by
  rw [Listed, considered] at listed
  have before : Set.BijOn (fun k => (workspace.includeObjective.constraintAt k).val) (Set.Iio m)
      (Set.Iio m) := by
    refine listed.congr fun k inside => ?_
    have other : k ≠ m := (show k < m from inside).ne
    simp only [constraintAt_includeObjective, if_neg other]
  have last : (workspace.includeObjective.constraintAt m).val = m := by
    rw [constraintAt_includeObjective, if_pos rfl]
    rfl
  have grown := before.insert (a := m) (by simp [last])
  rw [last, ← Order.Iio_succ_eq_insert] at grown
  exact grown

/-- A walk does not touch the order. -/
theorem strode (listed : workspace.Listed) (model : LinearModel α n m) (radius : α) :
    (workspace.strode model radius).Listed := by
  rw [Workspace.strode]
  obtain ⟨candidates, trial, violation, judged⟩ :=
    workspace.judged_frame model (workspace.stride radius)
  rw [judged]
  exact listed

end Listed

end Workspace

/-! ## Turns -/

namespace Stage

open Workspace

variable {model : LinearModel α n m} {stage next : Stage α n m} {radius : α}
  {ended : Workspace α n m} {how : StageEnd}

theorem listed_turn (listed : stage.workspace.Listed) (factored : stage.workspace.Factored model)
    (turned : stage.turn model radius = .another next) : next.workspace.Listed := by
  have goes := stage.goes model radius
  rw [turned] at goes
  cases goes with
  | blocked revision =>
    have revised := listed.revise factored
    rw [revision] at revised
    exact revised.strode model radius

theorem listed_done (listed : stage.workspace.Listed) (factored : stage.workspace.Factored model)
    (turned : stage.turn model radius = .done ended how) : ended.Listed := by
  have goes := stage.goes model radius
  rw [turned] at goes
  cases goes with
  | rests => exact listed
  | revises => exact listed.revise factored
  | free _ revision =>
    have revised := listed.revise factored
    rw [revision] at revised
    exact revised.strode model radius

end Stage

/-! ## Whole steps -/

namespace Workspace

variable {model : LinearModel α n m} {workspace : Workspace α n m} {stage : Stage α n m}
  {radius : α}

theorem Visits.listed (visited : workspace.Visits model radius stage) :
    stage.workspace.Listed := by
  induction visited with
  | violated => exact listed_begin workspace model
  | satisfied => exact (listed_begin workspace model).includeObjective rfl
  | turn visited turned ih => exact Stage.listed_turn ih visited.factored.1 turned
  | @second stage ended how visited turned further ih =>
    have early := Stage.early_of_further turned further
    have eased := Stage.gauging_done (visited.steered.first early) turned
    exact (Stage.listed_done ih visited.factored.1 turned).includeObjective eased.considered

/-- The basis is orthogonal, the order lists what is considered, and the basis and the pivots factor
the gradients of the active constraints. -/
structure Coherent (model : LinearModel α n m) (workspace : Workspace α n m) : Prop where
  /-- The basis is an orthogonal matrix. -/
  orthogonal : workspace.basisMatrix ∈ Matrix.orthogonalGroup (Fin n) α
  /-- The first positions of the order are a permutation. -/
  listed : Set.BijOn (fun k => (workspace.constraintAt k).val) (Set.Iio workspace.considered)
    (Set.Iio workspace.considered)
  few : workspace.active ≤ min n workspace.considered
  pivot : ∀ j < workspace.active, entry workspace.pivots j =
    dot (workspace.basisAt j) (workspace.gradientAt model j)
  pivot_ne_zero : ∀ j < workspace.active, entry workspace.pivots j ≠ 0
  above : ∀ i < workspace.active, ∀ j, i < j → j < n →
    dot (workspace.basisAt j) (workspace.gradientAt model i) = 0
  independent : LinearIndependent α fun i : Fin workspace.active =>
    (workspace.gradientAt model i).get
  /-- The leading columns span the active gradients in order. -/
  span : ∀ k ≤ workspace.active,
    Submodule.span α ((fun i => (workspace.basisAt i).get) '' Set.Iio k) =
      Submodule.span α ((fun i => (workspace.gradientAt model i).get) '' Set.Iio k)

theorem Factored.coherent (factored : workspace.Factored model) (listed : workspace.Listed) :
    workspace.Coherent model where
  orthogonal := basisMatrix_orthogonal factored.ortho
  listed := listed
  few := le_min factored.few factored.room
  pivot _ inside := (factored.diagonal inside).symm
  pivot_ne_zero := factored.pivot_ne_zero
  above _ inside _ behind _ := factored.above inside behind
  independent := factored.independent
  span _ := factored.span_eq

/-- **The factorization is coherent at the head of every turn**, and when the active set has been
revised in it.  A turn divides by the pivots of the active constraints before the revision, to
express a gradient that depends on theirs, and after it, to find the direction and the multipliers;
and none of them is zero. -/
theorem factorization_coherent (visited : workspace.Visits model radius stage) :
    stage.workspace.Coherent model ∧ (stage.workspace.revise model).1.Coherent model := by
  have factored := visited.factored.1
  exact ⟨factored.coherent visited.listed,
    factored.revise.coherent (visited.listed.revise factored)⟩

/-- The search for a step comes to the corner. -/
theorem visits_cornerReached (level : ℝ) :
    (fresh 2 2).Visits (cornerModel level) 13 ⟨cornerReached, 0, 1, 3⟩ := by
  have satisfied : (((fresh 2 2).begin (cornerModel level)).violation == (0 : ℝ)) = true :=
    beq_iff_eq.mpr (congrArg violation (begin_corner level))
  have begins : (fresh 2 2).Visits (cornerModel level) 13 (.first cornerStart) :=
    begin_corner level ▸ .satisfied satisfied
  exact (begins.turn (turn_cornerStart level)).turn (turn_cornerStopped level)

/-- In the corner, with a constraint and the objective active. -/
theorem coherent_on_corner :
    (fresh 2 2).Visits (cornerModel 0) 13 ⟨cornerReached, 0, 1, 3⟩ ∧ cornerReached.active = 2 ∧
      cornerReached.Coherent (cornerModel 0) ∧
      (cornerReached.revise (cornerModel 0)).1.Coherent (cornerModel 0) := by
  have reached := visits_cornerReached 0
  exact ⟨reached, rfl, factorization_coherent reached⟩

end Workspace

end DerivativeFree
