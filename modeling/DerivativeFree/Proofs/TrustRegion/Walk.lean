import DerivativeFree.Proofs.Exact.Rounding
import DerivativeFree.Proofs.Linear.Fold
import DerivativeFree.TrustRegion.Solve

/-!
# Walks in exact arithmetic

The lengths of a walk are found with some care for rounding.  Without rounding they are
what they are meant to be, unless the step is extremely short in one of its entries
(`room_eq`) or along the direction of the walk (`fullLength_eq`).

A turn of the second stage is a revision and a walk to the boundary (`turn_eq_walkTurn`),
which is blocked (`walkTurn_blocked`) or not (`walkTurn_free`).  A revision lets a constraint
enter beside the active ones (`revise_of_free`) unless there are as many of them as variables:
in such a corner every constraint that enters is a dependent one (`revise_of_full`).
-/

namespace DerivativeFree

set_option autoImplicit false

variable {α : Type} [EuclideanField α] {n m : Nat}

namespace Workspace

variable {model : LinearModel α n m} {workspace : Workspace α n m}

/-! ## Lengths -/

/-- The room is what the squares of the entries leave that are not negligible. -/
theorem room_eq_sum (workspace : Workspace α n m) (radius : α) :
    workspace.room radius = radius * radius -
      ∑ i, if 1e-6 * radius ≤ |workspace.step.get i| then
        workspace.step.get i * workspace.step.get i else 0 := by
  have term : ∀ (room : α) (i : Fin n),
      (if 1e-6 * radius ≤ Scalar.abs (workspace.step.get i) then
        room - workspace.step.get i * workspace.step.get i
      else room) = room - if 1e-6 * radius ≤ |workspace.step.get i| then
        workspace.step.get i * workspace.step.get i else 0 := by
    intro room i
    rw [abs_exact]
    split_ifs
    · rfl
    · exact (sub_zero room).symm
  simp only [room, term]
  rw [foldl_sub_eq_sum]

theorem room_eq (workspace : Workspace α n m) {radius : α}
    (far : ∀ i, workspace.step.get i = 0 ∨ 1e-6 * radius ≤ |workspace.step.get i|) :
    workspace.room radius = radius * radius - dot workspace.step workspace.step := by
  rw [room_eq_sum, dot_eq_sum]
  refine congrArg _ (Finset.sum_congr rfl fun i _ => ?_)
  rcases far i with zero | far
  · rw [zero, mul_zero, ite_self]
  · rw [if_pos far]

/-- The walk ends at the positive root of a quadratic equation. -/
theorem fullLength_eq (workspace : Workspace α n m) {room along root : α} (inside : 0 ≤ room)
    (known : dot workspace.step workspace.direction = along) (nonneg : 0 ≤ root)
    (square : root * root = dot workspace.direction workspace.direction * room + along * along)
    (far : along = 0 ∨ 1e-6 * root ≤ |along|) :
    workspace.fullLength room = room / (root + along) := by
  have whole : Scalar.sqrt (dot workspace.direction workspace.direction * room + along * along) =
      root := sqrt_eq_of_mul_self nonneg square
  have product : 0 ≤ dot workspace.direction workspace.direction * room :=
    mul_nonneg (dot_self_nonneg _) inside
  rcases far with zero | far
  · rw [zero, mul_zero, add_zero] at whole
    simp only [fullLength, known, zero, mul_zero, add_zero, whole, ite_self]
  · have part : Scalar.sqrt (dot workspace.direction workspace.direction * room) ≤ root := by
      refine (abs_le_of_sq_le_sq' ?_ nonneg).2
      rw [sq, sq, sqrt_mul_sqrt product, square]
      exact le_add_of_nonneg_right (mul_self_nonneg _)
    have scaled : (1e-6 : α) * Scalar.sqrt (dot workspace.direction workspace.direction * room) ≤
        1e-6 * root := mul_le_mul_of_nonneg_left part (by positivity)
    simp only [fullLength, known, abs_exact, if_pos (scaled.trans far), whole]

/-! ## Rotations of known length -/

variable {gradient : Vector α n} {basis : Vector (Vector α n) n} {component : α}

/-- The last free column is not turned. -/
theorem alignColumn_last {k : Fin n} (known : dot (basis.get k) gradient = component) :
    alignColumn gradient k (basis, 0) = (basis, component) := by
  simp only [alignColumn, roundedDot_exact, known, beq_self_eq_true, if_true]

theorem alignColumn_turn {k : Fin n} {later length : α}
    (known : dot (basis.get k) gradient = component) (further : later ≠ 0)
    (nonneg : 0 ≤ length) (square : length * length = component * component + later * later) :
    alignColumn gradient k (basis, later) =
      ((basis.set k (component / length * basis.get k +
          later / length * basis[k.val + 1]?.getD 0) k.isLt).setIfInBounds (k + 1)
        (component / length * basis[k.val + 1]?.getD 0 - later / length * basis.get k),
        length) := by
  have root : Scalar.sqrt (component * component + later * later) = length :=
    sqrt_eq_of_mul_self nonneg square
  simp [alignColumn, known, further, root, rotate]

/-- The new last pivot is the length of the two entries that are turned into one. -/
theorem exchange_eq {k : Nat} {pivot length : α}
    (known : dot (workspace.basisAt k) (workspace.gradientAt model (k + 1)) = component)
    (last : entry workspace.pivots (k + 1) = pivot) (nonneg : 0 ≤ length)
    (square : length * length = component * component + pivot * pivot) :
    exchange model workspace k = { workspace with
      basis := (workspace.basis.setIfInBounds k (pivot / length * workspace.basisAt (k + 1) +
          component / length * workspace.basisAt k)).setIfInBounds (k + 1)
        (pivot / length * workspace.basisAt k - component / length * workspace.basisAt (k + 1))
      pivots := (workspace.pivots.setIfInBounds (k + 1)
        (pivot / length * entry workspace.pivots k)).setIfInBounds k length
      order := workspace.order.swapIfInBounds k (k + 1)
      multipliers := workspace.multipliers.swapIfInBounds k (k + 1) } := by
  have root : Scalar.sqrt (component * component + pivot * pivot) = length :=
    sqrt_eq_of_mul_self nonneg square
  simp only [exchange, known, last, root, rotate]

/-! ## Entries -/

theorem revise_of_free (inactive : workspace.active ≤ workspace.incoming)
    (known : workspace.gradientAt model workspace.incoming = gradient)
    (aligned : workspace.alignBasis gradient = (basis, component)) (free : component ≠ 0) :
    workspace.revise model =
      ((enterIndependent { workspace with basis, trial := gradient } component).settleEntry model,
        true) := by
  simp [revise, activate, not_lt.mpr inactive, known, aligned, free]

theorem settleEntry_of_constraint (second : workspace.secondStage = true)
    (constraint : workspace.constraintAt workspace.incoming ≠ Fin.last m)
    (among : 2 ≤ workspace.active) :
    workspace.settleEntry model = (exchange model { workspace with
      order := workspace.order.swapIfInBounds workspace.incoming (workspace.active - 1) }
        (workspace.active - 2)).descend := by
  have placed : secondStage { workspace with
      order := workspace.order.swapIfInBounds workspace.incoming (workspace.active - 1) } =
        true := second
  have later : 1 ≤ workspace.active - 1 := by omega
  simp only [settleEntry, placed, if_true]
  rw [if_pos ⟨constraint, later⟩]
  rfl

/-! ## Corners -/

/-- There is no free column that could be turned. -/
theorem alignBasis_of_full {α : Type} [Scalar α] {workspace : Workspace α n m}
    (full : n ≤ workspace.active) (gradient : Vector α n) :
    workspace.alignBasis gradient = (workspace.basis, 0) := by
  have taken : ∀ k : Fin n, ¬ workspace.active ≤ k.val :=
    fun k free => absurd (full.trans free) (not_le.mpr k.isLt)
  simp only [alignBasis, taken, if_false]
  exact foldr_keep _

theorem revise_of_full (full : n ≤ workspace.active)
    (inactive : workspace.active ≤ workspace.incoming) {gradient : Vector α n}
    {dependent : Workspace α n m}
    (known : workspace.gradientAt model workspace.incoming = gradient)
    (entered : enterDependent model { workspace with trial := gradient } gradient =
      (dependent, true)) :
    workspace.revise model = (dependent.settleEntry model, true) := by
  simp only [revise, if_neg (not_lt.mpr inactive), activate, known, alignBasis_of_full full,
    entered, beq_self_eq_true, if_true]

end Workspace

/-! ## Turns -/

namespace Stage

variable {model : LinearModel α n m} {stage watched : Stage α n m}
  {revised judged : Workspace α n m} {radius room full part : α}

/-- Progress is seen when the quantity to be lowered has fallen. -/
theorem watch_of_less (less : stage.target model < stage.least) :
    stage.watch model =
      ⟨stage.workspace, stage.target model, stage.workspace.active, patienceLimit⟩ := by
  simp only [watch, less, or_true, if_true]

/-- An active set that cannot be revised ends the stage. -/
theorem turn_of_stuck (watch : stage.watch model = watched) (patient : watched.patience ≠ 0)
    (stuck : (watched.workspace.revise model).2 = false) :
    stage.turn model radius = .done (watched.workspace.revise model).1 .stalled := by
  have revision : watched.workspace.revise model = ((watched.workspace.revise model).1, false) :=
    Prod.ext rfl stuck
  simp only [turn, watch, patient, if_false]
  rw [revision]

theorem turn_eq_walkTurn (watch : stage.watch model = watched) (patient : watched.patience ≠ 0)
    (revision : watched.workspace.revise model = (revised, true))
    (second : revised.secondStage = true) (left : revised.room radius = room)
    (inside : 0 < room) (length : revised.fullLength room = full) :
    stage.turn model radius = watched.walkTurn model revised full full := by
  simp only [turn, watch, revision, second, left, not_le.mpr inside, length, patient, if_true,
    if_false]

theorem walkTurn_blocked (stage : Stage α n m) {position : Nat}
    (second : revised.secondStage = true)
    (walked : (revised.walk full).withCandidates model = judged)
    (blocked : judged.blocking = (part, some position)) :
    stage.walkTurn model revised full full = .another { stage with
      workspace := { judged.advance part revised.violation with incoming := position } } := by
  have here : (revised.walk full).secondStage = true := second
  simp only [walkTurn, here, if_true, walked, blocked]

theorem walkTurn_free (stage : Stage α n m) (second : revised.secondStage = true)
    (walked : (revised.walk full).withCandidates model = judged)
    (free : judged.blocking = (part, none)) :
    stage.walkTurn model revised full full =
      .done (judged.advance part revised.violation) .boundary := by
  have here : (revised.walk full).secondStage = true := second
  simp only [walkTurn, here, if_true, walked, free, beq_self_eq_true]

theorem run_another {next : Stage α n m} (turned : stage.turn model radius = .another next)
    (fuel : Nat) : stage.run model radius (fuel + 1) = next.run model radius fuel := by
  simp only [run, turned]

theorem run_done {ended : Workspace α n m} {how : StageEnd}
    (turned : stage.turn model radius = .done ended how) (fuel : Nat) :
    stage.run model radius (fuel + 1) = some (ended, how) := by
  simp only [run, turned]

end Stage

end DerivativeFree
