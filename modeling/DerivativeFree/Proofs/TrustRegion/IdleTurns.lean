import DerivativeFree.Proofs.TrustRegion.Fuel
import DerivativeFree.Proofs.TrustRegion.Patience

/-!
# Turns without progress

The turns of a stage are numbered from zero, and `beforeTurn` is the stage before the turn with a
given number, if it gets that far.  A turn is idle if the target is not below its least value so far
(`IdleAt`).  In idle turns the active set may grow and shrink, and it may come back to what it has
been.  But without progress only a new record of the number of active constraints renews the
patience, and there are never more of them than variables.  So within the turns that `remaining`
counts the target falls, or the stage ends (`Patient.falls_or_ends`).

This holds in any arithmetic in which zero is found equal to itself, and also of a target that is
not a number and therefore never falls.  It bounds the idle turns in a row
(`Patient.idle_turns_le`), and it leaves a single way to go on for ever: with a target that falls
again and again (`Patient.exists_descent`).  The values of a machine format, such as those of double
and single precision, do not allow for that (`Reaches.idle_turns_bounded`).
-/

namespace DerivativeFree

set_option autoImplicit false

variable {α : Type} [Scalar α] {n m : Nat} {model : LinearModel α n m} {radius : α}

namespace Stage

variable {stage next : Stage α n m} {j k fuel : Nat}

/-! ## Numbered turns -/

/-- The stage before the turn with the given number, unless it has ended by then. -/
def beforeTurn (model : LinearModel α n m) (radius : α) (stage : Stage α n m) :
    Nat → Option (Stage α n m)
  | 0 => some stage
  | number + 1 =>
    match stage.turn model radius with
    | .another next => next.beforeTurn model radius number
    | .done _ _ => none

theorem beforeTurn_of_another (turned : stage.turn model radius = .another next) (number : Nat) :
    stage.beforeTurn model radius (number + 1) = next.beforeTurn model radius number := by
  rw [beforeTurn, turned]

theorem another_of_beforeTurn (begun : stage.beforeTurn model radius (k + 1) = some next) :
    ∃ second, stage.turn model radius = .another second ∧
      second.beforeTurn model radius k = some next := by
  cases turned : stage.turn model radius with
  | another second => exact ⟨second, rfl, (beforeTurn_of_another turned k).symm.trans begun⟩
  | done ended how =>
    rw [beforeTurn, turned] at begun
    cases begun

/-- The later turns of a stage are the turns of what it has become. -/
theorem beforeTurn_add (begun : stage.beforeTurn model radius j = some next) (k : Nat) :
    stage.beforeTurn model radius (j + k) = next.beforeTurn model radius k := by
  induction j generalizing stage with
  | zero =>
    obtain rfl := Option.some.inj begun
    rw [Nat.zero_add]
  | succ j ih =>
    obtain ⟨second, turned, later⟩ := another_of_beforeTurn begun
    rw [Nat.succ_add, beforeTurn_of_another turned]
    exact ih later

/-- After some turns a stage has no result yet if and only if it gets to the next one. -/
theorem run_eq_none_iff :
    stage.run model radius fuel = none ↔ (stage.beforeTurn model radius fuel).isSome = true := by
  induction fuel generalizing stage with
  | zero => simp [run, beforeTurn]
  | succ fuel ih =>
    rw [run, beforeTurn]
    cases stage.turn model radius with
    | another next => exact ih
    | done ended how => simp

theorem isSome_beforeTurn_of_le (begun : (stage.beforeTurn model radius k).isSome = true)
    (le : j ≤ k) : (stage.beforeTurn model radius j).isSome = true := by
  rw [← run_eq_none_iff] at begun ⊢
  by_contra ended
  obtain ⟨result, ran⟩ := Option.ne_none_iff_exists'.mp ended
  rw [run_mono ran le] at begun
  cases begun

/-- Unless the stage has ended before the turn with the given number, its target is not below the
least value so far. -/
def IdleAt (model : LinearModel α n m) (radius : α) (stage : Stage α n m) (number : Nat) : Prop :=
  ∀ before ∈ stage.beforeTurn model radius number, ¬ before.target model < before.least

instance IdleAt.decidable (number : Nat) : Decidable (stage.IdleAt model radius number) :=
  inferInstanceAs (Decidable (∀ before ∈ stage.beforeTurn model radius number,
    ¬ before.target model < before.least))

/-! ## Idle turns in a row -/

namespace Patient

/-- Every turn but the first one of a stage begins with patience. -/
theorem beforeTurn_succ (zero : ((0 : α) == 0) = true) (patient : stage.Patient)
    (begun : stage.beforeTurn model radius (k + 1) = some next) :
    next.Patient ∧ next.patience ≠ 0 := by
  induction k generalizing stage with
  | zero =>
    obtain ⟨second, turned, later⟩ := another_of_beforeTurn begun
    obtain rfl := Option.some.inj later
    obtain ⟨left, workspace, rfl⟩ := turn_another_watch turned
    exact ⟨patient.turn zero turned, left⟩
  | succ k ih =>
    obtain ⟨second, turned, later⟩ := another_of_beforeTurn begun
    exact ih (patient.turn zero turned) later

/-- **Within the turns that remain the target falls below what has been its least value, or the
stage ends.**  The induction is on a bound of these turns; an idle turn uses up one of them. -/
theorem falls_or_ends (zero : ((0 : α) == 0) = true) (model : LinearModel α n m) (radius : α)
    (patient : stage.Patient) (left : stage.patience ≠ 0) (enough : stage.remaining ≤ fuel) :
    (∃ k < fuel, ∃ later, stage.beforeTurn model radius k = some later ∧
      later.target model < later.least ∧ later.least = stage.least) ∨
    ∃ result, stage.run model radius fuel = some result := by
  induction fuel generalizing stage with
  | zero =>
    have positive : 0 < stage.remaining := Nat.add_pos_right _ (Nat.pos_of_ne_zero left)
    omega
  | succ fuel ih =>
    rcases watch_progress model patient.inBounds.few left with ⟨falls, -⟩ | ⟨least, fewer⟩
    · exact .inl ⟨0, Nat.succ_pos fuel, stage, rfl, falls, rfl⟩
    · cases turned : stage.turn model radius with
      | done ended how =>
        refine .inr ⟨(ended, how), ?_⟩
        rw [run, turned]
      | another second =>
        have further := patient.turn zero turned
        obtain ⟨still, workspace, rfl⟩ := turn_another_watch turned
        have less : (stage.watch model).remaining ≤ fuel := by omega
        rcases ih further still less with ⟨k, within, later, begun, falls, same⟩ | ⟨result, ran⟩
        · rw [← beforeTurn_of_another turned] at begun
          exact .inl ⟨k + 1, Nat.succ_lt_succ within, later, begun, falls, same.trans least⟩
        · refine .inr ⟨result, ?_⟩
          rw [run, turned]
          exact ran

/-- If more turns follow than may be idle in a row, then one of those that may makes progress, and
until then the least value stays what it has been before the first of them. -/
theorem falls_within (zero : ((0 : α) == 0) = true) (patient : stage.Patient) {last : Nat}
    (begun : stage.beforeTurn model radius (last + 1) = some next)
    (still : (stage.beforeTurn model radius (last + 1 + 3 * (n + 1))).isSome = true) :
    ∃ k later, last < k ∧ k ≤ last + 3 * (n + 1) ∧ stage.beforeTurn model radius k = some later ∧
      later.target model < later.least ∧ later.least = next.least := by
  obtain ⟨further, left⟩ := patient.beforeTurn_succ zero begun
  rcases further.falls_or_ends zero model radius left further.bounded with
    ⟨i, within, later, fallen, falls, same⟩ | ⟨result, ran⟩
  · have within : i < 3 * (n + 1) := within
    rw [← beforeTurn_add begun] at fallen
    exact ⟨last + 1 + i, later, by omega, by omega, fallen, falls, same⟩
  · rw [beforeTurn_add begun, ← run_eq_none_iff] at still
    exact absurd (ran.symm.trans still) (Option.some_ne_none result)

/-- **No more than `3 * (n + 1)` turns in a row are idle**, whichever turn they follow. -/
theorem idle_turns_le (zero : ((0 : α) == 0) = true) (patient : stage.Patient) {last : Nat}
    (begun : (stage.beforeTurn model radius k).isSome = true)
    (idle : ∀ j, last < j → j ≤ k → stage.IdleAt model radius j) :
    k ≤ last + 3 * (n + 1) := by
  by_contra more
  obtain ⟨next, first⟩ :=
    Option.isSome_iff_exists.mp (isSome_beforeTurn_of_le begun (show last + 1 ≤ k by omega))
  have still := isSome_beforeTurn_of_le begun (show last + 1 + 3 * (n + 1) ≤ k by omega)
  obtain ⟨j, later, after, near, fallen, falls, -⟩ := patient.falls_within zero first still
  exact idle j after (by omega) later fallen falls

/-- If no later turn makes progress, then the stage ends. -/
theorem run_returns_of_idle (zero : ((0 : α) == 0) = true) (patient : stage.Patient) {last : Nat}
    (idle : ∀ j, last < j → stage.IdleAt model radius j) :
    ∃ result, stage.run model radius (last + 3 * (n + 1) + 1) = some result := by
  refine Option.ne_none_iff_exists'.mp fun endless => ?_
  have most := patient.idle_turns_le zero (run_eq_none_iff.mp endless) fun j after _ => idle j after
  omega

end Patient

/-! ## Stages without an end -/

/-- The next turn takes the target for the least value: it is the first one of the stage, or the
target has fallen. -/
def Renews (model : LinearModel α n m) (stage : Stage α n m) : Prop :=
  stage.patience = 0 ∨ stage.target model < stage.least

theorem least_watch_of_renews (renews : stage.Renews model) :
    (stage.watch model).least = stage.target model := by
  unfold watch
  exact congrArg least (if_pos renews)

/-- In a stage that never ends the target falls below the value that the next turn takes. -/
theorem Patient.falls_again (zero : ((0 : α) == 0) = true) (patient : stage.Patient)
    (renews : stage.Renews model) (endless : ∀ fuel, stage.run model radius fuel = none) :
    ∃ k later, 0 < k ∧ k ≤ 3 * (n + 1) ∧ stage.beforeTurn model radius k = some later ∧
      later.Patient ∧ later.Renews model ∧ later.target model < stage.target model := by
  have begun : ∀ k, (stage.beforeTurn model radius k).isSome = true :=
    fun k => run_eq_none_iff.mp (endless k)
  obtain ⟨second, first⟩ := Option.isSome_iff_exists.mp (begun (0 + 1))
  obtain ⟨k, later, positive, near, fallen, falls, least⟩ :=
    patient.falls_within zero first (begun _)
  obtain ⟨j, rfl⟩ := Nat.exists_eq_add_one_of_ne_zero positive.ne'
  obtain ⟨third, turned, same⟩ := another_of_beforeTurn first
  obtain rfl := Option.some.inj same
  obtain ⟨-, workspace, rfl⟩ := turn_another_watch turned
  have start : later.least = stage.target model := least.trans (least_watch_of_renews renews)
  rw [Nat.zero_add] at near
  exact ⟨j + 1, later, positive, near, fallen, (patient.beforeTurn_succ zero fallen).1, .inr falls,
    start ▸ falls⟩

/-- A turn of a stage that takes the target for the least value. -/
structure Renewal (model : LinearModel α n m) (radius : α) (stage : Stage α n m) where
  /-- The number of the turn. -/
  number : Nat
  /-- The stage before the turn. -/
  before : Stage α n m
  begun : stage.beforeTurn model radius number = some before
  patient : before.Patient
  renews : before.Renews model

theorem Renewal.exists_later (zero : ((0 : α) == 0) = true)
    (endless : ∀ fuel, stage.run model radius fuel = none)
    (renewal : stage.Renewal model radius) :
    ∃ later : stage.Renewal model radius, renewal.number < later.number ∧
      later.number ≤ renewal.number + 3 * (n + 1) ∧
      later.before.target model < renewal.before.target model := by
  have onwards : ∀ fuel, renewal.before.run model radius fuel = none := by
    intro fuel
    rw [run_eq_none_iff, ← beforeTurn_add renewal.begun, ← run_eq_none_iff]
    exact endless _
  obtain ⟨k, later, positive, near, begun, patient, renews, falls⟩ :=
    renewal.patient.falls_again zero renewal.renews onwards
  rw [← beforeTurn_add renewal.begun] at begun
  exact ⟨⟨renewal.number + k, later, begun, patient, renews⟩, Nat.lt_add_of_pos_right positive,
    Nat.add_le_add_left near _, falls⟩

/-- **A stage that never ends has a target that falls for ever.** -/
theorem Patient.exists_descent (zero : ((0 : α) == 0) = true) (patient : stage.Patient)
    (first : stage.patience = 0) (endless : ∀ fuel, stage.run model radius fuel = none) :
    ∃ (turns : Nat → Nat) (stages : Nat → Stage α n m), turns 0 = 0 ∧ ∀ i,
      turns i < turns (i + 1) ∧ turns (i + 1) ≤ turns i + 3 * (n + 1) ∧
      stage.beforeTurn model radius (turns i) = some (stages i) ∧
      (stages (i + 1)).target model < (stages i).target model := by
  choose later after near falls using Renewal.exists_later zero endless
  let renewals : Nat → stage.Renewal model radius :=
    fun i => later^[i] ⟨0, stage, rfl, patient, .inl first⟩
  refine ⟨fun i => (renewals i).number, fun i => (renewals i).before, rfl, fun i => ?_⟩
  have next : renewals (i + 1) = later (renewals i) := Function.iterate_succ_apply' ..
  dsimp only
  rw [next]
  exact ⟨after _, near _, (renewals i).begun, falls _⟩

end Stage

/-! ## The stages of a step -/

namespace Workspace

variable {workspace begun : Workspace α n m}

/-- **A stage does not cycle.**  Whatever turn the idle ones follow, at most `3 * (n + 1)` of them
are begun, and then the stage has ended.  A stage without an end would have infinitely many turns,
no further apart than this, with ever smaller targets, and in a machine format there are none. -/
theorem Reaches.idle_turns_bounded (zero : ((0 : α) == 0) = true)
    (reached : workspace.Reaches model radius (.first begun)) :
    (∀ last k, ((Stage.first begun).beforeTurn model radius k).isSome = true →
      (∀ j, last < j → j ≤ k → (Stage.first begun).IdleAt model radius j) →
      k ≤ last + 3 * (n + 1)) ∧
    (∀ last, (∀ j, last < j → (Stage.first begun).IdleAt model radius j) →
      ∃ result, (Stage.first begun).run model radius (last + 3 * (n + 1) + 1) = some result) ∧
    ((∀ fuel, (Stage.first begun).run model radius fuel = none) →
      ∃ (turns : Nat → Nat) (stages : Nat → Stage α n m), turns 0 = 0 ∧ ∀ i,
        turns i < turns (i + 1) ∧ turns (i + 1) ≤ turns i + 3 * (n + 1) ∧
        (Stage.first begun).beforeTurn model radius (turns i) = some (stages i) ∧
        (stages (i + 1)).target model < (stages i).target model) ∧
    ∀ [MachineFormat α], (∀ values : Nat → α, ∃ i, ¬ values (i + 1) < values i) ∧
      ∃ fuel result, (Stage.first begun).run model radius fuel = some result := by
  have patient := reached.patient zero
  refine ⟨fun last k started idle => patient.idle_turns_le zero started idle,
    fun last idle => patient.run_returns_of_idle zero idle,
    fun endless => patient.exists_descent zero rfl endless, ?_⟩
  intro format
  refine ⟨exists_not_lt_succ, ?_⟩
  by_contra unending
  have endless : ∀ fuel, (Stage.first begun).run model radius fuel = none := by
    intro fuel
    by_contra ended
    exact unending ⟨fuel, Option.ne_none_iff_exists'.mp ended⟩
  obtain ⟨turns, stages, -, falls⟩ := patient.exists_descent zero rfl endless
  obtain ⟨i, higher⟩ := exists_not_lt_succ fun i => (stages i).target model
  exact higher (falls i).2.2.2

/-- The objective `3 x + 4 y` is to fall where `4 x + 3 y ≥ 0` and `x ≥ 0`. -/
def revolvingModel : LinearModel Float 2 2 where
  gradients := #v[#v[4, 3], #v[1, 0], #v[-3, -4]]
  bounds := #v[0, 0, 0]

/-- The second stage at the origin, where both constraints have no residual. -/
def revolvingStart : Workspace Float 2 2 :=
  ((fresh 2 2).begin revolvingModel).includeObjective

/-- The second stage stays at the origin.  Constraints enter and leave there in five idle turns,
and with the last of them the patience is at its end. -/
theorem idle_turns_in_double_precision :
    ((0 : Float) == 0) = true ∧
      (fresh 2 2).Reaches revolvingModel 1 (.first revolvingStart) ∧
      ((Stage.first revolvingStart).beforeTurn revolvingModel 1 5).isSome = true ∧
      (∀ j, 0 < j → (Stage.first revolvingStart).IdleAt revolvingModel 1 j) ∧
      5 ≤ 0 + 3 * (2 + 1) ∧
      (∃ result, (Stage.first revolvingStart).run revolvingModel 1 (0 + 3 * (2 + 1) + 1) =
        some result) ∧
      ∀ values : Nat → Float, ∃ i, ¬ values (i + 1) < values i := by
  have zero : ((0 : Float) == 0) = true := by decide +kernel
  have satisfied : (((fresh 2 2).begin revolvingModel).violation == 0) = true := by decide +kernel
  have reached : (fresh 2 2).Reaches revolvingModel 1 (.first revolvingStart) := by
    have opening : (fresh 2 2).opening revolvingModel = .first revolvingStart := if_pos satisfied
    exact opening ▸ .refl
  obtain ⟨started, ended, early⟩ :
      ((Stage.first revolvingStart).beforeTurn revolvingModel 1 5).isSome = true ∧
        ((Stage.first revolvingStart).beforeTurn revolvingModel 1 6).isSome = false ∧
        ∀ j < 6, 0 < j → (Stage.first revolvingStart).IdleAt revolvingModel 1 j := by
    decide +kernel
  have idle : ∀ j, 0 < j → (Stage.first revolvingStart).IdleAt revolvingModel 1 j := by
    intro j positive
    rcases Nat.lt_or_ge j 6 with within | beyond
    · exact early j within positive
    · intro before known
      have begun := Stage.isSome_beforeTurn_of_le (Option.isSome_of_mem known) beyond
      exact absurd begun (Bool.eq_false_iff.mp ended)
  obtain ⟨most, ends, -, finite⟩ := reached.idle_turns_bounded zero
  exact ⟨zero, reached, started, idle, most 0 5 started fun j positive _ => idle j positive,
    ends 0 idle, finite.1⟩

end Workspace

end DerivativeFree
