import DerivativeFree.Proofs.TrustRegion.Stages
import DerivativeFree.Proofs.Machine.Order

/-!
# The patience of a stage

A stage watches its progress.  Without any it has so many turns `remaining` that the patience and
the free places in the active set leave it, and each turn uses one of them up.  If there is progress
then its target has fallen, and in a machine format that can happen only so often.  Taken together
a turn always lowers the `allowance` of a stage (`allowance_watch_lt`), and every stage that comes
up in the search for a step ends (`Reaches.run_returns`).

The search itself does not always end.  A second stage that ends inside the trust region is run
again, and nothing counts how often.  It does so only after a walk whose length is not a number
(`turn_ne_inside`), because every other length is found equal to itself.  Without such a walk the
second stage is run once, and the search returns (`solve_returns`).  But the square of a finite
radius may be infinite, and then a second stage can follow the other for ever
(`solve_diverges_in_double_precision`).
-/

namespace DerivativeFree

set_option autoImplicit false

variable {α : Type} [Scalar α] {n m : Nat} {model : LinearModel α n m} {radius : α}

namespace Stage

variable {stage next : Stage α n m}

/-! ## Turns without progress -/

/-- The number of turns that may follow without progress, even if the number of active constraints
rises in between. -/
def remaining (stage : Stage α n m) : Nat :=
  patienceLimit * (n - stage.activeRecord) + stage.patience

/-- A stage that goes on has kept what it has watched, and has had patience left. -/
theorem turn_another_watch (turned : stage.turn model radius = .another next) :
    (stage.watch model).patience ≠ 0 ∧
      ∃ workspace, next = { stage.watch model with workspace } := by
  have patient : (stage.watch model).patience ≠ 0 := by
    intro none
    rw [turn, if_pos none] at turned
    cases turned
  obtain ⟨revised, length, full, -, walked⟩ := turn_another turned
  refine ⟨patient, ?_⟩
  rw [walkTurn_judged] at walked
  split at walked
  case h_1 => exact ⟨_, (Turn.another.inj walked).symm⟩
  case h_2 => cases walked

/-- At the start of a turn either the target has fallen below its least value, and the patience is
as great as it can be, or one of the turns without progress is used up. -/
theorem watch_progress (model : LinearModel α n m) (few : stage.workspace.active ≤ n)
    (patient : stage.patience ≠ 0) :
    (stage.target model < stage.least ∧ (stage.watch model).least = stage.target model) ∨
      ((stage.watch model).least = stage.least ∧
        (stage.watch model).remaining < stage.remaining) := by
  unfold watch
  split
  case isTrue progress => exact .inl ⟨progress.resolve_left patient, rfl⟩
  case isFalse =>
    refine .inr ⟨?_, ?_⟩
    · split <;> rfl
    · simp only [remaining]
      split
      case isTrue more =>
        simp only [patienceLimit]
        omega
      case isFalse =>
        have less : stage.patience - 1 < stage.patience := Nat.sub_lt (by omega) Nat.one_pos
        exact Nat.add_lt_add_left less _

/-- There are never more turns without progress than this. -/
theorem remaining_watch_le (model : LinearModel α n m) (few : stage.workspace.active ≤ n)
    (bounded : stage.remaining ≤ patienceLimit * (n + 1)) :
    (stage.watch model).remaining ≤ patienceLimit * (n + 1) := by
  simp only [remaining, patienceLimit, watch] at bounded ⊢
  split
  case isTrue =>
    dsimp only
    omega
  case isFalse =>
    split
    · dsimp only
      omega
    · dsimp only
      omega

/-- What is needed of a stage to see that it ends. -/
structure Patient (stage : Stage α n m) : Prop where
  inBounds : stage.workspace.InBounds
  bounded : stage.remaining ≤ patienceLimit * (n + 1)

namespace Patient

theorem first {workspace : Workspace α n m} (inBounds : workspace.InBounds) :
    (Stage.first workspace).Patient where
  inBounds := inBounds
  bounded := Nat.mul_le_mul_left _ (Nat.le_succ_of_le (Nat.sub_le n 0))

theorem turn (zero : ((0 : α) == 0) = true) (patient : stage.Patient)
    (turned : stage.turn model radius = .another next) : next.Patient := by
  have inBounds := inBounds_turn zero model radius patient.inBounds
  rw [turned] at inBounds
  obtain ⟨-, workspace, rfl⟩ := turn_another_watch turned
  exact ⟨inBounds, remaining_watch_le model patient.inBounds.few patient.bounded⟩

end Patient

/-! ## Turns of a stage -/

/-- The number of turns that may follow, counted from above: each fall of the target allows for all
turns without progress once more. -/
noncomputable def allowance (stage : Stage α n m) : Nat :=
  rank stage.least * (patienceLimit * (n + 1)) + stage.remaining

variable [MachineFormat α]

/-- **The start of a turn lowers the allowance.** -/
theorem allowance_watch_lt (model : LinearModel α n m) (few : stage.workspace.active ≤ n)
    (patient : stage.patience ≠ 0) (bounded : stage.remaining ≤ patienceLimit * (n + 1)) :
    (stage.watch model).allowance < stage.allowance := by
  have most := remaining_watch_le model few bounded
  have left : 0 < stage.remaining := Nat.add_pos_right _ (Nat.pos_of_ne_zero patient)
  rw [allowance, allowance]
  rcases watch_progress model few patient with ⟨less, least⟩ | ⟨least, fewer⟩
  · have fallen := rank_lt_rank less
    rw [least]
    calc rank (stage.target model) * (patienceLimit * (n + 1)) + (stage.watch model).remaining
        ≤ rank (stage.target model) * (patienceLimit * (n + 1)) + patienceLimit * (n + 1) :=
          Nat.add_le_add_left most _
      _ = (rank (stage.target model) + 1) * (patienceLimit * (n + 1)) := (Nat.succ_mul _ _).symm
      _ ≤ rank stage.least * (patienceLimit * (n + 1)) := Nat.mul_le_mul_right _ fallen
      _ < rank stage.least * (patienceLimit * (n + 1)) + stage.remaining :=
          Nat.lt_add_of_pos_right left
  · rw [least]
    exact Nat.add_lt_add_left fewer _

theorem allowance_lt_ampleFuel (bounded : stage.remaining ≤ patienceLimit * (n + 1)) :
    stage.allowance < ampleFuel n := by
  have below := rank_lt_size stage.least
  calc stage.allowance
      ≤ rank stage.least * (patienceLimit * (n + 1)) + patienceLimit * (n + 1) :=
        Nat.add_le_add_left bounded _
    _ = (rank stage.least + 1) * (patienceLimit * (n + 1)) := (Nat.succ_mul _ _).symm
    _ ≤ UInt64.size * (patienceLimit * (n + 1)) := Nat.mul_le_mul_right _ below
    _ = patienceLimit * (n + 1) * UInt64.size := Nat.mul_comm _ _
    _ < patienceLimit * (n + 2) * UInt64.size :=
        Nat.mul_lt_mul_of_pos_right
          (Nat.mul_lt_mul_of_pos_left (Nat.lt_succ_self _) (by decide)) (by decide)

/-- A stage ends after as many turns as it has been allowed at the start of the first of them. -/
theorem Patient.run_returns (patient : stage.Patient) {fuel : Nat}
    (enough : (stage.watch model).allowance < fuel) :
    ∃ result, stage.run model radius fuel = some result := by
  induction fuel generalizing stage with
  | zero => exact absurd enough (Nat.not_lt_zero _)
  | succ fuel ih =>
    rw [run]
    cases turned : stage.turn model radius with
    | done ended how => exact ⟨_, rfl⟩
    | another next =>
      have further := patient.turn MachineFormat.zero turned
      obtain ⟨left, workspace, rfl⟩ := turn_another_watch turned
      have lower := allowance_watch_lt model further.inBounds.few left further.bounded
      exact ih further (lower.trans_le (Nat.le_of_lt_succ enough))

end Stage

/-! ## The end of a stage -/

namespace Workspace

variable {workspace : Workspace α n m} {stage : Stage α n m}

theorem Reaches.patient (zero : ((0 : α) == 0) = true)
    (reached : workspace.Reaches model radius stage) : stage.Patient := by
  induction reached with
  | refl =>
    have inBounds := inBounds_opening zero model workspace
    obtain ⟨begun, known⟩ := opening_eq_first model workspace
    rw [known] at inBounds ⊢
    exact .first inBounds
  | tail _ leads ih =>
    have inBounds := leads.inBounds zero ih.inBounds
    cases leads with
    | turn turned => exact ih.turn zero turned
    | second => exact .first inBounds

/-- **Every stage that comes up in a machine format ends.** -/
theorem Reaches.run_returns [MachineFormat α] (reached : workspace.Reaches model radius stage) :
    ∃ result, stage.run model radius (ampleFuel n) = some result := by
  have patient := reached.patient MachineFormat.zero
  exact patient.run_returns (Stage.allowance_lt_ampleFuel
    (Stage.remaining_watch_le model patient.inBounds.few patient.bounded))

end Workspace

namespace Stage

variable {stage : Stage α n m}

/-- If the next turn walks in the second stage, then the length of the walk is a number. -/
def Measured (model : LinearModel α n m) (radius : α) (stage : Stage α n m) : Prop :=
  (stage.workspace.revise model).2 = true →
    ¬ IsNan ((stage.workspace.revise model).1.fullLength
      ((stage.workspace.revise model).1.room radius))

/-- **The second stage does not end inside the trust region** if the length of its walk is a
number. -/
theorem turn_ne_inside (second : stage.workspace.secondStage = true)
    (measured : stage.Measured model radius) (ended : Workspace α n m) :
    stage.turn model radius ≠ .done ended .inside := by
  intro turned
  obtain ⟨revised, done, revision⟩ : ∃ revised done,
      stage.workspace.revise model = (revised, done) := ⟨_, _, rfl⟩
  have late := (Workspace.secondStage_revise revision).trans second
  simp only [turn, workspace_watch, revision] at turned
  split at turned
  case isTrue => cases turned
  case isFalse =>
    cases done with
    | false => cases turned
    | true =>
      simp only [Measured, revision] at measured
      simp only [late, if_true] at turned
      split at turned
      case isTrue => cases turned
      case isFalse =>
        rw [walkTurn_judged] at turned
        split at turned
        case h_1 => cases turned
        case h_2 =>
          rw [if_pos (Bool.of_not_eq_false (measured trivial))] at turned
          cases turned

end Stage

/-! ## The end of the search -/

namespace Workspace

variable {workspace : Workspace α n m} {stage : Stage α n m}

/-- The second stage is run once if it does not end inside the trust region. -/
theorem runSecondStage_once {begun ended : Workspace α n m} {how : StageEnd} {fuel : Nat}
    (ran : (Stage.first begun.includeObjective).run model radius fuel = some (ended, how))
    (last : how ≠ .inside) (rounds : Nat) :
    ∃ result, begun.runSecondStage model radius fuel (rounds + 1) = some result := by
  rw [runSecondStage, ran]
  cases how with
  | inside => exact absurd rfl last
  | boundary | stalled => exact ⟨_, rfl⟩

theorem ampleFuel_pos (n : Nat) : 0 < ampleFuel n :=
  Nat.mul_pos (Nat.mul_pos (by decide) (Nat.succ_pos _)) (by decide)

section MachineFormat

variable [MachineFormat α]

/-- **The search for a step in a machine format.**  Every stage that comes up ends.  If the lengths
of all walks of the second stage are numbers, then it never ends inside the trust region, so that it
is run once at most, and the search returns. -/
theorem solve_returns (model : LinearModel α n m) (radius : α) (workspace : Workspace α n m) :
    (∀ stage, workspace.Reaches model radius stage →
      ∃ result, stage.run model radius (ampleFuel n) = some result) ∧
    ((∀ stage, workspace.Reaches model radius stage → stage.workspace.secondStage = true →
        stage.Measured model radius) →
      (∀ stage, workspace.Reaches model radius stage → stage.workspace.secondStage = true →
        ∀ ended, stage.turn model radius ≠ .done ended .inside) ∧
      ∃ result, workspace.solve model radius (ampleFuel n) = some result) := by
  refine ⟨fun stage reached => reached.run_returns, fun measured => ?_⟩
  have outside : ∀ stage, workspace.Reaches model radius stage →
      stage.workspace.secondStage = true → ∀ ended, stage.turn model radius ≠ .done ended .inside :=
    fun stage reached second => Stage.turn_ne_inside second (measured stage reached second)
  refine ⟨outside, ?_⟩
  obtain ⟨rounds, ample⟩ : ∃ rounds, ampleFuel n = rounds + 1 :=
    Nat.exists_eq_succ_of_ne_zero (ampleFuel_pos n).ne'
  -- A second stage that comes up is the last one.
  have last : ∀ begun : Workspace α n m,
      workspace.Reaches model radius (.first begun.includeObjective) →
        ∃ result, begun.runSecondStage model radius (ampleFuel n) (ampleFuel n) = some result := by
    intro begun reached
    obtain ⟨⟨ended, how⟩, ran⟩ := reached.run_returns
    obtain ⟨final, further, second, turned⟩ := reached.run ran
    have late := second.trans begun.secondStage_includeObjective
    obtain ⟨result, once⟩ := runSecondStage_once ran
      (fun inside => outside final further late ended (inside ▸ turned)) rounds
    exact ⟨result, ample.symm ▸ once⟩
  have reached : workspace.Reaches model radius (workspace.opening model) := .refl
  rw [solve]
  unfold opening at reached
  split
  case isTrue satisfied =>
    rw [if_pos satisfied] at reached
    exact last _ reached
  case isFalse violated =>
    rw [if_neg violated] at reached
    obtain ⟨⟨ended, how⟩, ran⟩ := reached.run_returns
    obtain ⟨final, further, second, turned⟩ := reached.run ran
    rw [ran]
    have early : final.workspace.secondStage = false :=
      second.trans (by simp [Stage.first, begin, secondStage])
    cases how with
    | boundary => exact ⟨_, rfl⟩
    | inside => exact last ended (further.tail (.second turned (.inl rfl)))
    | stalled => exact last ended (further.tail (.second turned (.inr ⟨rfl, early⟩)))

end MachineFormat

/-! ## In double precision -/

/-- How the stage ends, if it does. -/
def endOf : Turn α n m → Option StageEnd
  | .another _ => none
  | .done _ how => some how

/-- No other stage comes up if the first turn ends on the boundary. -/
theorem reaches_opening (boundary : endOf ((workspace.opening model).turn model radius) =
    some .boundary) (reached : workspace.Reaches model radius stage) :
    stage = workspace.opening model := by
  rcases reached.cases_head with rfl | ⟨next, leads, -⟩
  · rfl
  · cases leads with
    | turn turned =>
      rw [turned] at boundary
      cases boundary
    | second turned further =>
      rw [turned] at boundary
      obtain rfl := Option.some.inj boundary
      rcases further with inside | ⟨stalled, -⟩
      · cases inside
      · cases stalled

/-- An objective of slope one on the line. -/
def slopeModel : LinearModel Float 1 0 where
  gradients := .ofFn fun _ => .ofFn fun _ => -1
  bounds := 0

theorem solve_returns_in_double_precision :
    ∃ result, (fresh 1 0).solve slopeModel 0.5 (ampleFuel 1) = some result := by
  have boundary : endOf (((fresh 1 0).opening slopeModel).turn slopeModel 0.5) =
      some .boundary := by decide +kernel
  have measured : ¬ IsNan
      ((((fresh 1 0).opening slopeModel).workspace.revise slopeModel).1.fullLength
        ((((fresh 1 0).opening slopeModel).workspace.revise slopeModel).1.room 0.5)) := by
    decide +kernel
  refine ((solve_returns slopeModel 0.5 (fresh 1 0)).2 fun stage reached _ => ?_).2
  rw [reaches_opening boundary reached]
  exact fun _ => measured

deriving instance DecidableEq for Workspace, Stage, Turn

/-- The first coordinate is to be at least one, and the objective falls with the second one. -/
def edgeModel : LinearModel Float 2 1 where
  gradients := diagonal 2 1
  bounds := .ofFn fun k => if k.val = 0 then 1 else 0

/-- A finite radius with an infinite square. -/
def wideRadius : Float :=
  1e200

/-- The gradient of the constraint. -/
def edgeAxis : Vector Float 2 :=
  .ofFn fun i => if i.val = 0 then 1 else 0

/-- The first stage has ended at the constraint. -/
def edgeReached : Workspace Float 2 1 :=
  { fresh 2 1 with
    basis := diagonal 2 1
    pivots := edgeAxis
    multipliers := edgeAxis
    candidates := edgeAxis
    direction := edgeAxis
    trial := edgeAxis
    step := edgeAxis
    active := 1 }

/-- The objective has entered, and the step is not a number any more. -/
def edgePassed : Workspace Float 2 1 where
  basis := diagonal 2 1
  pivots := .ofFn fun _ => 1
  multipliers := 0
  candidates := 0
  direction := .ofFn fun i => if i.val = 0 then 0 else 1
  trial := .ofFn fun _ => 0 / 0
  step := .ofFn fun _ => 0 / 0
  order := .ofFn id
  active := 2
  considered := 2
  incoming := 1
  violation := 0

/-- The objective has left again. -/
def edgeLost : Workspace Float 2 1 :=
  { edgePassed with
    direction := edgeAxis
    active := 1 }

theorem turn_edgeReached : (Stage.first edgeReached.includeObjective).turn edgeModel wideRadius =
    .done edgePassed .inside := by
  decide +kernel

theorem turn_edgePassed : (Stage.first edgePassed.includeObjective).turn edgeModel wideRadius =
    .done edgeLost .inside := by
  decide +kernel

theorem turn_edgeLost : (Stage.first edgeLost.includeObjective).turn edgeModel wideRadius =
    .done edgePassed .inside := by
  decide +kernel

/-- One second stage follows the other, and the objective enters and leaves in turn. -/
theorem runSecondStage_edge (fuel rounds : Nat) :
    edgePassed.runSecondStage edgeModel wideRadius fuel rounds = none ∧
      edgeLost.runSecondStage edgeModel wideRadius fuel rounds = none := by
  induction rounds with
  | zero => exact ⟨rfl, rfl⟩
  | succ rounds ih =>
    cases fuel with
    | zero => exact ⟨rfl, rfl⟩
    | succ fuel =>
      simp only [runSecondStage, Stage.run, turn_edgePassed, turn_edgeLost]
      exact ih.symm

/-- **The search for a step need not end**, although the model and the radius are finite. -/
theorem solve_diverges_in_double_precision :
    (∀ k i, ((edgeModel.gradients.get k).get i).isFinite = true) ∧
      (∀ k, (edgeModel.bounds.get k).isFinite = true) ∧
      0 < wideRadius ∧ wideRadius.isFinite = true ∧
      (∀ fuel, (fresh 2 1).solve edgeModel wideRadius fuel = none) := by
  have violated : ¬ (((fresh 2 1).begin edgeModel).violation == 0) = true := by decide +kernel
  have first : (Stage.first ((fresh 2 1).begin edgeModel)).turn edgeModel wideRadius =
      .done edgeReached .inside := by decide +kernel
  refine ⟨by decide +kernel, by decide +kernel, by decide +kernel, by decide +kernel,
    fun fuel => ?_⟩
  rw [solve, if_neg violated]
  cases fuel with
  | zero => rfl
  | succ fuel =>
    simp only [Stage.run, first, runSecondStage, turn_edgeReached]
    exact (runSecondStage_edge (fuel + 1) fuel).1

end Workspace

end DerivativeFree
