import DerivativeFree.Proofs.Exact.Rounding
import DerivativeFree.Proofs.Linear.Fold
import DerivativeFree.TrustRegion.Solve

/-!
# The level of the objective

A model keeps the negated values in the pole as its bounds, that of the objective among
them.  For the constraints the bounds matter, but a step that lowers the objective should
not depend on the level from which it starts.

The first stage does not even know that there is an objective.  In the second one the
objective takes part as a constraint, and its level is read when its residual is found,
which happens in every walk that is made while the objective is not active.  So a turn is
the same for all levels unless it makes such a walk (`turn_eq`), and if it does, then it
ends in another state for every other level (`holds_of_turn_eq`).
-/

namespace DerivativeFree

set_option autoImplicit false

variable {α : Type} {n m : Nat}

/-! ## Models that differ in the level -/

/-- The model with the objective raised by a level. -/
def LinearModel.raised [Scalar α] (model : LinearModel α n m) (level : α) : LinearModel α n m :=
  { model with
    bounds := model.bounds.set m (model.bounds.get (Fin.last m) - level) (Nat.lt_add_one m) }

theorem LinearModel.bounds_raised_last [Scalar α] (model : LinearModel α n m) (level : α) :
    (model.raised level).bounds.get (Fin.last m) = model.bounds.get (Fin.last m) - level :=
  get_set_self model.bounds (Fin.last m) _

/-- The models differ at most in the level of the objective. -/
structure LinearModel.SameSlopes (model other : LinearModel α n m) : Prop where
  gradients : other.gradients = model.gradients
  bounds : ∀ k : Fin m, other.bounds.get k.castSucc = model.bounds.get k.castSucc

namespace LinearModel.SameSlopes

variable {model other : LinearModel α n m}

theorem bound (same : model.SameSlopes other) {k : Fin (m + 1)} (constraint : k ≠ Fin.last m) :
    other.bounds.get k = model.bounds.get k := by
  obtain ⟨j, rfl⟩ := Fin.exists_castSucc_eq.mpr constraint
  exact same.bounds j

variable [Scalar α]

theorem raised (model : LinearModel α n m) (level : α) : model.SameSlopes (model.raised level) where
  gradients := rfl
  bounds k := get_set_of_ne model.bounds (j := Fin.last m) (Fin.castSucc_ne_last k) _

theorem slope (same : model.SameSlopes other) : other.slope = model.slope := by
  funext k step
  rw [LinearModel.slope, LinearModel.slope, same.gradients]

theorem predictedViolation (same : model.SameSlopes other) :
    other.predictedViolation = model.predictedViolation := by
  funext step
  simp only [LinearModel.predictedViolation, same.slope, same.bounds]

theorem predictedIncrease (same : model.SameSlopes other) :
    other.predictedIncrease = model.predictedIncrease := by
  funext step
  simp only [LinearModel.predictedIncrease, same.slope]

/-- The revision of the active set reads the gradients alone. -/
theorem revise (same : model.SameSlopes other) (workspace : Workspace α n m) :
    workspace.revise other = workspace.revise model := by
  obtain ⟨gradients, bounds⟩ := model
  obtain ⟨slopes, levels⟩ := other
  obtain rfl : slopes = gradients := same.gradients
  rfl

end LinearModel.SameSlopes

namespace Workspace

variable {workspace : Workspace α n m}

/-! ## The objective among the constraints -/

/-- The objective is neither active nor considered, and does not enter either. -/
structure FirstStage (workspace : Workspace α n m) : Prop where
  considered : workspace.considered = m
  active : workspace.active ≤ m
  incoming : workspace.incoming < m
  constraint : ∀ k < m, workspace.constraintAt k ≠ Fin.last m

/-- The objective is active, if it is considered at all. -/
def Holds (workspace : Workspace α n m) : Prop :=
  ∀ k : Fin (m + 1), k.val < workspace.considered → workspace.active ≤ k.val →
    workspace.constraintAt k ≠ Fin.last m

namespace FirstStage

theorem not_secondStage (first : workspace.FirstStage) : workspace.secondStage = false := by
  simp [secondStage, first.considered]

/-- Constraints may change places. -/
theorem swap (first : workspace.FirstStage) {i j : Nat} (left : i < m) (right : j < m) :
    FirstStage { workspace with order := workspace.order.swapIfInBounds i j } where
  considered := first.considered
  active := first.active
  incoming := first.incoming
  constraint k inside := by
    have moved := getElem?_swapIfInBounds workspace.order (Nat.lt_succ_of_lt left)
      (Nat.lt_succ_of_lt right) k
    simp only [constraintAt, moved]
    exact first.constraint _ (swap_lt left right inside)

theorem holds (first : workspace.FirstStage) : workspace.Holds := by
  intro k considered _
  exact first.constraint k (considered.trans_eq first.considered)

end FirstStage

/-! ## Revisions of the active set -/

variable [Scalar α] {model other : LinearModel α n m}

theorem worstBound_eq (same : model.SameSlopes other) : worstBound other = worstBound model := by
  simp only [worstBound, same.bounds]

theorem begin_eq (same : model.SameSlopes other) (workspace : Workspace α n m) :
    workspace.begin other = workspace.begin model := by
  have multipliers : ∀ k : Fin (m + 1), k.val < m →
      other.bounds.get k = model.bounds.get k := by
    intro k inside
    exact same.bound (Fin.ne_of_lt inside)
  simp +contextual only [begin, worstBound_eq same, multipliers]

/-- The workspace with its free columns turned towards the gradient that is to enter. -/
def aligned (workspace : Workspace α n m) (model : LinearModel α n m) : Workspace α n m :=
  { workspace with
    basis := (workspace.alignBasis (workspace.gradientAt model workspace.incoming)).1
    trial := workspace.gradientAt model workspace.incoming }

theorem activate_eq (model : LinearModel α n m) (workspace : Workspace α n m) :
    workspace.activate model =
      if (workspace.alignBasis (workspace.gradientAt model workspace.incoming)).2 == 0 then
        match enterDependent model (workspace.aligned model)
          (workspace.gradientAt model workspace.incoming) with
        | (entered, true) => (entered.settleEntry model, true)
        | (stuck, false) => (stuck, false)
      else
        (((workspace.aligned model).enterIndependent
          (workspace.alignBasis (workspace.gradientAt model workspace.incoming)).2).settleEntry
            model, true) :=
  rfl

theorem enterDependent_frame {dependent : Workspace α n m} {gradient : Vector α n} {done : Bool}
    (entered : enterDependent model workspace gradient = (dependent, done)) :
    ∃ pivots multipliers candidates trial,
      dependent = { workspace with pivots, multipliers, candidates, trial } := by
  simp only [enterDependent] at entered
  split at entered
  · cases entered
    exact ⟨_, _, _, _, rfl⟩
  · split at entered
    · cases entered
      exact ⟨_, _, _, _, rfl⟩
    · cases entered
      exact ⟨_, _, _, _, rfl⟩

theorem considered_exchanges (model : LinearModel α n m) (workspace : Workspace α n m)
    (positions : List Nat) :
    (positions.foldl (exchange model) workspace).considered = workspace.considered := by
  induction positions generalizing workspace with
  | nil => rfl
  | cons k positions ih => exact ih (exchange model workspace k)

theorem considered_settleEntry (model : LinearModel α n m) (workspace : Workspace α n m) :
    (workspace.settleEntry model).considered = workspace.considered := by
  simp only [settleEntry]
  split
  · split <;> rfl
  · rfl

/-- A revision of the active set does not end a stage. -/
theorem considered_revise (model : LinearModel α n m) (workspace : Workspace α n m) :
    (workspace.revise model).1.considered = workspace.considered := by
  unfold revise
  split
  case isTrue =>
    have moved := considered_exchanges model workspace
      (List.range' workspace.incoming (workspace.active - 1 - workspace.incoming))
    simp only [deactivate]
    split
    · split <;> exact moved
    · exact moved
  case isFalse =>
    rw [activate_eq]
    split
    case isTrue =>
      split
      case h_1 dependent entered =>
        obtain ⟨pivots, multipliers, candidates, trial, rfl⟩ := enterDependent_frame entered
        exact considered_settleEntry ..
      case h_2 stuck entered =>
        obtain ⟨pivots, multipliers, candidates, trial, rfl⟩ := enterDependent_frame entered
        rfl
    case isFalse => exact considered_settleEntry ..

theorem secondStage_revise {revised : Workspace α n m} {done : Bool}
    (revision : workspace.revise model = (revised, done)) :
    revised.secondStage = workspace.secondStage := by
  have considered := workspace.considered_revise model
  rw [revision] at considered
  exact congrArg (fun count => decide (m < count)) considered

/-- How far the multipliers may move is limited by an active constraint besides the objective: it is
the ratio of its multiplier to a positive coefficient. -/
theorem limiting_of_ratio {gradient : Vector α n} {ratio : α}
    (known : (dependence model workspace gradient).ratio = some ratio) :
    ∃ k < workspace.active, workspace.constraintAt k ≠ Fin.last m ∧
      ∃ coefficient, 0 < coefficient ∧ ratio = entry workspace.multipliers k / coefficient := by
  refine foldr_invariant _ _ (fun _ (found : Dependence α n m) => ∀ ratio,
    found.ratio = some ratio → ∃ k < workspace.active, workspace.constraintAt k ≠ Fin.last m ∧
      ∃ coefficient, 0 < coefficient ∧ ratio = entry workspace.multipliers k / coefficient)
    (fun _ known => by cases known) (fun k found before ratio known => ?_) ratio known
  simp only [dependenceAt] at known
  split at known
  case isTrue =>
    dsimp only at known
    split at known
    case isTrue limits =>
      cases known
      simp only [Bool.and_eq_true, decide_eq_true_eq] at limits
      obtain ⟨⟨positive, constraint⟩, -⟩ := limits
      exact ⟨k, k.isLt, fun last => constraint.ne (congrArg Fin.val last), _, positive, rfl⟩
    case isFalse => exact before ratio known
  case isFalse => exact before ratio known

theorem active_pos_of_ratio {gradient : Vector α n} {ratio : α}
    (known : (dependence model workspace gradient).ratio = some ratio) : 0 < workspace.active := by
  obtain ⟨k, active, -⟩ := limiting_of_ratio known
  exact Nat.zero_lt_of_lt active

/-- A dependent constraint enters only where one besides the objective is active. -/
theorem limiting_of_enterDependent {dependent : Workspace α n m} {gradient : Vector α n}
    (entered : enterDependent model workspace gradient = (dependent, true)) :
    ∃ k < workspace.active, workspace.constraintAt k ≠ Fin.last m := by
  simp only [enterDependent] at entered
  split at entered
  case h_1 => cases entered
  case h_2 known =>
    obtain ⟨k, active, constraint, -⟩ := limiting_of_ratio known
    exact ⟨k, active, constraint⟩

/-- There must be an active constraint whose place a dependent one can take. -/
theorem active_pos_of_enterDependent {dependent : Workspace α n m} {gradient : Vector α n}
    (entered : enterDependent model workspace gradient = (dependent, true)) :
    0 < workspace.active := by
  obtain ⟨k, active, -⟩ := limiting_of_enterDependent entered
  exact Nat.zero_lt_of_lt active

theorem active_settleEntry (model : LinearModel α n m) (workspace : Workspace α n m) :
    (workspace.settleEntry model).active = workspace.active := by
  simp only [settleEntry]
  split
  · split <;> rfl
  · rfl

/-- The second stage goes on with an active constraint. -/
theorem active_pos_of_revise {revised : Workspace α n m} (second : workspace.secondStage = true)
    (revision : workspace.revise model = (revised, true)) : 0 < revised.active := by
  unfold revise at revision
  split at revision
  case isTrue =>
    have moved := considered_exchanges model workspace
      (List.range' workspace.incoming (workspace.active - 1 - workspace.incoming))
    have stays : secondStage { (List.range' workspace.incoming
        (workspace.active - 1 - workspace.incoming)).foldl (exchange model) workspace with
          active := ((List.range' workspace.incoming
            (workspace.active - 1 - workspace.incoming)).foldl (exchange model) workspace).active -
              1 } = true :=
      (congrArg (fun count => decide (m < count)) moved).trans second
    simp only [deactivate, stays, if_true] at revision
    split at revision
    case isTrue => cases revision
    case isFalse rest =>
      cases revision
      exact Nat.pos_of_ne_zero rest
  case isFalse =>
    rw [activate_eq] at revision
    split at revision
    case isTrue =>
      split at revision
      case h_1 dependent entered =>
        cases revision
        have before := active_pos_of_enterDependent entered
        obtain ⟨pivots, multipliers, candidates, trial, rfl⟩ := enterDependent_frame entered
        rw [active_settleEntry]
        exact before
      case h_2 => cases revision
    case isFalse =>
      cases revision
      rw [active_settleEntry]
      exact Nat.succ_pos _

/-! ## The first stage -/

namespace FirstStage

theorem exchange (first : workspace.FirstStage) (model : LinearModel α n m) {k : Nat}
    (inside : k + 1 < m) : (exchange model workspace k).FirstStage :=
  have swapped := first.swap (Nat.lt_of_succ_lt inside) inside
  ⟨swapped.considered, swapped.active, swapped.incoming, swapped.constraint⟩

theorem exchanges (first : workspace.FirstStage) (model : LinearModel α n m)
    {positions : List Nat} (inside : ∀ k ∈ positions, k + 1 < m) :
    (positions.foldl (Workspace.exchange model) workspace).FirstStage := by
  induction positions generalizing workspace with
  | nil => exact first
  | cons k positions ih =>
    exact ih (first.exchange model (inside k List.mem_cons_self))
      fun later among => inside later (List.mem_cons_of_mem k among)

theorem deactivate (first : workspace.FirstStage) (model : LinearModel α n m) :
    (deactivate model workspace).1.FirstStage := by
  have inside : ∀ k ∈ List.range' workspace.incoming (workspace.active - 1 - workspace.incoming),
      k + 1 < m := by
    intro k among
    have bounded := List.mem_range'_1.mp among
    have active := first.active
    omega
  have moved := first.exchanges model inside
  have fewer := (Nat.sub_le _ 1).trans moved.active
  simp only [Workspace.deactivate]
  split
  · split
    · exact ⟨moved.considered, fewer, moved.incoming, moved.constraint⟩
    · exact ⟨moved.considered, fewer, moved.incoming, moved.constraint⟩
  · exact ⟨moved.considered, fewer, moved.incoming, moved.constraint⟩

theorem settleEntry (first : workspace.FirstStage) (model : LinearModel α n m) :
    (settleEntry model workspace).FirstStage := by
  have active := first.active
  have incoming := first.incoming
  have swapped := first.swap incoming (j := workspace.active - 1) (by omega)
  simp only [Workspace.settleEntry]
  rw [if_neg (by simp [swapped.not_secondStage])]
  exact ⟨swapped.considered, swapped.active, swapped.incoming, swapped.constraint⟩

theorem activate (first : workspace.FirstStage) (model : LinearModel α n m)
    (inactive : workspace.active ≤ workspace.incoming) :
    (activate model workspace).1.FirstStage := by
  obtain ⟨considered, active, incoming, constraint⟩ := first
  have placed : ∀ dependent done, enterDependent model (workspace.aligned model)
      (workspace.gradientAt model workspace.incoming) = (dependent, done) →
      dependent.FirstStage := by
    intro dependent done entered
    obtain ⟨pivots, multipliers, candidates, trial, rfl⟩ := enterDependent_frame entered
    exact ⟨considered, active, incoming, constraint⟩
  rw [activate_eq]
  split
  case isTrue =>
    split
    case h_1 dependent entered => exact (placed dependent true entered).settleEntry model
    case h_2 stuck entered => exact placed stuck false entered
  case isFalse =>
    have room : workspace.active + 1 ≤ m := inactive.trans_lt incoming
    have entered : FirstStage ((workspace.aligned model).enterIndependent
        (workspace.alignBasis (workspace.gradientAt model workspace.incoming)).2) :=
      ⟨considered, room, incoming, constraint⟩
    exact entered.settleEntry model

/-- The first stage goes on after a revision of the active set. -/
theorem revise (first : workspace.FirstStage) (model : LinearModel α n m) :
    (revise model workspace).1.FirstStage := by
  unfold Workspace.revise
  split
  case isTrue => exact first.deactivate model
  case isFalse inactive => exact first.activate model (not_lt.mp inactive)

end FirstStage

/-! ## Walks -/

theorem residual_eq (same : model.SameSlopes other) (workspace : Workspace α n m)
    {k : Fin (m + 1)} (constraint : k ≠ Fin.last m) :
    residual other workspace k = residual model workspace k := by
  simp only [residual, same.gradients, same.bound constraint]

/-- A residual tells different bounds apart. -/
theorem bound_of_residual_eq {α : Type} [EuclideanField α] {model other : LinearModel α n m}
    {workspace : Workspace α n m} (same : model.SameSlopes other) {k : Fin (m + 1)}
    (equal : residual other workspace k = residual model workspace k) :
    other.bounds.get k = model.bounds.get k := by
  simp only [residual, rounded_exact, sumFrom_eq_sum, same.gradients] at equal
  linarith

theorem candidate_of_inactive (workspace : Workspace α n m) {k : Fin (m + 1)}
    (inactive : workspace.active ≤ k.val) (considered : k.val < workspace.considered) :
    (workspace.withCandidates model).candidates.get k =
      residual model workspace (workspace.constraintAt k) := by
  simp [withCandidates, inactive, considered]

theorem activeCandidates_eq (same : model.SameSlopes other) (workspace : Workspace α n m) :
    workspace.activeCandidates other = workspace.activeCandidates model := by
  have gradients : ∀ k, workspace.gradientAt other k = workspace.gradientAt model k := by
    simp only [gradientAt, same.gradients, implies_true]
  have multipliers : ∀ k, multiplierAt other workspace k = multiplierAt model workspace k := by
    intro k
    funext state
    simp only [multiplierAt, gradients]
  simp only [activeCandidates, multipliers]

theorem withCandidates_eq (same : model.SameSlopes other) (holds : workspace.Holds) :
    workspace.withCandidates other = workspace.withCandidates model := by
  simp only [withCandidates, activeCandidates_eq same]
  congr 2
  funext k
  split
  case isTrue inactive => exact residual_eq same workspace (holds k inactive.2 inactive.1)
  case isFalse => rfl

theorem trialViolation_eq (same : model.SameSlopes other) (first : workspace.FirstStage) :
    workspace.trialViolation other = workspace.trialViolation model := by
  have bounds : ∀ k : Fin workspace.active, other.bounds.get (workspace.constraintAt k) =
      model.bounds.get (workspace.constraintAt k) :=
    fun k => same.bound (first.constraint k (k.isLt.trans_le first.active))
  simp only [trialViolation, gradientAt, same.gradients, bounds]

/-- The part of a walk that a position allows, if the walk makes its number negative. -/
def share (workspace : Workspace α n m) (k : Nat) : α :=
  entry workspace.multipliers k / (entry workspace.multipliers k - entry workspace.candidates k)

/-- What the positions keep, one after the other, holds of the part of a walk that is taken. -/
theorem blocking_invariant (workspace : Workspace α n m) (motive : Nat → α × Option Nat → Prop)
    (start : motive 0 (1, none))
    (passes : ∀ k < workspace.considered, ∀ found, motive k found →
      (entry workspace.candidates k < 0 → ¬ workspace.share k < found.1) → motive (k + 1) found)
    (blocks : ∀ k < workspace.considered, ∀ found, motive k found →
      entry workspace.candidates k < 0 → workspace.share k < found.1 →
      motive (k + 1) (workspace.share k, some k)) :
    motive workspace.considered workspace.blocking := by
  refine foldl_invariant _ (1, none) motive start fun k found before => ?_
  dsimp only
  split
  case isTrue negative =>
    split
    case isTrue less => exact blocks k k.isLt found before negative less
    case isFalse kept => exact passes k k.isLt found before fun _ => kept
  case isFalse candidate =>
    exact passes k k.isLt found before fun negative => absurd negative candidate

/-- **The whole walk is taken, or the part that one position allows**, at which the walk makes a
number negative. -/
theorem blocking_cases (workspace : Workspace α n m) :
    workspace.blocking = (1, none) ∨ ∃ k < workspace.considered,
      entry workspace.candidates k < 0 ∧ workspace.blocking = (workspace.share k, some k) := by
  refine workspace.blocking_invariant (fun _ found => found = (1, none) ∨
    ∃ k < workspace.considered, entry workspace.candidates k < 0 ∧
      found = (workspace.share k, some k)) (.inl rfl) ?_ ?_
  · exact fun _ _ _ before _ => before
  · exact fun k inside _ _ negative _ => .inr ⟨k, inside, negative, rfl⟩

/-- Unless something blocks it, the whole walk is taken. -/
theorem blocking_free (free : workspace.blocking.2 = none) : workspace.blocking.1 = 1 := by
  rcases workspace.blocking_cases with whole | ⟨k, -, -, blocked⟩
  · rw [whole]
  · rw [blocked] at free
    cases free

/-- What blocks a walk is one of the positions that are considered, it would become negative, and
as much of the walk is taken as it allows. -/
theorem blocking_some {position : Nat} (blocked : workspace.blocking.2 = some position) :
    position < workspace.considered ∧ entry workspace.candidates position < 0 ∧
      workspace.blocking.1 = workspace.share position := by
  rcases workspace.blocking_cases with whole | ⟨k, inside, negative, same⟩
  · rw [whole] at blocked
    cases blocked
  · rw [same] at blocked
    obtain rfl := Option.some.inj blocked
    exact ⟨inside, negative, congrArg Prod.fst same⟩

/-- The walk is blocked by one of the constraints that are considered. -/
theorem blocking_lt {position : Nat} (blocked : workspace.blocking.2 = some position) :
    position < workspace.considered :=
  (blocking_some blocked).1

end Workspace

/-! ## Turns -/

namespace Stage

variable [Scalar α] {model other : LinearModel α n m} {stage : Stage α n m} {radius : α}

/-- If the next turn walks in the second stage, then it does so while the objective is active. -/
def Holds (model : LinearModel α n m) (radius : α) (stage : Stage α n m) : Prop :=
  ∀ revised, (stage.watch model).patience ≠ 0 → stage.workspace.revise model = (revised, true) →
    ¬ revised.room radius ≤ 0 → revised.secondStage = true → revised.Holds

theorem workspace_watch (model : LinearModel α n m) (stage : Stage α n m) :
    (stage.watch model).workspace = stage.workspace := by
  unfold watch
  split
  · rfl
  · split <;> rfl

theorem watch_eq (same : model.SameSlopes other) (stage : Stage α n m) :
    stage.watch other = stage.watch model := by
  have target : stage.target other = stage.target model := by
    simp only [Stage.target, same.gradients]
  simp only [watch, target]

theorem walkTurn_eq (same : model.SameSlopes other) {workspace : Workspace α n m}
    (holds : workspace.Holds) (first : workspace.secondStage = false → workspace.FirstStage)
    (stage : Stage α n m) (length full : α) :
    stage.walkTurn other workspace length full = stage.walkTurn model workspace length full := by
  cases second : workspace.secondStage with
  | true =>
    have walked : (workspace.walk length).Holds := holds
    have here : (workspace.walk length).secondStage = true := second
    simp only [walkTurn, here, if_true, Workspace.withCandidates_eq same walked]
  | false =>
    obtain ⟨considered, active, incoming, constraint⟩ := first second
    have walked : (workspace.walk length).FirstStage := ⟨considered, active, incoming, constraint⟩
    have judged : ∀ violation, Workspace.Holds { workspace.walk length with violation } :=
      fun _ => holds
    simp only [walkTurn, walked.not_secondStage, Bool.false_eq_true, if_false,
      Workspace.trialViolation_eq same walked, Workspace.withCandidates_eq same (judged _)]

/-- **A turn does not depend on the level of the objective** if the objective is active. -/
theorem turn_eq (same : model.SameSlopes other)
    (first : stage.workspace.secondStage = false → stage.workspace.FirstStage)
    (holds : stage.Holds model radius) : stage.turn other radius = stage.turn model radius := by
  simp only [turn, watch_eq same, workspace_watch, same.revise]
  split
  case isTrue => rfl
  case isFalse patient =>
    split
    case h_1 => rfl
    case h_2 revised revision =>
      split
      case isTrue => rfl
      case isFalse room =>
        have walks : ∀ length, (stage.watch model).walkTurn other revised length
            (revised.fullLength (revised.room radius)) =
              (stage.watch model).walkTurn model revised length
                (revised.fullLength (revised.room radius)) := by
          intro length
          have starts : revised.secondStage = false → revised.FirstStage := by
            intro early
            have next :=
              (first ((Workspace.secondStage_revise revision).symm.trans early)).revise model
            rwa [revision] at next
          refine walkTurn_eq same ?_ starts ..
          cases second : revised.secondStage with
          | true => exact holds revised patient revision room second
          | false => exact (starts second).holds
        simp only [walks]

/-- A turn after which the stage goes on has revised the active set and walked. -/
theorem turn_another {next : Stage α n m} (turned : stage.turn model radius = .another next) :
    ∃ revised length full, stage.workspace.revise model = (revised, true) ∧
      (stage.watch model).walkTurn model revised length full = .another next := by
  simp only [turn, workspace_watch] at turned
  split at turned
  case isTrue => cases turned
  case isFalse =>
    split at turned
    case h_1 => cases turned
    case h_2 revised revision =>
      refine ⟨revised, ?_⟩
      split at turned
      case isTrue => cases turned
      case isFalse =>
        split at turned
        case isTrue => exact ⟨_, _, revision, turned⟩
        case isFalse =>
          split at turned
          case isTrue => cases turned
          case isFalse => exact ⟨_, _, revision, turned⟩

/-- A walk after which the stage goes on leaves the active set alone. -/
theorem walkTurn_another {workspace : Workspace α n m} {length full : α} {next : Stage α n m}
    (walked : stage.walkTurn model workspace length full = .another next) :
    ∃ position < workspace.considered, ∃ candidates trial step multipliers violation,
      next.workspace = { workspace with
        candidates, trial, step, multipliers, violation, incoming := position } := by
  obtain ⟨trial, violation, frame⟩ : ∃ trial violation,
      (if (workspace.walk length).secondStage = true then workspace.walk length
        else { workspace.walk length with
          violation := (workspace.walk length).trialViolation model }) =
        { workspace with trial, violation } := by
    split
    · exact ⟨_, _, rfl⟩
    · exact ⟨_, _, rfl⟩
  simp only [walkTurn, frame] at walked
  split at walked
  case h_1 position blocked =>
    cases walked
    have inside := Workspace.blocking_lt blocked
    exact ⟨position, inside, _, _, _, _, _, rfl⟩
  case h_2 => cases walked

theorem firstStage_turn {next : Stage α n m} (first : stage.workspace.FirstStage)
    (turned : stage.turn model radius = .another next) : next.workspace.FirstStage := by
  obtain ⟨revised, length, full, revision, walked⟩ := turn_another turned
  obtain ⟨position, inside, _, _, _, _, _, same⟩ := walkTurn_another walked
  have revised_first := first.revise model
  rw [revision] at revised_first
  obtain ⟨considered, active, -, constraint⟩ := revised_first
  rw [same]
  exact ⟨considered, active, inside.trans_eq considered, constraint⟩

theorem secondStage_turn {next : Stage α n m}
    (turned : stage.turn model radius = .another next) :
    next.workspace.secondStage = stage.workspace.secondStage := by
  obtain ⟨revised, length, full, revision, walked⟩ := turn_another turned
  obtain ⟨position, inside, _, _, _, _, _, same⟩ := walkTurn_another walked
  rw [← Workspace.secondStage_revise revision, same]
  rfl

end Stage

/-! ## A walk without the objective -/

/-- The state of the search for a step after a turn. -/
def Turn.workspace : Turn α n m → Workspace α n m
  | .another stage => stage.workspace
  | .done workspace _ => workspace

namespace Stage

variable [EuclideanField α] {model other : LinearModel α n m} {stage : Stage α n m} {radius : α}

theorem candidates_walkTurn {workspace : Workspace α n m} (second : workspace.secondStage = true)
    (length full : α) : (stage.walkTurn model workspace length full).workspace.candidates =
      ((workspace.walk length).withCandidates model).candidates := by
  have walked : (workspace.walk length).secondStage = true := second
  simp only [walkTurn, walked, if_true]
  split <;> rfl

/-- **A turn tells different levels of the objective apart** if it walks in the second stage
while the objective is not active. -/
theorem holds_of_turn_eq (same : model.SameSlopes other)
    (different : other.bounds.get (Fin.last m) ≠ model.bounds.get (Fin.last m))
    (equal : stage.turn other radius = stage.turn model radius) : stage.Holds model radius := by
  intro revised patient revision room second k considered inactive objective
  have walked : (stage.watch model).walkTurn other revised
      (revised.fullLength (revised.room radius)) (revised.fullLength (revised.room radius)) =
        (stage.watch model).walkTurn model revised (revised.fullLength (revised.room radius))
          (revised.fullLength (revised.room radius)) := by
    simpa only [turn, watch_eq same, workspace_watch, same.revise, patient, revision, room, second,
      if_true, if_false] using equal
  have candidates := congrArg (fun turn => turn.workspace.candidates.get k) walked
  simp only [candidates_walkTurn second] at candidates
  rw [Workspace.candidate_of_inactive (Workspace.walk ..) inactive considered,
    Workspace.candidate_of_inactive (Workspace.walk ..) inactive considered] at candidates
  have objective : (revised.walk (revised.fullLength (revised.room radius))).constraintAt k =
      Fin.last m := objective
  rw [objective] at candidates
  exact different (Workspace.bound_of_residual_eq same candidates)

end Stage

end DerivativeFree
