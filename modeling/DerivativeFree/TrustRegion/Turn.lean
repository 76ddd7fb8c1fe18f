import DerivativeFree.TrustRegion.ActiveSet

/-!
# One turn of a stage

A turn of either stage revises the active set, walks along the new direction and stops
where a multiplier or a residual would change its sign, which names the constraint for
the next turn.  Before that it watches the progress of the stage: a stage in which the
quantity to be lowered has not fallen, nor the number of active constraints risen, for
`patienceLimit` turns in a row is stalled.

`Stage` is the state between two turns, and `Stage.turn` the turn; what it does is split
into the length of the walk (`fullLength`), the multipliers at its end (`withCandidates`)
and the part of it that is taken (`blocking`).
-/

namespace DerivativeFree

set_option autoImplicit false

variable {α : Type} [Scalar α] {n m : Nat}

namespace Workspace

/-! ## The length of the walk -/

/-- The square of the radius less the squares of the entries of the step that are not
negligible against the radius. -/
def room (workspace : Workspace α n m) (radius : α) : α :=
  Fin.foldl n (fun room i =>
    if 1e-6 * radius ≤ Scalar.abs (workspace.step.get i) then
      room - workspace.step.get i * workspace.step.get i
    else room) (radius * radius)

/-- The length of the walk, in units of the direction, that reaches the boundary of the
trust region from a step that leaves the given room. -/
def fullLength (workspace : Workspace α n m) (room : α) : α :=
  let along := dot workspace.step workspace.direction
  let square := dot workspace.direction workspace.direction
  let root := Scalar.sqrt (square * room)
  let root := if 1e-6 * root ≤ Scalar.abs along then Scalar.sqrt (square * room + along * along)
    else root
  room / (root + along)

/-- Whether the violation is lost in the rounding of the length of the walk. -/
def negligibleViolation (workspace : Workspace α n m) (length : α) : Bool :=
  let near := length + 0.1 * workspace.violation
  let far := length + 0.2 * workspace.violation
  decide (near ≤ length) || decide (far ≤ near)

/-- The workspace with the end of a walk of the given length as its trial step. -/
def walk (workspace : Workspace α n m) (length : α) : Workspace α n m :=
  { workspace with trial := workspace.step + length * workspace.direction }

/-- The greatest violation of an active constraint after the trial step. -/
def trialViolation (model : LinearModel α n m) (workspace : Workspace α n m) : α :=
  largestFrom 0 fun k : Fin workspace.active =>
    model.bounds.get (workspace.constraintAt k) - dot workspace.trial (workspace.gradientAt model k)

/-! ## Multipliers and residuals at the end of the walk -/

/-- Finds the multiplier of the active constraint at position `k` in what is left of the
trial step, and takes its part away. -/
def multiplierAt (model : LinearModel α n m) (workspace : Workspace α n m) (k : Nat)
    (state : Vector α n × Vector α (m + 1)) : Vector α n × Vector α (m + 1) :=
  let multiplier := roundedDot (workspace.basisAt k) state.1 / entry workspace.pivots k
  (if 1 ≤ k then state.1 - multiplier * workspace.gradientAt model k else state.1,
    state.2.setIfInBounds k multiplier)

/-- The candidates with the multipliers of the active constraints after the trial step.
The objective, which is the last one in the second stage, gets none below zero. -/
def activeCandidates (model : LinearModel α n m) (workspace : Workspace α n m) :
    Vector α (m + 1) :=
  let candidates := (Fin.foldr workspace.active (fun k => multiplierAt model workspace k)
    (workspace.trial, workspace.candidates)).2
  if workspace.secondStage ∧ 0 < workspace.active then
    candidates.setIfInBounds (workspace.active - 1)
      (larger (entry candidates (workspace.active - 1)) 0)
  else candidates

/-- The residual of a constraint after the trial step, above the greatest violation. -/
def residual (model : LinearModel α n m) (workspace : Workspace α n m) (k : Fin (m + 1)) : α :=
  let bound := model.bounds.get k
  let gradient := model.gradients.get k
  rounded
    (sumFrom (workspace.violation + Scalar.abs bound) fun i : Fin n =>
      Scalar.abs (gradient.get i * workspace.trial.get i))
    (sumFrom (workspace.violation - bound) fun i : Fin n => gradient.get i * workspace.trial.get i)

/-- The workspace with the multipliers and residuals that the trial step leads to. -/
def withCandidates (model : LinearModel α n m) (workspace : Workspace α n m) :
    Workspace α n m :=
  let candidates := activeCandidates model workspace
  { workspace with
    candidates := Vector.ofFn fun k =>
      if workspace.active ≤ k.val ∧ k.val < workspace.considered then
        residual model workspace (workspace.constraintAt k)
      else candidates.get k }

/-! ## The part of the walk that is taken -/

/-- The greatest part of the trial step, at most one, that keeps all multipliers and
residuals nonnegative, and the first position that allows no greater part. -/
def blocking (workspace : Workspace α n m) : α × Option Nat :=
  Fin.foldl workspace.considered (fun (found : α × Option Nat) k =>
    let current := entry workspace.multipliers k
    let candidate := entry workspace.candidates k
    if candidate < 0 then
      let ratio := current / (current - candidate)
      if ratio < found.1 then (ratio, some k.val) else found
    else found) (1, none)

/-- The workspace after the given part of the trial step has been taken, when the first
stage had started it with the violation `before`. -/
def advance (workspace : Workspace α n m) (part before : α) : Workspace α n m :=
  { workspace with
    step := (1 - part) * workspace.step + part * workspace.trial
    multipliers := Vector.ofFn fun k =>
      if k.val < workspace.considered then
        larger ((1 - part) * workspace.multipliers.get k + part * workspace.candidates.get k) 0
      else workspace.multipliers.get k
    violation := if workspace.secondStage then workspace.violation
      else before + part * (workspace.violation - before) }

end Workspace

/-! ## Turns -/

/-- The number of turns in a row without progress that end a stage. -/
def patienceLimit : Nat := 3

/-- A stage between two turns. -/
structure Stage (α : Type) (n m : Nat) where
  /-- The state of the search for a step. -/
  workspace : Workspace α n m
  /-- The least value so far of the quantity that the stage lowers. -/
  least : α
  /-- The number of active constraints when progress was last seen. -/
  activeRecord : Nat
  /-- The number of turns without progress that are left. -/
  patience : Nat

/-- How a stage ends. -/
inductive StageEnd where
  /-- The step has reached the boundary of the trust region. -/
  | boundary
  /-- The step ends inside the trust region. -/
  | inside
  /-- No further progress can be made. -/
  | stalled
  deriving Repr, DecidableEq

/-- What follows a turn. -/
inductive Turn (α : Type) (n m : Nat) where
  /-- Another turn. -/
  | another (stage : Stage α n m)
  /-- The end of the stage. -/
  | done (workspace : Workspace α n m) (how : StageEnd)

namespace Stage

/-- A stage before its first turn. -/
def first (workspace : Workspace α n m) : Stage α n m where
  workspace := workspace
  least := 0
  activeRecord := 0
  patience := 0

/-- The quantity that the stage lowers: the greatest violation, and then the objective. -/
def target (model : LinearModel α n m) (stage : Stage α n m) : α :=
  if stage.workspace.secondStage then
    -dot stage.workspace.step (model.gradients.get (Fin.last m))
  else stage.workspace.violation

/-- The stage with its progress brought up to date at the start of a turn. -/
def watch (model : LinearModel α n m) (stage : Stage α n m) : Stage α n m :=
  if stage.patience = 0 ∨ stage.target model < stage.least then
    { stage with
      least := stage.target model
      activeRecord := stage.workspace.active
      patience := patienceLimit }
  else if stage.activeRecord < stage.workspace.active then
    { stage with activeRecord := stage.workspace.active, patience := patienceLimit }
  else { stage with patience := stage.patience - 1 }

/-- Walks the given length from a workspace whose active set has been revised.
`full` is the length that reaches the boundary. -/
def walkTurn (model : LinearModel α n m) (stage : Stage α n m) (workspace : Workspace α n m)
    (length full : α) : Turn α n m :=
  let walked := workspace.walk length
  let walked := if walked.secondStage then walked
    else { walked with violation := walked.trialViolation model }
  let judged := walked.withCandidates model
  let (part, blocker) := judged.blocking
  let advanced := judged.advance part workspace.violation
  match blocker with
  | some position =>
    .another { stage with workspace := { advanced with incoming := position } }
  | none => .done advanced (if length == full then .boundary else .inside)

/-- One turn of a stage within the trust region of the given radius. -/
def turn (model : LinearModel α n m) (radius : α) (stage : Stage α n m) : Turn α n m :=
  let stage := stage.watch model
  if stage.patience = 0 then .done stage.workspace .stalled
  else
    match stage.workspace.revise model with
    | (stuck, false) => .done stuck .stalled
    | (revised, true) =>
      let room := revised.room radius
      if room ≤ 0 then .done revised .stalled
      else
        let full := revised.fullLength room
        if revised.secondStage then stage.walkTurn model revised full full
        else if revised.negligibleViolation full then .done revised .boundary
        else stage.walkTurn model revised (smaller full revised.violation) full

end Stage

end DerivativeFree
