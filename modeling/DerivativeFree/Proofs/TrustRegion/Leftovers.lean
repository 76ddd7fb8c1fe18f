import DerivativeFree.Proofs.Linear.Agreement
import DerivativeFree.Proofs.Linear.Fold
import DerivativeFree.Proofs.TrustRegion.Level

/-!
# What an earlier step has left behind

A workspace is used for many steps in turn, and only a part of it is prepared for the next
one.  The other parts are overwritten before they are read: the pivots beyond the active
constraints, the multipliers and the order beyond the considered ones, the candidates and the
trial step.

`Agrees` relates two workspaces that differ in such parts at most.  A revision of the active
set keeps this (`Agrees.revise`), whatever the arithmetic.  No law is assumed, not even that
zero equals zero, so that a first stage without any constraints is among the cases.
-/

namespace DerivativeFree

set_option autoImplicit false

variable {α : Type} {n m : Nat} (model : LinearModel α n m)

namespace Workspace

/-! ## Workspaces that agree -/

/-- The number of positions in use: those of the considered constraints, and at least one. -/
def span (workspace : Workspace α n m) : Nat :=
  max workspace.considered 1

/-- The workspaces are the same as far as they are read before they are written. -/
structure Agrees (workspace other : Workspace α n m) : Prop where
  basis : other.basis = workspace.basis
  direction : other.direction = workspace.direction
  step : other.step = workspace.step
  violation : other.violation = workspace.violation
  active : other.active = workspace.active
  considered : other.considered = workspace.considered
  incoming : other.incoming = workspace.incoming
  order : AgreeOn 0 workspace.span workspace.order other.order
  multipliers : AgreeOn 0 (max workspace.considered workspace.active) workspace.multipliers
    other.multipliers
  pivots : AgreeOn 0 workspace.active workspace.pivots other.pivots
  least : m ≤ workspace.considered
  most : workspace.considered ≤ m + 1
  room : workspace.active ≤ workspace.span
  inside : workspace.incoming < workspace.span

variable {workspace other : Workspace α n m} {k : Nat}

namespace Agrees

theorem secondStage (agrees : Agrees workspace other) :
    other.secondStage = workspace.secondStage := by
  rw [Workspace.secondStage, agrees.considered, Workspace.secondStage]

theorem constraintAt (agrees : Agrees workspace other) (inside : k < workspace.span) :
    other.constraintAt k = workspace.constraintAt k := by
  rw [Workspace.constraintAt, agrees.order k (Nat.zero_le k) inside, Workspace.constraintAt]

theorem gradientAt (agrees : Agrees workspace other) (inside : k < workspace.span) :
    other.gradientAt model k = workspace.gradientAt model k := by
  rw [Workspace.gradientAt, agrees.constraintAt inside, Workspace.gradientAt]

end Agrees

variable [Scalar α]

namespace Agrees

theorem basisAt (agrees : Agrees workspace other) (k : Nat) :
    other.basisAt k = workspace.basisAt k := by
  rw [Workspace.basisAt, agrees.basis, Workspace.basisAt]

theorem pivot (agrees : Agrees workspace other) (inside : k < workspace.active) :
    entry other.pivots k = entry workspace.pivots k :=
  agrees.pivots.entry (Nat.zero_le k) inside

theorem multiplier (agrees : Agrees workspace other)
    (inside : k < max workspace.considered workspace.active) :
    entry other.multipliers k = entry workspace.multipliers k :=
  agrees.multipliers.entry (Nat.zero_le k) inside

/-! ## Leaving the active set -/

theorem exchange (agrees : Agrees workspace other) (inside : k + 1 < workspace.active) :
    Agrees (exchange model workspace k) (exchange model other k) := by
  have before : k < workspace.active := Nat.lt_of_succ_lt inside
  have gradient := agrees.gradientAt model (inside.trans_le agrees.room)
  have basis : (Workspace.exchange model other k).basis =
      (Workspace.exchange model workspace k).basis := by
    simp only [Workspace.exchange, agrees.basis, agrees.basisAt, gradient, agrees.pivot inside]
  have pivots : AgreeOn 0 workspace.active (Workspace.exchange model workspace k).pivots
      (Workspace.exchange model other k).pivots := by
    simp only [Workspace.exchange, agrees.basisAt, gradient, agrees.pivot inside,
      agrees.pivot before]
    exact (agrees.pivots.set _ _).set _ _
  exact { agrees with
    basis := basis
    pivots := pivots
    order := agrees.order.swap (before.trans_le agrees.room) (inside.trans_le agrees.room)
    multipliers := agrees.multipliers.swap (before.trans_le (le_max_right _ _))
      (inside.trans_le (le_max_right _ _)) }

theorem exchanges (agrees : Agrees workspace other) {positions : List Nat}
    (inside : ∀ k ∈ positions, k + 1 < workspace.active) :
    Agrees (positions.foldl (Workspace.exchange model) workspace)
      (positions.foldl (Workspace.exchange model) other) := by
  induction positions generalizing workspace other with
  | nil => exact agrees
  | cons k positions ih =>
    have exchanged := agrees.exchange model (inside k List.mem_cons_self)
    exact ih exchanged fun later among => inside later (List.mem_cons_of_mem k among)

theorem descend (agrees : Agrees workspace other) (some : 0 < workspace.active) :
    Agrees workspace.descend other.descend := by
  have pivot := agrees.pivot (Nat.sub_lt some Nat.one_pos)
  have direction : other.descend.direction = workspace.descend.direction := by
    simp only [Workspace.descend, agrees.active, pivot, agrees.basisAt]
  exact { agrees with direction }

theorem approach (agrees : Agrees workspace other) (some : 0 < workspace.active) :
    Agrees (workspace.approach model) (other.approach model) := by
  have last := Nat.sub_lt some Nat.one_pos
  have pivot := agrees.pivot last
  have gradient := agrees.gradientAt model (last.trans_le agrees.room)
  have direction : (other.approach model).direction = (workspace.approach model).direction := by
    simp only [Workspace.approach, agrees.active, pivot, agrees.basisAt, gradient,
      agrees.direction]
  exact { agrees with direction }

end Agrees

/-- The workspace after the incoming constraint has left the active set, with its direction
still to be found. -/
def released (model : LinearModel α n m) (workspace : Workspace α n m) : Workspace α n m :=
  let moved := (List.range' workspace.incoming (workspace.active - 1 - workspace.incoming)).foldl
    (exchange model) workspace
  { moved with active := moved.active - 1 }

theorem deactivate_eq (model : LinearModel α n m) (workspace : Workspace α n m) :
    deactivate model workspace =
      if (workspace.released model).secondStage then
        if (workspace.released model).active = 0 then (workspace.released model, false)
        else ((workspace.released model).descend, true)
      else
        ({ workspace.released model with
            direction := (workspace.released model).direction -
              dot (workspace.released model).direction
                ((workspace.released model).basisAt (workspace.released model).active) *
              (workspace.released model).basisAt (workspace.released model).active }, true) :=
  rfl

namespace Agrees

theorem released (agrees : Agrees workspace other) :
    Agrees (workspace.released model) (other.released model) := by
  have inside : ∀ k ∈ List.range' workspace.incoming (workspace.active - 1 - workspace.incoming),
      k + 1 < workspace.active := by
    intro k among
    have bounded := List.mem_range'_1.mp among
    omega
  have moved := agrees.exchanges model inside
  rw [Workspace.released, Workspace.released, agrees.incoming, agrees.active]
  generalize (List.range' workspace.incoming (workspace.active - 1 - workspace.incoming)).foldl
    (Workspace.exchange model) workspace = first at moved ⊢
  generalize (List.range' workspace.incoming (workspace.active - 1 - workspace.incoming)).foldl
    (Workspace.exchange model) other = second at moved ⊢
  have fewer : first.active - 1 ≤ first.active := Nat.sub_le _ _
  exact { moved with
    active := congrArg (· - 1) moved.active
    multipliers := moved.multipliers.mono le_rfl (max_le_max le_rfl fewer)
    pivots := moved.pivots.mono le_rfl fewer
    room := fewer.trans moved.room }

/-- The results of a revision agree if the workspaces do and either both can go on or neither
can. -/
def Results (result other : Workspace α n m × Bool) : Prop :=
  Agrees result.1 other.1 ∧ other.2 = result.2

theorem deactivate (agrees : Agrees workspace other) :
    Results (deactivate model workspace) (deactivate model other) := by
  have released := agrees.released model
  rw [deactivate_eq, deactivate_eq]
  generalize workspace.released model = first at released ⊢
  generalize other.released model = second at released ⊢
  rw [released.secondStage, released.active, released.basisAt, released.direction]
  split
  case isTrue =>
    split
    case isTrue => exact ⟨released, rfl⟩
    case isFalse rest => exact ⟨released.descend (Nat.pos_of_ne_zero rest), rfl⟩
  case isFalse => exact ⟨{ released with direction := rfl }, rfl⟩

/-! ## Entering the active set -/

theorem alignBasis (agrees : Agrees workspace other) (gradient : Vector α n) :
    other.alignBasis gradient = workspace.alignBasis gradient := by
  simp only [Workspace.alignBasis, agrees.active, agrees.basis]

theorem aligned (agrees : Agrees workspace other) :
    Agrees (workspace.aligned model) (other.aligned model) := by
  have gradient := agrees.gradientAt model agrees.inside
  have basis : (other.aligned model).basis = (workspace.aligned model).basis := by
    simp only [Workspace.aligned, agrees.incoming, gradient, agrees.alignBasis]
  exact { agrees with basis }

/-- The gradients are expressed in the same way, with the same coefficients from position `k`
on. -/
structure Expressed (active k : Nat) (found other : Dependence α n m) : Prop where
  rest : other.rest = found.rest
  ratio : other.ratio = found.ratio
  coefficients : AgreeOn k active found.coefficients other.coefficients

theorem dependenceAt (agrees : Agrees workspace other) {found found' : Dependence α n m}
    (inside : k < workspace.active) (expressed : Expressed workspace.active (k + 1) found found') :
    Expressed workspace.active k (Workspace.dependenceAt model workspace k found)
      (Workspace.dependenceAt model other k found') := by
  have within := inside.trans_le agrees.room
  have multiplier := agrees.multiplier (inside.trans_le (le_max_right _ _))
  have gradient := agrees.gradientAt model within
  simp only [Workspace.dependenceAt, agrees.basisAt, agrees.pivot inside, multiplier, gradient,
    agrees.constraintAt within, expressed.rest, expressed.ratio]
  split
  case isTrue => exact ⟨rfl, rfl, expressed.coefficients.set_first _⟩
  case isFalse => exact ⟨rfl, rfl, expressed.coefficients.set_first _⟩

theorem dependence (agrees : Agrees workspace other) (gradient : Vector α n) :
    Expressed workspace.active 0 (Workspace.dependence model workspace gradient)
      (Workspace.dependence model other gradient) := by
  simp only [Workspace.dependence, agrees.active]
  exact foldr_relation _ _ _ _ (Expressed workspace.active) ⟨rfl, rfl, .empty _ _ _⟩
    fun k found found' expressed => agrees.dependenceAt model k.isLt expressed

end Agrees

/-- The workspace with the multipliers of the active constraints lowered by a multiple of the
coefficients that have been found, but not below zero. -/
def lowered (workspace : Workspace α n m) (found : Dependence α n m) (ratio : α) :
    Vector α (m + 1) :=
  Vector.ofFn fun k =>
    if k.val < workspace.active then
      larger (workspace.multipliers.get k - ratio * found.coefficients.get k) 0
    else workspace.multipliers.get k

/-- The workspace with what has been found while a gradient was expressed. -/
def expressing (workspace : Workspace α n m) (found : Dependence α n m) : Workspace α n m :=
  { workspace with trial := found.rest, candidates := found.coefficients }

theorem enterDependent_eq (model : LinearModel α n m) (workspace : Workspace α n m)
    (gradient : Vector α n) :
    enterDependent model workspace gradient =
      match (dependence model workspace gradient).ratio with
      | none => (workspace.expressing (dependence model workspace gradient), false)
      | some ratio =>
        if dot (workspace.basisAt (workspace.active - 1)) gradient == 0 then
          ({ workspace.expressing (dependence model workspace gradient) with
              multipliers := workspace.lowered (dependence model workspace gradient) ratio },
            false)
        else
          ({ workspace.expressing (dependence model workspace gradient) with
              pivots := workspace.pivots.setIfInBounds (workspace.active - 1)
                (dot (workspace.basisAt (workspace.active - 1)) gradient)
              multipliers :=
                ((workspace.lowered (dependence model workspace gradient) ratio).setIfInBounds
                  workspace.incoming 0).setIfInBounds (workspace.active - 1) ratio }, true) :=
  rfl

namespace Agrees

theorem lowered (agrees : Agrees workspace other) {found found' : Dependence α n m}
    (expressed : Expressed workspace.active 0 found found') (ratio : α) :
    AgreeOn 0 (max workspace.considered workspace.active) (workspace.lowered found ratio)
      (other.lowered found' ratio) := by
  refine .of_get fun k from_first below => ?_
  have multiplier := agrees.multipliers.get from_first below
  simp only [Workspace.lowered, Vector.get_ofFn, agrees.active]
  split
  case isTrue active => rw [multiplier, expressed.coefficients.get from_first active]
  case isFalse => exact multiplier

theorem enterDependent (agrees : Agrees workspace other) (gradient : Vector α n) :
    Results (Workspace.enterDependent model workspace gradient)
      (Workspace.enterDependent model other gradient) := by
  have expressed := agrees.dependence model gradient
  have lowered := agrees.lowered expressed
  rw [enterDependent_eq, enterDependent_eq, expressed.ratio, agrees.active, agrees.basisAt,
    agrees.incoming]
  cases (Workspace.dependence model workspace gradient).ratio with
  | none => exact ⟨{ agrees with }, rfl⟩
  | some ratio =>
    simp only
    split
    case isTrue => exact ⟨{ agrees with multipliers := lowered ratio }, rfl⟩
    case isFalse =>
      exact ⟨{ agrees with
        pivots := agrees.pivots.set _ _
        multipliers := ((lowered ratio).set _ _).set _ _ }, rfl⟩

/-- The residual that makes room for the incoming constraint is read only where there is one:
if no constraint is left that is not active, the incoming one is in its place already. -/
theorem enterIndependent (agrees : Agrees workspace other)
    (inactive : workspace.active ≤ workspace.incoming) (component : α) :
    Agrees (workspace.enterIndependent component) (other.enterIndependent component) := by
  have inside := agrees.inside
  have multipliers : AgreeOn 0 (max workspace.considered (workspace.active + 1))
      (workspace.enterIndependent component).multipliers
      (other.enterIndependent component).multipliers := by
    simp only [Workspace.enterIndependent, agrees.active, agrees.incoming]
    refine .set_of_ne _ fun i different from_first below => ?_
    have place : i < max workspace.considered workspace.active := by omega
    have few : workspace.active < workspace.considered := by
      simp only [span] at inside
      omega
    rw [agrees.multiplier (few.trans_le (le_max_left _ _))]
    exact agrees.multipliers.set _ _ i from_first place
  have pivots : AgreeOn 0 (workspace.active + 1) (workspace.enterIndependent component).pivots
      (other.enterIndependent component).pivots := by
    simp only [Workspace.enterIndependent, agrees.active]
    exact agrees.pivots.set_last component
  exact { agrees with
    active := congrArg (· + 1) agrees.active
    pivots := pivots
    multipliers := multipliers
    room := inactive.trans_lt inside }

end Agrees

/-- The workspace with the incoming constraint in the last active position. -/
def placed (workspace : Workspace α n m) : Workspace α n m :=
  { workspace with
    order := workspace.order.swapIfInBounds workspace.incoming (workspace.active - 1) }

theorem settleEntry_eq (model : LinearModel α n m) (workspace : Workspace α n m) :
    settleEntry model workspace =
      if workspace.placed.secondStage then
        if workspace.constraintAt workspace.incoming ≠ Fin.last m ∧ 1 ≤ workspace.active - 1 then
          (exchange model workspace.placed (workspace.active - 1 - 1)).descend
        else workspace.placed.descend
      else workspace.placed.approach model :=
  rfl

namespace Agrees

omit [Scalar α] in
theorem placed (agrees : Agrees workspace other) (some : 0 < workspace.active) :
    Agrees workspace.placed other.placed := by
  have last : workspace.active - 1 < workspace.span :=
    (Nat.sub_lt some Nat.one_pos).trans_le agrees.room
  have order : AgreeOn 0 workspace.span workspace.placed.order other.placed.order := by
    rw [Workspace.placed, Workspace.placed, agrees.incoming, agrees.active]
    exact agrees.order.swap agrees.inside last
  exact { agrees with order }

theorem settleEntry (agrees : Agrees workspace other) (some : 0 < workspace.active) :
    Agrees (workspace.settleEntry model) (other.settleEntry model) := by
  have placed := agrees.placed some
  have entered : other.constraintAt other.incoming = workspace.constraintAt workspace.incoming := by
    rw [agrees.incoming, agrees.constraintAt agrees.inside]
  rw [settleEntry_eq, settleEntry_eq, placed.secondStage, entered, agrees.active]
  split
  case isTrue =>
    split
    case isTrue both =>
      have inside : workspace.active - 1 - 1 + 1 < workspace.active := by omega
      exact (placed.exchange model inside).descend some
    case isFalse => exact placed.descend some
  case isFalse => exact placed.approach model some

/-- A constraint enters both active sets, or neither. -/
theorem activate (agrees : Agrees workspace other)
    (inactive : workspace.active ≤ workspace.incoming) :
    Results (activate model workspace) (activate model other) := by
  have aligned := agrees.aligned model
  have gradient := agrees.gradientAt model agrees.inside
  rw [activate_eq, activate_eq, agrees.incoming, gradient, agrees.alignBasis]
  split
  case isTrue =>
    have entered := aligned.enterDependent model
      (workspace.gradientAt model workspace.incoming)
    generalize outcome : Workspace.enterDependent model (workspace.aligned model)
      (workspace.gradientAt model workspace.incoming) = result at entered ⊢
    generalize Workspace.enterDependent model (other.aligned model)
      (workspace.gradientAt model workspace.incoming) = result' at entered ⊢
    obtain ⟨first, done⟩ := result
    obtain ⟨second, done'⟩ := result'
    obtain ⟨agree, rfl⟩ : Agrees first second ∧ done' = done := entered
    cases done' with
    | true =>
      have some := active_pos_of_enterDependent outcome
      obtain ⟨pivots, multipliers, candidates, trial, rfl⟩ := enterDependent_frame outcome
      exact ⟨agree.settleEntry model some, rfl⟩
    | false => exact ⟨agree, rfl⟩
  case isFalse =>
    exact ⟨(aligned.enterIndependent inactive _).settleEntry model (Nat.succ_pos _), rfl⟩

/-- **A revision of the active set goes the same way in both workspaces.** -/
theorem revise (agrees : Agrees workspace other) :
    Results (revise model workspace) (revise model other) := by
  rw [Workspace.revise, Workspace.revise, agrees.incoming, agrees.active]
  split
  case isTrue => exact agrees.deactivate model
  case isFalse inactive => exact agrees.activate model (Nat.le_of_not_lt inactive)

end Agrees

end Workspace

end DerivativeFree
