import DerivativeFree.Proofs.TrustRegion.Combination
import DerivativeFree.Proofs.TrustRegion.Guarded

/-!
# The balance of the first stage

The first stage lowers the greatest violation and keeps to the shortest step that does so.  The
violation is that of each active constraint, and the residual of another one is what its own falls
short of it (`Gauged`).  The step is the combination of the active gradients whose coefficients are
the multipliers, and the direction has no part outside of their span (`Balanced`).

Together with `Rising` this makes up what a turn of the first stage keeps (`Lowering`,
`Stage.lowering_turn`).  There is one condition.  When a constraint depends on the active ones, it
takes the place of the last of them, and the step remains balanced if it is the last one whose
multiplier allows no more (`LastLimits`).
-/

namespace DerivativeFree

set_option autoImplicit false

variable {α : Type} [EuclideanField α] {n m : Nat}

namespace Workspace

variable {model : LinearModel α n m} {workspace revised : Workspace α n m} {length : α} {k : Nat}

/-! ## The violation -/

/-- How much the constraint at a position is violated after the step. -/
def shortfall (model : LinearModel α n m) (workspace : Workspace α n m) (k : Nat) : α :=
  model.bounds.get (workspace.constraintAt k) - dot workspace.step (workspace.gradientAt model k)

/-- The violation is that of every active constraint, and a residual says how much less another
constraint is violated. -/
structure Gauged (model : LinearModel α n m) (workspace : Workspace α n m) : Prop where
  active : ∀ k < workspace.active, workspace.shortfall model k = workspace.violation
  inactive : ∀ k, workspace.active ≤ k → k < workspace.considered →
    entry workspace.multipliers k = workspace.violation - workspace.shortfall model k

namespace Gauged

/-- The constraint that is to enter or to leave is violated like the active ones. -/
theorem incoming (gauged : workspace.Gauged model) (factored : workspace.Factored model)
    (idle : entry workspace.multipliers workspace.incoming = 0) :
    workspace.shortfall model workspace.incoming = workspace.violation := by
  rcases Nat.lt_or_ge workspace.incoming workspace.active with among | inactive
  · exact gauged.active _ among
  · have residual := gauged.inactive _ inactive factored.inside
    rw [idle] at residual
    exact (sub_eq_zero.mp residual.symm).symm

theorem revise (gauged : workspace.Gauged model) (factored : workspace.Factored model)
    (idle : entry workspace.multipliers workspace.incoming = 0) :
    (workspace.revise model).1.Gauged model := by
  have rearranged := revise_rearranged factored
  have considered := considered_revise model workspace
  have incoming := gauged.incoming factored idle
  obtain ⟨step, violation⟩ := revise_frame model workspace
  generalize (workspace.revise model).1 = revised at *
  have shortfall : ∀ k j, revised.constraintAt k = workspace.constraintAt j →
      revised.shortfall model k = workspace.shortfall model j := by
    intro k j same
    rw [Workspace.shortfall, gradientAt, same, step, Workspace.shortfall, gradientAt]
  refine ⟨fun k inside => ?active, fun k after inside => ?inactive⟩
  case active =>
    obtain ⟨j, before | rfl, same⟩ := rearranged.active k inside
    · rw [shortfall k j same, violation]
      exact gauged.active j before
    · rw [shortfall k _ same, violation]
      exact incoming
  case inactive =>
    rw [considered] at inside
    rw [violation]
    rcases rearranged.inactive k after inside with
      ⟨j, beyond, within, same, kept⟩ | ⟨j, before, same, freed⟩
    · rw [kept, shortfall k j same]
      exact gauged.inactive j beyond within
    · rw [freed idle, shortfall k j same, gauged.active j before, sub_self]

end Gauged

/-! ## The balance -/

/-- The step is the combination of the active gradients with the multipliers, and the direction has
no component along the free columns. -/
structure Balanced (model : LinearModel α n m) (workspace : Workspace α n m) : Prop where
  combined : workspace.step = combination workspace.active (entry workspace.multipliers)
    (workspace.gradientAt model)
  straight : ∀ j, workspace.active ≤ j → dot (workspace.basisAt j) workspace.direction = 0

/-- The last active constraint is one whose multiplier allows no more when a constraint enters that
depends on the active ones. -/
def LastLimits (model : LinearModel α n m) (workspace : Workspace α n m) : Prop :=
  workspace.active ≤ workspace.incoming →
    (workspace.alignBasis (workspace.gradientAt model workspace.incoming)).2 = 0 →
      ∀ ratio, (dependence model (workspace.aligned model)
        (workspace.gradientAt model workspace.incoming)).ratio = some ratio →
          0 < entry (dependence model (workspace.aligned model)
            (workspace.gradientAt model workspace.incoming)).coefficients (workspace.active - 1) ∧
          entry workspace.multipliers (workspace.active - 1) =
            ratio * entry (dependence model (workspace.aligned model)
              (workspace.gradientAt model workspace.incoming)).coefficients (workspace.active - 1)

namespace Balanced

/-- The direction changes along the last active column alone. -/
theorem approach (balanced : workspace.Balanced model) (factored : workspace.Factored model)
    (some : 0 < workspace.active) : (workspace.approach model).Balanced model := by
  refine ⟨balanced.combined, fun j free => ?_⟩
  have beyond : workspace.active ≤ j := free
  have apart : dot (workspace.basisAt j) (workspace.basisAt (workspace.active - 1)) = 0 :=
    factored.ortho.apart (by omega)
  change dot (workspace.basisAt j) (workspace.direction - _ * _) = 0
  rw [dot_sub, dot_smul, balanced.straight j beyond, apart, mul_zero, sub_zero]

/-- The alignment of the free columns turns them among themselves. -/
theorem straight_aligned (balanced : workspace.Balanced model)
    (factored : workspace.Factored model) : ∀ j, workspace.active ≤ j →
      dot ((workspace.aligned model).basisAt j) workspace.direction = 0 :=
  (AlignedFrom.alignBasis factored.ortho (workspace.gradientAt model workspace.incoming)).blind _
    balanced.straight

/-- A constraint enters without a multiplier. -/
theorem added (balanced : workspace.Balanced model) (factored : workspace.Factored model)
    (inactive : workspace.active ≤ workspace.incoming) (component : α) :
    ((workspace.aligned model).enterIndependent component).placed.Balanced model := by
  have place : workspace.incoming < m + 1 := factored.inside.trans_le factored.most
  have last : workspace.active < m + 1 := inactive.trans_lt place
  have multiplier := entry_added model place last component
  have none := (multiplier workspace.active).trans (if_pos rfl)
  refine ⟨balanced.combined.trans (Eq.trans (combination_congr fun k before => ?_)
    (combination_succ none).symm),
    fun j free => balanced.straight_aligned factored j (Nat.le_of_succ_le free)⟩
  have gradient : gradientAt _ model k = _ :=
    gradientAt_swap ((workspace.aligned model).enterIndependent component) place last k
  rw [Equiv.swap_apply_of_ne_of_ne (before.trans_le inactive).ne before.ne] at gradient
  rw [multiplier, if_neg before.ne', if_neg (before.trans_le inactive).ne']
  exact ⟨rfl, gradient.symm⟩

/-- **A dependent constraint takes over the multiplier of the last active one**, if that limits how
far the multipliers may move. -/
theorem replaced (balanced : workspace.Balanced model) (factored : workspace.Factored model)
    (nonneg : workspace.Nonneg) (first : workspace.FirstStage) (limits : workspace.LastLimits model)
    (inactive : workspace.active ≤ workspace.incoming)
    (component : (workspace.alignBasis (workspace.gradientAt model workspace.incoming)).2 = 0)
    {dependent : Workspace α n m}
    (entered : enterDependent model (workspace.aligned model)
      (workspace.gradientAt model workspace.incoming) = (dependent, true)) :
    dependent.placed.Balanced model := by
  have some := active_pos_of_enterDependent entered
  have some : 0 < workspace.active := some
  obtain ⟨ratio, known, -, rfl⟩ := enterDependent_true entered
  obtain ⟨positive, limit⟩ := limits inactive component ratio known
  have place : workspace.incoming < m + 1 := factored.inside.trans_le factored.most
  have few : workspace.active ≤ m + 1 := factored.room.trans factored.most
  have turned := AlignedFrom.alignBasis factored.ortho
    (workspace.gradientAt model workspace.incoming)
  have free : ∀ j, workspace.active ≤ j → dot ((workspace.aligned model).basisAt j)
      (workspace.gradientAt model workspace.incoming) = 0 := by
    intro j free
    have known := turned.component j free
    rwa [component, ite_self] at known
  obtain ⟨expressed, limited⟩ := dependence_combination factored.aligned free
  have aligned : (workspace.aligned model).Nonneg := nonneg
  have least : 0 ≤ ratio := aligned.dependence_ratio factored.room _ known
  generalize dependence model (workspace.aligned model)
    (workspace.gradientAt model workspace.incoming) = found at *
  -- The least ratio leaves no multiplier below zero, and so nothing is cut off.
  have lowered : ∀ k < workspace.active,
      0 ≤ entry workspace.multipliers k - ratio * entry found.coefficients k := by
    intro k inside
    have constraint : (workspace.constraintAt k).val < m :=
      Fin.val_lt_last (first.constraint k (inside.trans_le first.active))
    rcases lt_or_ge 0 (entry found.coefficients k) with above | below
    · exact sub_nonneg.mpr (limited.least ratio known k (Nat.zero_le k) inside constraint above)
    · have none := mul_nonpos_of_nonneg_of_nonpos least below
      have before := nonneg k (inside.trans_le factored.room)
      linarith
  have last : workspace.active - 1 < m + 1 := by omega
  refine ⟨?combined, fun j free => balanced.straight_aligned factored j free⟩
  have replaced := combination_replace some expressed limit
  refine balanced.combined.trans (replaced.trans (combination_congr fun k inside => ⟨?_, ?_⟩))
  · change _ = entry ((((workspace.aligned model).lowered found ratio).setIfInBounds
      workspace.incoming 0).setIfInBounds (workspace.active - 1) ratio) k
    have other : workspace.incoming ≠ k := (inside.trans_le inactive).ne'
    rw [entry_setIfInBounds _ last, entry_setIfInBounds _ place, if_neg other]
    refine if_congr eq_comm rfl ?_
    have inside : k < (workspace.aligned model).active := inside
    rw [entry_lowered found ratio (inside.trans_le few), if_pos inside]
    exact (max_eq_left (lowered k inside)).symm
  · refine Eq.trans ?_ (gradientAt_swap _ place last k : gradientAt _ model k = _).symm
    split_ifs with here
    · rw [here, Equiv.swap_apply_right]
      rfl
    · rw [Equiv.swap_apply_of_ne_of_ne (inside.trans_le inactive).ne here]
      rfl

/-- The free columns are left alone when a constraint leaves. -/
theorem released_frame (factored : workspace.Factored model) :
    (workspace.released model).direction = workspace.direction ∧
      (workspace.released model).step = workspace.step ∧
      ∀ j, workspace.active ≤ j → (workspace.released model).basisAt j = workspace.basisAt j := by
  have exchanges : ∀ (positions : List Nat) (state : Workspace α n m), state.active ≤ n →
      (∀ k ∈ positions, k + 1 < state.active) →
        (positions.foldl (exchange model) state).direction = state.direction ∧
        (positions.foldl (exchange model) state).step = state.step ∧
        ∀ j, state.active ≤ j →
          (positions.foldl (exchange model) state).basisAt j = state.basisAt j := by
    intro positions
    induction positions with
    | nil => exact fun state _ _ => ⟨rfl, rfl, fun _ _ => rfl⟩
    | cons k positions ih =>
      intro state few inside
      have here := inside k List.mem_cons_self
      obtain ⟨direction, step, columns⟩ := ih (exchange model state k) few
        fun later among => inside later (List.mem_cons_of_mem k among)
      refine ⟨direction, step, fun j free => (columns j free).trans ?_⟩
      rw [basisAt_exchange state (here.trans_le few), if_neg (by omega), if_neg (by omega)]
  refine exchanges _ workspace factored.few fun k among => ?_
  have bounded := List.mem_range'_1.mp among
  omega

/-- A constraint leaves without a multiplier, and the direction gives up its column. -/
theorem released (balanced : workspace.Balanced model) (factored : workspace.Factored model)
    (among : workspace.incoming < workspace.active)
    (idle : entry workspace.multipliers workspace.incoming = 0) :
    (workspace.released model).recede.Balanced model := by
  obtain ⟨σ, fixed, last, permuted⟩ :=
    permuted_released model among (factored.room.trans factored.most)
  obtain ⟨direction, step, columns⟩ := released_frame factored
  have fewer : (workspace.released model).active = workspace.active - 1 :=
    congrArg (· - 1) (active_exchanges model workspace _)
  have whole : workspace.active - 1 + 1 = workspace.active := by omega
  have ortho := factored.released.ortho
  constructor
  case combined =>
    have none : entry (workspace.released model).multipliers (workspace.active - 1) = 0 := by
      rw [(permuted _).2, last, idle]
    have same : workspace.step = combination workspace.active
        (entry (workspace.released model).multipliers)
        ((workspace.released model).gradientAt model) := by
      rw [balanced.combined, ← combination_permuted fixed]
      refine combination_congr fun k _ => ⟨(permuted k).2.symm, ?_⟩
      rw [gradientAt, gradientAt, (permuted k).1]
    rw [← whole, combination_succ none, ← fewer] at same
    exact step.trans same
  case straight =>
    intro j free
    have free : (workspace.released model).active ≤ j := free
    change dot ((workspace.released model).basisAt j) ((workspace.released model).direction -
      dot (workspace.released model).direction ((workspace.released model).basisAt
        (workspace.released model).active) *
      (workspace.released model).basisAt (workspace.released model).active) = 0
    rw [dot_sub, dot_smul]
    rcases Nat.eq_or_lt_of_le free with rfl | beyond
    · have unit : dot ((workspace.released model).basisAt (workspace.released model).active)
          ((workspace.released model).basisAt (workspace.released model).active) = 1 :=
        ortho.self (by have few := factored.few; omega)
      rw [unit, mul_one, dot_comm, sub_self]
    · have apart : dot ((workspace.released model).basisAt j)
          ((workspace.released model).basisAt (workspace.released model).active) = 0 :=
        ortho.apart beyond.ne'
      rw [apart, mul_zero, sub_zero, direction, columns j (by omega)]
      exact balanced.straight j (by omega)

theorem revise (balanced : workspace.Balanced model) (factored : workspace.Factored model)
    (nonneg : workspace.Nonneg) (first : workspace.FirstStage) (limits : workspace.LastLimits model)
    (idle : entry workspace.multipliers workspace.incoming = 0)
    (revision : workspace.revise model = (revised, true)) : revised.Balanced model := by
  have early := first.not_secondStage
  have settled : ∀ entered : Workspace α n m, entered.secondStage = false → 0 < entered.active →
      entered.placed.Factored model → entered.placed.Balanced model →
        (entered.settleEntry model).Balanced model := by
    intro entered early some placed balanced
    have same : ¬ entered.placed.secondStage = true := Bool.eq_false_iff.mp early
    rw [settleEntry_eq, if_neg same]
    exact balanced.approach placed some
  have outcome := revise_outcome model workspace
  rw [revision] at outcome
  cases outcome with
  | left second =>
    rw [second] at early
    cases early
  | receded _ among => exact balanced.released factored among idle
  | replaced inactive component entered =>
    have placed := factored.replaced inactive rfl component entered
    have replaced := balanced.replaced factored nonneg first limits inactive component entered
    obtain ⟨multipliers, candidates, trial, rfl, outcome⟩ := enterDependent_outcome entered
    exact settled _ early (outcome rfl).1 placed replaced
  | added inactive component =>
    exact settled _ early (Nat.succ_pos _) (factored.added inactive rfl component)
      (balanced.added factored inactive _)

end Balanced

/-! ## Walks -/

/-- The workspace with the whole trial step taken. -/
def arrived (workspace : Workspace α n m) : Workspace α n m :=
  { workspace with step := workspace.trial, multipliers := workspace.candidates }

/-- What is balanced before a walk and at the end of it is balanced after the part that is
taken. -/
theorem Balanced.advance (balanced : workspace.Balanced model)
    (ends : workspace.arrived.Balanced model) (factored : workspace.Factored model)
    (nonneg : workspace.Nonneg) (before : α) :
    (workspace.advance workspace.blocking.1 before).Balanced model := by
  refine ⟨?_, balanced.straight⟩
  have start := balanced.combined
  have finish : workspace.trial = combination workspace.active (entry workspace.candidates)
    (workspace.gradientAt model) := ends.combined
  have step : (workspace.advance workspace.blocking.1 before).step =
      combination workspace.active (fun k => (1 - workspace.blocking.1) *
        entry workspace.multipliers k + workspace.blocking.1 * entry workspace.candidates k)
          (workspace.gradientAt model) := by
    rw [← combination_mix, ← start, ← finish]
    rfl
  refine step.trans (combination_congr fun k inside => ⟨?_, rfl⟩)
  exact (entry_advance_blocking nonneg before (inside.trans_le factored.room) factored.most).symm

theorem shortfall_advance (workspace : Workspace α n m) (part before : α) (k : Nat) :
    (workspace.advance part before).shortfall model k =
      (1 - part) * workspace.shortfall model k + part * workspace.arrived.shortfall model k := by
  have slope := slope_advance model workspace part before (workspace.constraintAt k)
  have step : (workspace.advance part before).shortfall model k =
    model.bounds.get (workspace.constraintAt k) -
      model.slope (workspace.constraintAt k) (workspace.advance part before).step := rfl
  rw [step, slope]
  simp only [shortfall, arrived, LinearModel.slope, gradientAt, constraintAt]
  ring

/-- What is gauged before a walk and at the end of it is gauged after the part that is taken. -/
theorem Gauged.advance {before : α} (gauged : Gauged model { workspace with violation := before })
    (ends : workspace.arrived.Gauged model) (first : workspace.secondStage = false)
    (nonneg : workspace.Nonneg) (most : workspace.considered ≤ m + 1) :
    (workspace.advance workspace.blocking.1 before).Gauged model := by
  have violation : (workspace.advance workspace.blocking.1 before).violation =
      (1 - workspace.blocking.1) * before + workspace.blocking.1 * workspace.violation := by
    simp only [Workspace.advance, first, Bool.false_eq_true, if_false]
    ring
  refine ⟨fun k inside => ?active, fun k inactive inside => ?inactive⟩
  case active =>
    have start : workspace.shortfall model k = before := gauged.active k inside
    have finish : workspace.arrived.shortfall model k = workspace.violation := ends.active k inside
    rw [shortfall_advance, violation, start, finish]
  case inactive =>
    have start : entry workspace.multipliers k = before - workspace.shortfall model k :=
      gauged.inactive k inactive inside
    have finish : entry workspace.candidates k =
      workspace.violation - workspace.arrived.shortfall model k := ends.inactive k inactive inside
    rw [shortfall_advance, violation, entry_advance_blocking nonneg _ inside most, start, finish]
    ring

/-- At the end of a walk the candidates are the multipliers. -/
theorem Balanced.judged (balanced : workspace.Balanced model)
    (factored : workspace.Factored model) (first : workspace.secondStage = false) (length : α) :
    (workspace.judged model length).arrived.Balanced model := by
  have walk : ¬ (workspace.walk length).secondStage = true := Bool.eq_false_iff.mp first
  have straight : ∀ j, workspace.active ≤ j →
      dot (workspace.basisAt j) (workspace.walk length).trial = 0 := by
    intro j free
    rw [Workspace.walk, dot_add, dot_smul, balanced.straight j free, balanced.combined,
      factored.dot_combination_free free, mul_zero, add_zero]
  rw [Workspace.judged, walked, if_neg walk]
  have walked : Factored model { workspace.walk length with
      violation := (workspace.walk length).trialViolation model } :=
    factored.frame _ _ _ _ _ _ factored.inside
  have found := candidates_combination walked first straight
  exact ⟨found, balanced.straight⟩

/-- At the end of a walk the violation of all active constraints has fallen at unit rate. -/
theorem Gauged.judged (gauged : workspace.Gauged model) (steady : workspace.Steady model)
    (first : workspace.secondStage = false) (most : workspace.considered ≤ m + 1)
    (short : length ≤ workspace.violation) :
    (workspace.judged model length).arrived.Gauged model ∧ (0 < workspace.active →
      (workspace.judged model length).violation = workspace.violation - length) := by
  have term : ∀ k < workspace.active, model.bounds.get (workspace.constraintAt k) -
      dot (workspace.walk length).trial (workspace.gradientAt model k) =
        workspace.violation - length := by
    intro k inside
    have tight := gauged.active k inside
    rw [shortfall] at tight
    rw [Workspace.walk, add_dot, smul_dot, steady k inside, mul_one, ← tight]
    ring
  have left : 0 < workspace.active →
      (workspace.judged model length).violation = workspace.violation - length := by
    intro some
    rw [judged_violation first]
    refine le_antisymm (largestFrom_le_iff.mpr
      ⟨sub_nonneg.mpr short, fun k => (term k k.isLt).le⟩) ?_
    have bound := (largestFrom_le_iff.mp
      (le_refl (trialViolation model (workspace.walk length)))).2 ⟨0, some⟩
    exact (term 0 some).ge.trans bound
  have residual : ∀ k, workspace.active ≤ k → k < workspace.considered →
      entry (workspace.judged model length).candidates k =
        (workspace.judged model length).violation -
          (model.bounds.get (workspace.constraintAt k) -
            dot (workspace.judged model length).trial (workspace.gradientAt model k)) := by
    intro k inactive inside
    rw [judged_candidate inactive inside (inside.trans_le most), dot_comm, gradientAt]
    ring
  have ends : (workspace.judged model length).trial = (workspace.walk length).trial :=
    judged_trial ..
  refine ⟨?_, left⟩
  obtain ⟨candidates, trial, violation, judged⟩ := workspace.judged_frame model length
  rw [judged] at left residual ends ⊢
  refine ⟨fun k inside => ?_, residual⟩
  have inside : k < workspace.active := inside
  exact ((congrArg (fun v => model.bounds.get (workspace.constraintAt k) -
    dot v (workspace.gradientAt model k)) ends).trans (term k inside)).trans
      (left (Nat.zero_lt_of_lt inside)).symm

/-! ## Turns -/

/-- A first stage that goes on, with the gauge and the balance. -/
structure Poised (model : LinearModel α n m) (workspace : Workspace α n m) : Prop where
  rising : workspace.Rising model
  gauged : workspace.Gauged model
  balanced : workspace.Balanced model

/-- A first stage between two turns: the constraint that is to enter or to leave has no multiplier
or residual. -/
structure Lowering (model : LinearModel α n m) (workspace : Workspace α n m) : Prop where
  poised : workspace.Poised model
  idle : entry workspace.multipliers workspace.incoming = 0

theorem Poised.nonneg (poised : workspace.Poised model) : workspace.Nonneg :=
  poised.rising.orderly.nonneg_all poised.rising.first.considered

theorem Lowering.revise (lowering : workspace.Lowering model) (limits : workspace.LastLimits model)
    (revision : workspace.revise model = (revised, true)) : revised.Poised model := by
  have nonneg := lowering.poised.nonneg
  obtain ⟨⟨rising, gauged, balanced⟩, idle⟩ := lowering
  have gauge := gauged.revise rising.factored idle
  rw [revision] at gauge
  exact ⟨rising.revise revision, gauge,
    balanced.revise rising.factored nonneg rising.first limits idle revision⟩

/-- A walk that is not longer than the violation keeps the gauge. -/
theorem Gauged.walk (gauged : workspace.Gauged model) (rising : workspace.Rising model)
    (short : length ≤ workspace.violation) :
    let judged := workspace.judged model length
    (judged.advance judged.blocking.1 workspace.violation).Gauged model := by
  have nonneg := rising.orderly.nonneg_all rising.first.considered
  have first := rising.first.not_secondStage
  have factored := rising.factored
  have gauge := (gauged.judged rising.steady first factored.most short).1
  obtain ⟨candidates, trial, violation, judged⟩ := workspace.judged_frame model length
  rw [judged] at gauge ⊢
  have still : Nonneg { workspace with candidates, trial, violation } := nonneg
  have before : Gauged model { workspace with candidates, trial } :=
    ⟨gauged.active, gauged.inactive⟩
  exact before.advance gauge first still factored.most

/-- A walk that is not longer than the violation keeps the gauge and the balance. -/
theorem Poised.walk (poised : workspace.Poised model) (short : length ≤ workspace.violation) :
    let judged := workspace.judged model length
    (judged.advance judged.blocking.1 workspace.violation).Gauged model ∧
      (judged.advance judged.blocking.1 workspace.violation).Balanced model := by
  have nonneg := poised.nonneg
  obtain ⟨rising, gauged, balanced⟩ := poised
  have factored := rising.factored
  refine ⟨gauged.walk rising short, ?_⟩
  have balance := balanced.judged factored rising.first.not_secondStage length
  obtain ⟨candidates, trial, violation, judged⟩ := workspace.judged_frame model length
  rw [judged] at balance ⊢
  have still : Nonneg { workspace with candidates, trial, violation } := nonneg
  have level : Balanced model { workspace with candidates, trial, violation } :=
    ⟨balanced.combined, balanced.straight⟩
  exact level.advance balance (factored.frame _ _ _ _ _ _ factored.inside) still _

end Workspace

namespace Stage

variable {model : LinearModel α n m} {stage next : Stage α n m} {radius : α}

/-- **A turn of the first stage keeps the gauge and the balance.** -/
theorem lowering_turn (lowering : stage.workspace.Lowering model)
    (limits : stage.workspace.LastLimits model) (turned : stage.turn model radius = .another next) :
    next.workspace.Lowering model := by
  have rising := rising_turn lowering.poised.rising turned
  obtain ⟨revised, length, position, ⟨-, revision, -, -, short, blocked⟩, same⟩ :=
    turn_blocked turned
  have poised := lowering.revise limits revision
  have factored := poised.rising.factored
  obtain ⟨gauged, balanced⟩ := poised.walk (short poised.rising.first.not_secondStage)
  have zero := (Workspace.nonneg_blocked poised.nonneg factored.most blocked revised.violation).2
  refine ⟨⟨rising, ?_, ?_⟩, ?_⟩
  · rw [same]
    exact ⟨gauged.active, gauged.inactive⟩
  · rw [same]
    exact ⟨balanced.combined, balanced.straight⟩
  · rw [same]
    exact zero

end Stage

end DerivativeFree
