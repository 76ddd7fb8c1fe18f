import DerivativeFree.Proofs.TrustRegion.Descent
import DerivativeFree.Proofs.TrustRegion.Factorization

/-!
# The objective among the active constraints

In the second stage the last active constraint is meant to be the objective, so that the direction
lowers it at unit rate and keeps to the other active constraints (`Leads`).  A revision takes care
of that by an exchange in the end, but there is one case in which it comes too late.  A constraint
whose gradient depends on the active ones takes the place of the last of them, and then it is the
objective that has become inactive (`EntersDependent`).

Every other revision lets the objective stay (`leads_revise_iff`).  So it leads throughout a
step if and only if no such constraint enters (`objective_leads_iff`).  A dependent constraint
enters only where another one is active, and so a single constraint cannot displace the objective
(`holdsThroughout_of_few`).  In the corner of two constraints one enters, and the search goes on
along the other constraint (`objective_displaced`).
-/

namespace DerivativeFree

set_option autoImplicit false

variable {α : Type} [EuclideanField α] {n m : Nat}

/-! ## Spans of leading columns -/

/-- **The leading columns span what the other columns are orthogonal to.** -/
theorem OrthonormalColumns.mem_span_iff {basis : Vector (Vector α n) n}
    (ortho : OrthonormalColumns basis) {count : Nat} (few : count ≤ n) (v : Vector α n) :
    v.get ∈ Submodule.span α ((fun i => (columnAt basis i).get) '' Set.Iio count) ↔
      ∀ j, count ≤ j → dot (columnAt basis j) v = 0 := by
  constructor
  · intro spanned j behind
    rw [dot_eq_sum]
    generalize v.get = u at spanned ⊢
    induction spanned using Submodule.span_induction with
    | mem w among =>
      obtain ⟨i, before, rfl⟩ := among
      have other : j ≠ i := (lt_of_lt_of_le before behind).ne'
      exact (dot_eq_sum _ _).symm.trans (ortho.apart other)
    | zero => simp
    | add w w' _ _ first second =>
      simp only [Pi.add_apply, mul_add, Finset.sum_add_distrib, first, second, add_zero]
    | smul c w _ ih =>
      simp only [Pi.smul_apply, smul_eq_mul, mul_left_comm _ c, ← Finset.mul_sum, ih, mul_zero]
  · intro orthogonal
    have whole : v = combination count (fun i => dot (columnAt basis i) v) (columnAt basis) :=
      ortho.eq_combination few orthogonal
    have sum : v.get = ∑ i ∈ Finset.range count,
        dot (columnAt basis i) v • (columnAt basis i).get := by
      funext l
      nth_rewrite 1 [whole]
      simp [combination]
    rw [sum]
    refine Submodule.sum_mem _ fun i among => Submodule.smul_mem _ _ (Submodule.subset_span ?_)
    exact Set.mem_image_of_mem _ (Finset.mem_range.mp among)

namespace Workspace

variable {model : LinearModel α n m} {workspace revised : Workspace α n m} {k : Nat}

/-- **A gradient has no component beside the active ones if and only if it depends on them.** -/
theorem Factored.component_eq_zero_iff (factored : workspace.Factored model)
    (gradient : Vector α n) : (workspace.alignBasis gradient).2 = 0 ↔
      gradient.get ∈ Submodule.span α
        ((fun i => (workspace.gradientAt model i).get) '' Set.Iio workspace.active) := by
  have turned := AlignedFrom.alignBasis factored.ortho gradient
  have leading : (fun i => (columnAt (workspace.alignBasis gradient).1 i).get) ''
        Set.Iio workspace.active =
      (fun i => (workspace.basisAt i).get) '' Set.Iio workspace.active :=
    Set.image_congr fun i before => congrArg Vector.get (turned.before i before)
  rw [← factored.span_eq le_rfl, ← leading, turned.ortho.mem_span_iff factored.few]
  constructor
  · intro none j behind
    rw [turned.component j behind, none, ite_self]
  · intro orthogonal
    have first := turned.component workspace.active le_rfl
    rw [if_pos rfl] at first
    exact first.symm.trans (orthogonal workspace.active le_rfl)

/-! ## The last active constraint -/

/-- The objective is the last active constraint. -/
structure ObjectiveLast (workspace : Workspace α n m) : Prop where
  some : 0 < workspace.active
  last : workspace.constraintAt (workspace.active - 1) = Fin.last m

/-- A constraint is to enter whose gradient depends on the active ones. -/
structure EntersDependent (model : LinearModel α n m) (workspace : Workspace α n m) : Prop where
  inactive : workspace.active ≤ workspace.incoming
  constraint : workspace.constraintAt workspace.incoming ≠ Fin.last m
  dependent : (workspace.gradientAt model workspace.incoming).get ∈ Submodule.span α
    ((fun i => (workspace.gradientAt model i).get) '' Set.Iio workspace.active)

/-- The objective is not active but as the last constraint, and then it does not leave. -/
structure ObjectiveStays (workspace : Workspace α n m) : Prop where
  position : ∀ k < workspace.active, workspace.constraintAt k = Fin.last m →
    k = workspace.active - 1
  stays : workspace.incoming < workspace.active →
    workspace.constraintAt workspace.incoming ≠ Fin.last m

omit [EuclideanField α] in
theorem Listed.position_eq (listed : workspace.Listed) {j : Nat}
    (inside : k < workspace.considered) (within : j < workspace.considered)
    (same : workspace.constraintAt k = workspace.constraintAt j) : k = j :=
  listed.injOn inside within (congrArg Fin.val same)

/-- The constraint that was the last active one is so still, when one before it has left. -/
theorem constraintAt_released (model : LinearModel α n m)
    (earlier : workspace.incoming < workspace.active - 1) (few : workspace.active ≤ m + 1) :
    (workspace.released model).constraintAt (workspace.active - 1 - 1) =
      workspace.constraintAt (workspace.active - 1) := by
  obtain ⟨length, total⟩ := Nat.exists_eq_add_of_lt earlier
  have chain : workspace.active - 1 - workspace.incoming = length + 1 := by omega
  have place : workspace.active - 1 - 1 = workspace.incoming + length := by omega
  obtain ⟨σ, beyond, -, permuted⟩ :=
    permuted_exchanges model workspace workspace.incoming length (by omega)
  have last := permuted_exchange model
    ((List.range' workspace.incoming length).foldl (exchange model) workspace)
    (by omega : workspace.incoming + length < m)
  simp only [released, chain, List.range'_1_concat, List.foldl_append, List.foldl_cons,
    List.foldl_nil]
  rw [place]
  refine (last (workspace.incoming + length)).1.trans ?_
  rw [Equiv.swap_apply_left, (permuted _).1, beyond _ (Nat.lt_succ_self _)]
  exact congrArg workspace.constraintAt (by omega)

/-- The constraint that enters comes last, or behind it the one that was last before. -/
theorem constraintAt_settleEntry (model : LinearModel α n m)
    (second : workspace.secondStage = true) (place : workspace.incoming < m + 1)
    (few : workspace.active - 1 ≤ workspace.incoming) (position : Nat) :
    (workspace.settleEntry model).constraintAt position = workspace.constraintAt
      (Equiv.swap workspace.incoming (workspace.active - 1)
        (if workspace.constraintAt workspace.incoming ≠ Fin.last m ∧ 1 ≤ workspace.active - 1 then
          Equiv.swap (workspace.active - 1 - 1) (workspace.active - 1) position
        else position)) := by
  have placed : workspace.placed.secondStage = true := second
  have swapped := constraintAt_swap workspace place (few.trans_lt place)
  rw [settleEntry_eq, if_pos placed]
  split
  case isTrue among =>
    have exchanged := permuted_exchange model workspace.placed
      (by omega : workspace.active - 1 - 1 < m)
    rw [Nat.sub_add_cancel among.2] at exchanged
    exact (exchanged position).1.trans (swapped _)
  case isFalse => exact swapped position

/-- After an entry the objective is last if it has entered, or was the last one before. -/
theorem objectiveLast_settleEntry (model : LinearModel α n m)
    (second : workspace.secondStage = true) (place : workspace.incoming < m + 1)
    (few : workspace.active - 1 ≤ workspace.incoming) (some : 0 < workspace.active) :
    (workspace.settleEntry model).ObjectiveLast ↔
      workspace.constraintAt workspace.incoming = Fin.last m ∨
        1 < workspace.active ∧ workspace.constraintAt (workspace.active - 1 - 1) = Fin.last m := by
  have active := active_settleEntry model workspace
  have known := constraintAt_settleEntry model second place few (workspace.active - 1)
  have last : (workspace.settleEntry model).ObjectiveLast ↔
      (workspace.settleEntry model).constraintAt (workspace.active - 1) = Fin.last m := by
    constructor
    · rintro ⟨-, last⟩
      rwa [active] at last
    · intro last
      exact ⟨active.symm ▸ some, active.symm ▸ last⟩
  rw [last, known]
  by_cases objective : workspace.constraintAt workspace.incoming = Fin.last m
  · rw [if_neg fun entered => entered.1 objective, Equiv.swap_apply_right]
    exact iff_of_true objective (.inl objective)
  · rcases Nat.lt_or_ge 1 workspace.active with among | only
    · rw [if_pos ⟨objective, by omega⟩, Equiv.swap_apply_right,
        Equiv.swap_apply_of_ne_of_ne (by omega) (by omega)]
      exact ⟨fun last => .inr ⟨among, last⟩, fun last => (last.resolve_left objective).2⟩
    · rw [if_neg (by omega), Equiv.swap_apply_right]
      exact iff_of_false objective (by omega)

/-- If the objective was the last active constraint before an entry, or not active at all, then it
is active afterwards only as the last one. -/
theorem position_settleEntry (model : LinearModel α n m)
    (second : workspace.secondStage = true) (place : workspace.incoming < m + 1)
    (few : workspace.active - 1 ≤ workspace.incoming)
    (before : ∀ k < workspace.active - 1, workspace.constraintAt k = Fin.last m →
      k = workspace.active - 1 - 1 ∧ workspace.constraintAt workspace.incoming ≠ Fin.last m)
    (inside : k < workspace.active)
    (last : (workspace.settleEntry model).constraintAt k = Fin.last m) :
    k = workspace.active - 1 := by
  rw [constraintAt_settleEntry model second place few] at last
  split at last
  case isTrue entered =>
    rcases Nat.lt_or_ge k (workspace.active - 1 - 1) with earlier | late
    · have here : Equiv.swap (workspace.active - 1 - 1) (workspace.active - 1) k = k :=
        Equiv.swap_apply_of_ne_of_ne (by omega) (by omega)
      rw [here, Equiv.swap_apply_of_ne_of_ne (by omega) (by omega)] at last
      have own := (before k (by omega) last).1
      omega
    · by_contra other
      obtain rfl : k = workspace.active - 1 - 1 := by omega
      rw [Equiv.swap_apply_left, Equiv.swap_apply_right] at last
      exact entered.1 last
  case isFalse alone =>
    by_contra other
    rw [Equiv.swap_apply_of_ne_of_ne (by omega) other] at last
    exact alone ⟨(before k (by omega) last).2, by omega⟩

/-! ## Revisions -/

omit [EuclideanField α] in
theorem ObjectiveLast.congr {other : Workspace α n m} (order : other.order = workspace.order)
    (active : other.active = workspace.active) : other.ObjectiveLast ↔ workspace.ObjectiveLast := by
  constructor
  · rintro ⟨some, last⟩
    rw [constraintAt, order, active] at last
    exact ⟨active ▸ some, last⟩
  · rintro ⟨some, last⟩
    refine ⟨active ▸ some, ?_⟩
    rw [constraintAt, order, active]
    exact last

namespace ObjectiveStays

section Released

variable (stays : workspace.ObjectiveStays) (factored : workspace.Factored model)
  (among : workspace.incoming < workspace.active)

include stays factored among

/-- If the objective is active when a constraint has left, then it was the last one before and is
so still. -/
theorem released (inside : k < workspace.active - 1)
    (last : (workspace.released model).constraintAt k = Fin.last m) :
    workspace.ObjectiveLast ∧ k = workspace.active - 1 - 1 := by
  have few : workspace.active ≤ m + 1 := factored.room.trans factored.most
  obtain ⟨σ, fixed, -, permuted⟩ := permuted_released model among few
  have origin : ∀ j < workspace.active,
      (workspace.released model).constraintAt j = Fin.last m → σ j = workspace.active - 1 := by
    intro j within known
    exact stays.position (σ j) (lt_of_fixed fixed within) ((permuted j).1.symm.trans known)
  have own := origin k (by omega) last
  have before : workspace.constraintAt (workspace.active - 1) = Fin.last m := by
    rw [← own, ← (permuted k).1, last]
  have earlier : workspace.incoming < workspace.active - 1 := by
    refine Nat.lt_of_le_of_ne (Nat.le_sub_one_of_lt among) fun leaves => ?_
    exact stays.stays among (leaves ▸ before)
  have after := origin (workspace.active - 1 - 1) (by omega)
    ((constraintAt_released model earlier few).trans before)
  exact ⟨⟨by omega, before⟩, σ.injective (own.trans after.symm)⟩

theorem objectiveLast_released :
    (workspace.released model).ObjectiveLast ↔ workspace.ObjectiveLast := by
  have fewer : (workspace.released model).active = workspace.active - 1 :=
    congrArg (· - 1) (active_exchanges model workspace _)
  constructor
  · rintro ⟨some, last⟩
    rw [fewer] at some last
    exact (stays.released factored among (Nat.sub_lt some Nat.one_pos) last).1
  · rintro ⟨some, last⟩
    have earlier : workspace.incoming < workspace.active - 1 := by
      refine Nat.lt_of_le_of_ne (Nat.le_sub_one_of_lt among) fun leaves => ?_
      exact stays.stays among (leaves ▸ last)
    have kept := constraintAt_released model earlier (factored.room.trans factored.most)
    exact ⟨by omega, fewer.symm ▸ kept.trans last⟩

end Released

section Revised

variable (stays : workspace.ObjectiveStays) (factored : workspace.Factored model)
  (second : workspace.secondStage = true) (revision : workspace.revise model = (revised, true))

include stays factored second revision

/-- **The objective is the last active constraint after a revision if it has entered, or if it was
so before and no dependent constraint has entered.** -/
theorem objectiveLast_revise : revised.ObjectiveLast ↔
    workspace.constraintAt workspace.incoming = Fin.last m ∨
      workspace.ObjectiveLast ∧ ¬ workspace.EntersDependent model := by
  have place : workspace.incoming < m + 1 := factored.inside.trans_le factored.most
  have outcome := revise_outcome model workspace
  rw [revision] at outcome
  cases outcome with
  | left _ rest among =>
    have independent : ¬ workspace.EntersDependent model :=
      fun enters => absurd enters.inactive (not_le.mpr among)
    have kept : (workspace.released model).descend.ObjectiveLast ↔
      (workspace.released model).ObjectiveLast := ObjectiveLast.congr rfl rfl
    rw [kept, stays.objectiveLast_released factored among, or_iff_right (stays.stays among),
      and_iff_left independent]
  | receded first =>
    rw [second] at first
    cases first
  | replaced inactive component entered =>
    obtain ⟨multipliers, candidates, trial, rfl, outcome⟩ := enterDependent_outcome entered
    have some : 0 < workspace.active := (outcome rfl).1
    have displaced : workspace.constraintAt (workspace.active - 1 - 1) = Fin.last m →
        ¬ 1 < workspace.active := by
      intro last among
      have own := stays.position _ (by omega) last
      omega
    have enters : workspace.constraintAt workspace.incoming ≠ Fin.last m →
        workspace.EntersDependent model :=
      fun constraint => ⟨inactive, constraint, (factored.component_eq_zero_iff _).mp component⟩
    refine (objectiveLast_settleEntry model ?_ ?_ ?_ ?_).trans ?_
    · exact second
    · exact place
    · exact (Nat.sub_le _ 1).trans inactive
    · exact some
    · refine or_congr_right' fun constraint => iff_of_false ?_ ?_
      · exact fun earlier => displaced earlier.2 earlier.1
      · exact fun last => last.2 (enters constraint)
  | added inactive component =>
    have independent : ¬ workspace.EntersDependent model :=
      fun enters => component ((factored.component_eq_zero_iff _).mpr enters.dependent)
    rw [and_iff_left independent]
    refine (objectiveLast_settleEntry model ?_ ?_ ?_ ?_).trans (or_congr_right ⟨?_, ?_⟩)
    · exact second
    · exact place
    · exact inactive
    · exact Nat.succ_pos _
    · rintro ⟨some, last⟩
      exact ⟨Nat.lt_of_succ_lt_succ some, last⟩
    · rintro ⟨some, last⟩
      exact ⟨Nat.succ_lt_succ some, last⟩

/-- **After a revision the objective is not active but as the last constraint.** -/
theorem revise (listed : workspace.Listed) (inside : k < revised.active)
    (last : revised.constraintAt k = Fin.last m) : k = revised.active - 1 := by
  have place : workspace.incoming < m + 1 := factored.inside.trans_le factored.most
  have outcome := revise_outcome model workspace
  rw [revision] at outcome
  cases outcome with
  | left _ rest among =>
    have fewer : (workspace.released model).active = workspace.active - 1 :=
      congrArg (· - 1) (active_exchanges model workspace _)
    have inside : k < (workspace.released model).active := inside
    rw [fewer] at inside
    exact (stays.released factored among inside last).2.trans (congrArg (· - 1) fewer.symm)
  | receded first =>
    rw [second] at first
    cases first
  | replaced inactive component entered =>
    obtain ⟨multipliers, candidates, trial, rfl, outcome⟩ := enterDependent_outcome entered
    rw [active_settleEntry] at inside ⊢
    refine position_settleEntry model ?_ ?_ ?_ ?_ inside last
    · exact second
    · exact place
    · exact (Nat.sub_le _ 1).trans inactive
    · intro j earlier objective
      have earlier : j < workspace.active - 1 := earlier
      exact absurd (stays.position j (by omega) objective) earlier.ne
  | added inactive component =>
    rw [active_settleEntry] at inside ⊢
    refine position_settleEntry model ?_ ?_ ?_ ?_ inside last
    · exact second
    · exact place
    · exact inactive
    · intro j earlier objective
      have earlier : j < workspace.active := earlier
      refine ⟨stays.position j earlier objective, fun incoming => ?_⟩
      have same := listed.position_eq (earlier.trans_le factored.room) factored.inside
        (Eq.trans objective incoming.symm)
      omega

end Revised

end ObjectiveStays

/-! ## Turns -/

/-- The second stage begins without the objective among the active constraints. -/
theorem objectiveStays_includeObjective (listed : workspace.Listed)
    (considered : workspace.considered = m) (few : workspace.active ≤ m) :
    workspace.includeObjective.ObjectiveStays where
  position k inside last := by
    have inside : k < workspace.active := inside
    have before : k < m := inside.trans_le few
    rw [constraintAt_includeObjective, if_neg before.ne] at last
    have other : (workspace.constraintAt k).val < m := by
      have among := listed.mapsTo (considered.symm ▸ before : k ∈ Set.Iio workspace.considered)
      rwa [considered] at among
    exact absurd (congrArg Fin.val last) other.ne
  stays among := absurd among (not_lt.mpr few)

end Workspace

namespace Stage

open Workspace

variable {model : LinearModel α n m} {stage next : Stage α n m} {radius : α}

/-- A walk is not blocked by the objective while that is active. -/
theorem objectiveStays_turn (stays : stage.workspace.ObjectiveStays)
    (listed : stage.workspace.Listed) (factored : stage.workspace.Factored model)
    (second : stage.workspace.secondStage = true)
    (turned : stage.turn model radius = .another next) : next.workspace.ObjectiveStays := by
  obtain ⟨revised, length, position, ⟨-, revision, -, -, -, blocked⟩, same⟩ := turn_blocked turned
  have kept : revised.Factored model := by
    have after := factored.revise
    rwa [revision] at after
  have nonneg := candidate_last_nonneg model ((secondStage_revise revision).trans second)
    (active_pos_of_revise second revision) (kept.room.trans kept.most) length
  have negative := (blocking_some blocked).2.1
  obtain ⟨candidates, trial, violation, judged⟩ := revised.judged_frame model length
  have order : next.workspace.order = revised.order := by
    rw [same, judged]
    rfl
  have active : next.workspace.active = revised.active := by
    rw [same, judged]
    rfl
  have incoming : next.workspace.incoming = position := by
    rw [same]
  have found : ∀ k, next.workspace.constraintAt k = revised.constraintAt k := by
    intro k
    rw [constraintAt, order, constraintAt]
  constructor
  case position =>
    intro k inside last
    rw [active] at inside ⊢
    exact stays.revise factored second revision listed inside (found k ▸ last)
  case stays =>
    intro among last
    rw [incoming, active] at among
    rw [incoming, found] at last
    have own := stays.revise factored second revision listed among last
    rw [own] at negative
    exact absurd nonneg (not_le.mpr negative)

end Stage

/-! ## Whole steps -/

namespace Workspace

variable {model : LinearModel α n m} {workspace revised : Workspace α n m} {stage : Stage α n m}
  {radius : α}

/-- **In the second stage the objective is active only as the last constraint, and does not
leave.** -/
theorem Visits.objectiveStays (visited : workspace.Visits model radius stage)
    (second : stage.workspace.secondStage = true) : stage.workspace.ObjectiveStays := by
  induction visited with
  | violated violated =>
    have first := (firstStage_begin violated).not_secondStage
    exact absurd (second.symm.trans first) (by simp)
  | satisfied => exact ⟨nofun, nofun⟩
  | turn visited turned ih =>
    have before := (Stage.secondStage_turn turned).symm.trans second
    exact Stage.objectiveStays_turn (ih before) visited.listed visited.factored.1 before turned
  | @second stage ended how visited turned further ih =>
    have early := Stage.early_of_further turned further
    have eased := Stage.gauging_done (visited.steered.first early) turned
    have factored := ((Stage.turn_done turned).factored visited.factored.1).1
    exact objectiveStays_includeObjective
      (Stage.listed_done visited.listed visited.factored.1 turned) eased.considered
      (factored.room.trans_eq eased.considered)

/-- The objective is the last active constraint, and the direction lowers it at unit rate and keeps
to the other ones. -/
structure Leads (model : LinearModel α n m) (workspace : Workspace α n m) : Prop
    extends ObjectiveLast workspace where
  slope : dot workspace.direction (model.gradients.get (Fin.last m)) = 1
  level : ∀ k < workspace.active - 1,
    dot workspace.direction (workspace.gradientAt model k) = 0

/-- The direction of the second stage follows the objective if that is the last active
constraint. -/
theorem Factored.leads_iff (factored : workspace.Factored model)
    (second : workspace.secondStage = true) (revision : workspace.revise model = (revised, true)) :
    revised.Leads model ↔ revised.ObjectiveLast := by
  refine ⟨Leads.toObjectiveLast, fun objective => ⟨objective, ?_, fun k inside => ?_⟩⟩
  · obtain ⟨before, kept, some, rfl⟩ := factored.revise_descends second revision
    have rate := kept.descend_rate (Nat.sub_lt some Nat.one_pos)
    rw [if_pos rfl, gradientAt] at rate
    exact objective.last ▸ rate
  · obtain ⟨before, kept, -, rfl⟩ := factored.revise_descends second revision
    have inside : k < before.active - 1 := inside
    rw [kept.descend_rate (inside.trans_le (Nat.sub_le _ 1)), if_neg inside.ne']

/-- **Where the objective leads.**  After a revision of the second stage it is the last active
constraint, with the direction along it, if it has just entered; and otherwise if it was the last
one before, unless a constraint has entered whose gradient depends on the active ones. -/
theorem leads_revise_iff (visited : workspace.Visits model radius stage)
    (second : stage.workspace.secondStage = true)
    (revision : stage.workspace.revise model = (revised, true)) :
    revised.Leads model ↔
      stage.workspace.constraintAt stage.workspace.incoming = Fin.last m ∨
        stage.workspace.ObjectiveLast ∧ ¬ stage.workspace.EntersDependent model := by
  have factored := visited.factored.1
  rw [factored.leads_iff second revision]
  exact (visited.objectiveStays second).objectiveLast_revise factored second revision

/-- The statement about a revision of the second stage holds whenever one comes up in a step. -/
def InRevisions (model : LinearModel α n m) (radius : α) (workspace : Workspace α n m)
    (holds : Workspace α n m → Workspace α n m → Prop) : Prop :=
  ∀ stage revised, workspace.Visits model radius stage → stage.workspace.secondStage = true →
    stage.workspace.revise model = (revised, true) → holds stage.workspace revised

/-- As long as no dependent constraint enters, the objective is to enter or is the last active
constraint. -/
theorem Visits.objectiveLast
    (none : workspace.InRevisions model radius fun before _ => ¬ before.EntersDependent model)
    (visited : workspace.Visits model radius stage)
    (second : stage.workspace.secondStage = true) :
    stage.workspace.constraintAt stage.workspace.incoming = Fin.last m ∨
      stage.workspace.ObjectiveLast := by
  have enters : ∀ w : Workspace α n m,
      w.includeObjective.constraintAt w.includeObjective.incoming = Fin.last m :=
    fun w => (constraintAt_includeObjective w m).trans (if_pos rfl)
  induction visited with
  | violated violated =>
    have first := (firstStage_begin violated).not_secondStage
    exact absurd (second.symm.trans first) (by simp)
  | satisfied => exact .inl (enters _)
  | second => exact .inl (enters _)
  | @turn stage next visited turned ih =>
    have before := (Stage.secondStage_turn turned).symm.trans second
    obtain ⟨revised, length, position, ⟨-, revision, -, -, -, -⟩, same⟩ :=
      Stage.turn_blocked turned
    have independent := none stage revised visited before revision
    have after := ((visited.objectiveStays before).objectiveLast_revise visited.factored.1 before
      revision).mpr ((ih before).imp_right fun last => ⟨last, independent⟩)
    obtain ⟨candidates, trial, violation, judged⟩ := revised.judged_frame model length
    refine .inr ((ObjectiveLast.congr ?_ ?_).mpr after)
    · rw [same, judged]
      rfl
    · rw [same, judged]
      rfl

/-- The objective leads throughout if no dependent constraint enters. -/
theorem leads_of_independent_entries
    (none : workspace.InRevisions model radius fun before _ => ¬ before.EntersDependent model) :
    workspace.InRevisions model radius fun _ revised => revised.Leads model := by
  intro stage revised visited second revision
  refine (leads_revise_iff visited second revision).mpr ?_
  exact (visited.objectiveLast none second).imp_right fun last =>
    ⟨last, none stage revised visited second revision⟩

/-- In that case the objective is active in every walk of the second stage. -/
theorem holdsThroughout_of_independent_entries
    (none : workspace.InRevisions model radius fun before _ => ¬ before.EntersDependent model) :
    workspace.HoldsThroughout model radius := by
  intro stage visited revised _ revision _ second k considered inactive objective
  have later : stage.workspace.secondStage = true :=
    (secondStage_revise revision).symm.trans second
  have leads := leads_of_independent_entries none stage revised visited later revision
  have listed := visited.listed.revise visited.factored.1
  have factored := visited.factored.1.revise
  rw [revision] at listed factored
  have last : revised.active - 1 < revised.active := Nat.sub_lt leads.some Nat.one_pos
  have same := listed.position_eq considered (last.trans_le factored.room)
    (objective.trans leads.last.symm)
  exact absurd inactive (not_le.mpr (same ▸ last))

/-- None enters if the gradients of the constraints and of the objective are independent. -/
theorem independent_entries (workspace : Workspace α n m) (radius : α)
    (independent : LinearIndependent α fun k => (model.gradients.get k).get) :
    workspace.InRevisions model radius fun before _ => ¬ before.EntersDependent model := by
  intro stage revised visited _ _ enters
  have factored := visited.factored.1
  have gradients : (fun i => (stage.workspace.gradientAt model i).get) ''
        Set.Iio stage.workspace.active =
      (fun k => (model.gradients.get k).get) ''
        (stage.workspace.constraintAt '' Set.Iio stage.workspace.active) := by
    rw [Set.image_image]
    rfl
  have dependent := enters.dependent
  rw [gradients] at dependent
  -- The constraint that is to enter would be one of the active ones.
  obtain ⟨i, active, same⟩ : stage.workspace.constraintAt stage.workspace.incoming ∈
      stage.workspace.constraintAt '' Set.Iio stage.workspace.active := by
    by_contra other
    exact independent.notMem_span_image other dependent
  have inside : i < stage.workspace.active := active
  have position := visited.listed.position_eq (inside.trans_le factored.room) factored.inside same
  exact absurd enters.inactive (not_le.mpr (position ▸ inside))

/-- None enters either if there is a single constraint, because it would have to be active
already. -/
theorem independent_entries_of_few (few : m ≤ 1) (workspace : Workspace α n m) (radius : α) :
    workspace.InRevisions model radius fun before _ => ¬ before.EntersDependent model := by
  intro stage revised visited second revision enters
  have factored := visited.factored.1
  have component := (factored.component_eq_zero_iff _).mpr enters.dependent
  have outcome := revise_outcome model stage.workspace
  rw [revision] at outcome
  cases outcome with
  | left _ _ among => exact absurd enters.inactive (not_le.mpr among)
  | receded first =>
    rw [second] at first
    cases first
  | added _ other => exact other component
  | replaced _ _ entered =>
    obtain ⟨k, active, constraint⟩ := limiting_of_enterDependent entered
    have active : k < stage.workspace.active := active
    have constraint : stage.workspace.constraintAt k ≠ Fin.last m := constraint
    have same : stage.workspace.constraintAt k =
        stage.workspace.constraintAt stage.workspace.incoming := by
      have left := Fin.val_lt_last constraint
      have right := Fin.val_lt_last enters.constraint
      exact Fin.ext (by omega)
    have position := visited.listed.position_eq (active.trans_le factored.room) factored.inside same
    exact absurd enters.inactive (not_le.mpr (position ▸ active))

/-- **With a single constraint, or none, the objective is active in every walk of the second
stage.** -/
theorem holdsThroughout_of_few (few : m ≤ 1) (model : LinearModel α n m) (radius : α)
    (workspace : Workspace α n m) : workspace.HoldsThroughout model radius :=
  holdsThroughout_of_independent_entries (independent_entries_of_few few workspace radius)

/-- **The objective leads after every revision of the second stage if and only if no constraint
enters there whose gradient depends on the active ones.** -/
theorem objective_leads_iff (model : LinearModel α n m) (radius : α) (workspace : Workspace α n m) :
    (workspace.InRevisions model radius fun _ revised => revised.Leads model) ↔
      workspace.InRevisions model radius fun before _ => ¬ before.EntersDependent model := by
  refine ⟨?_, leads_of_independent_entries⟩
  intro leads stage revised visited second revision enters
  have last := (leads_revise_iff visited second revision).mp
    (leads stage revised visited second revision)
  rcases last with objective | ⟨-, independent⟩
  · exact enters.constraint objective
  · exact independent enters

/-- In the plane a constraint across the objective does not displace it, and the objective has
entered in the first turn. -/
theorem objective_leads_on_plane :
    ((fresh 2 1).InRevisions (planeModel slant) (1 / 2) fun _ revised =>
      revised.Leads (planeModel slant)) ∧
    (fresh 2 1).Visits (planeModel slant) (1 / 2)
        (.first ((fresh 2 1).begin (planeModel slant)).includeObjective) ∧
      ∃ revised, ((fresh 2 1).begin (planeModel slant)).includeObjective.revise (planeModel slant) =
        (revised, true) := by
  have satisfied : ∀ c : Fin 1, (planeModel slant).bounds.get c.castSucc ≤ 0 := by
    simp [planeModel, rationals]
  have none := worstBound_of_satisfied satisfied
  have steep : (planeModel slant).descent ≠ 0 := by
    intro flat
    have second := congrArg (fun v : Vector ℝ 2 => v.get 1) flat
    simp [LinearModel.descent, planeModel, slant, rationals, Fin.last, get_eq_getElem] at second
  have independent : LinearIndependent ℝ fun k => ((planeModel slant).gradients.get k).get := by
    refine Fintype.linearIndependent_iff.mpr fun coefficients zero => ?_
    have first := congrFun zero 0
    have second := congrFun zero 1
    simp [Fin.sum_univ_two, planeModel, slant, rationals, get_eq_getElem] at first second
    rw [second, zero_mul, neg_zero, add_zero] at first
    exact Fin.forall_fin_two.mpr ⟨first, second⟩
  obtain ⟨revised, revision, -⟩ := (fresh 2 1).revise_downhill none steep
  exact ⟨(objective_leads_iff (planeModel slant) (1 / 2) (fresh 2 1)).mpr
    (independent_entries (fresh 2 1) (1 / 2) independent), .satisfied (beq_iff_eq.mpr none),
    revised, revision⟩

/-- In the corner the second constraint displaces the objective, which the direction then lowers at
eleven times the rate. -/
theorem objective_displaced :
    (fresh 2 2).Visits (cornerModel 0) 13 ⟨cornerReached, 0, 1, 3⟩ ∧
      cornerReached.secondStage = true ∧
      cornerReached.revise (cornerModel 0) = (cornerEdge, true) ∧
      cornerEdge.active = 2 ∧ cornerEdge.constraintAt 1 ≠ Fin.last 2 ∧
      dot cornerEdge.direction ((cornerModel 0).gradients.get (Fin.last 2)) = 11 := by
  refine ⟨visits_cornerReached 0, rfl, revise_cornerReached 0, rfl, by decide, ?_⟩
  simp [dot_eq_sum, Fin.sum_univ_two, cornerModel, cornerEdge, Fin.last, get_eq_getElem]
  norm_num

end Workspace

end DerivativeFree
