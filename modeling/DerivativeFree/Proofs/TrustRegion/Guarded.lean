import DerivativeFree.Proofs.TrustRegion.Boundary

/-!
# What a step does not give up

In the second stage a step slides along active constraints.  None of them falls along the
direction, and an inactive one is watched by its residual, which contains the bound of the
constraint.  So whatever a constraint has at first is never given up (`Guarded`), as long as it is
not more than the bound allows: it stays true when constraints enter, leave and change places
(`Guarded.revise`), and in every walk (`Guarded.walk`).

If all constraints hold in the pole, then they hold after the step (`solve_holds`).  The objective
has an entry among the bounds as well, its negated value in the pole, which bounds nothing.  If the
entry is negative, and the objective is among the inactive constraints for some time, then the step
may well raise the objective, as it does in the wedge below (`objective_rises`).
-/

namespace DerivativeFree

set_option autoImplicit false

variable {α : Type} [EuclideanField α] {n m : Nat}

namespace Workspace

variable {model : LinearModel α n m} {workspace revised : Workspace α n m} {c : Fin (m + 1)}
  {level length part before : α} {k : Nat}

/-! ## Parts of a walk -/

theorem judged_second (model : LinearModel α n m) (second : workspace.secondStage = true)
    (length : α) :
    (workspace.judged model length).violation = workspace.violation := by
  have walk : (workspace.walk length).secondStage = true := second
  rw [judged, walked, if_pos walk]
  rfl

theorem slope_advance (model : LinearModel α n m) (workspace : Workspace α n m) (part before : α)
    (c : Fin (m + 1)) : model.slope c (workspace.advance part before).step =
      (1 - part) * model.slope c workspace.step + part * model.slope c workspace.trial := by
  simp only [LinearModel.slope, advance, add_dot, smul_dot]

theorem entry_advance (workspace : Workspace α n m) (part before : α)
    (inside : k < workspace.considered) (most : workspace.considered ≤ m + 1) :
    entry (workspace.advance part before).multipliers k =
      max ((1 - part) * entry workspace.multipliers k + part * entry workspace.candidates k) 0 := by
  simp only [advance, entry_of_lt _ (inside.trans_le most), Vector.getElem_ofFn, inside, if_true,
    larger_eq_max, get_eq_getElem]

/-- After the part of a walk that is taken the multipliers are what lies between, and there was
nothing to cut off. -/
theorem entry_advance_blocking (nonneg : workspace.Nonneg) (before : α)
    (inside : k < workspace.considered) (most : workspace.considered ≤ m + 1) :
    entry (workspace.advance workspace.blocking.1 before).multipliers k =
      (1 - workspace.blocking.1) * entry workspace.multipliers k +
        workspace.blocking.1 * entry workspace.candidates k := by
  rw [entry_advance workspace _ before inside most]
  exact max_eq_left ((blocking_keeps nonneg).2.2.1 k inside)

/-! ## Guards -/

/-- The constraint has at least the level, and if it is inactive, then its residual does not
promise more than there is. -/
structure Guarded (model : LinearModel α n m) (c : Fin (m + 1)) (level : α)
    (workspace : Workspace α n m) : Prop where
  above : level ≤ model.slope c workspace.step
  residual : ∀ k, workspace.active ≤ k → k < workspace.considered →
    workspace.constraintAt k = c →
      entry workspace.multipliers k + level ≤ model.slope c workspace.step
  listed : ∃ k < workspace.considered, workspace.constraintAt k = c

namespace Guarded

/-- A revision gives nothing up. -/
theorem revise (guarded : workspace.Guarded model c level) (factored : workspace.Factored model)
    (idle : entry workspace.multipliers workspace.incoming = 0) :
    (workspace.revise model).1.Guarded model c level := by
  obtain ⟨above, residual, listed⟩ := guarded
  have rearranged := revise_rearranged factored
  have considered := considered_revise model workspace
  have step := (revise_frame model workspace).1
  refine ⟨step ▸ above, fun k inactive inside known => ?_, considered ▸ rearranged.listed listed⟩
  rw [step]
  rw [considered] at inside
  rcases rearranged.inactive k inactive inside with
    ⟨j, after, within, same, kept⟩ | ⟨j, -, -, freed⟩
  · exact kept ▸ residual j after within (same.symm.trans known)
  · rw [freed idle, zero_add]
    exact above

/-- The part of a walk that is taken gives nothing up, if the whole walk would not. -/
theorem advance (guarded : workspace.Guarded model c level) (nonneg : workspace.Nonneg)
    (most : workspace.considered ≤ m + 1)
    (rises : ∀ i < workspace.active, model.slope (workspace.constraintAt i) workspace.step ≤
      model.slope (workspace.constraintAt i) workspace.trial)
    (residual : ∀ k, workspace.active ≤ k → k < workspace.considered →
      workspace.constraintAt k = c →
        entry workspace.candidates k + level ≤ model.slope c workspace.trial) (before : α) :
    (workspace.advance workspace.blocking.1 before).Guarded model c level := by
  obtain ⟨least, unit, positive, -⟩ := blocking_keeps nonneg
  have after : ∀ k, workspace.active ≤ k → k < workspace.considered →
      workspace.constraintAt k = c →
        entry (workspace.advance workspace.blocking.1 before).multipliers k + level ≤
          model.slope c (workspace.advance workspace.blocking.1 before).step := by
    intro k inactive inside known
    rw [entry_advance_blocking nonneg before inside most, slope_advance]
    have start := guarded.residual k inactive inside known
    have finish := residual k inactive inside known
    generalize workspace.blocking.1 = part at *
    calc (1 - part) * entry workspace.multipliers k + part * entry workspace.candidates k + level
        = (1 - part) * (entry workspace.multipliers k + level) +
            part * (entry workspace.candidates k + level) := by ring
      _ ≤ (1 - part) * model.slope c workspace.step + part * model.slope c workspace.trial :=
        add_le_add (mul_le_mul_of_nonneg_left start (sub_nonneg.mpr unit))
          (mul_le_mul_of_nonneg_left finish least)
  refine ⟨?_, after, guarded.listed⟩
  obtain ⟨k, inside, known⟩ := guarded.listed
  rcases Nat.lt_or_ge k workspace.active with active | inactive
  · have rise := rises k active
    rw [known] at rise
    rw [slope_advance]
    have above := guarded.above
    nlinarith
  · have nonneg := positive k inside
    rw [← entry_advance_blocking ‹_› before inside most] at nonneg
    linarith [after k inactive inside known]

/-- **A walk gives nothing up** along a direction in which no active constraint falls, if the level
is not more than the bound of the constraint allows, or the constraint is active. -/
theorem walk (guarded : workspace.Guarded model c level) (nonneg : workspace.Nonneg)
    (most : workspace.considered ≤ m + 1) (forwards : 0 ≤ length)
    (rises : ∀ i < workspace.active, 0 ≤ dot workspace.direction (workspace.gradientAt model i))
    (clear : level + (workspace.judged model length).violation ≤ model.bounds.get c ∨
      ∀ k, workspace.active ≤ k → k < workspace.considered → workspace.constraintAt k ≠ c)
    (before : α) :
    ((workspace.judged model length).advance (workspace.judged model length).blocking.1
      before).Guarded model c level := by
  have rise : ∀ i < workspace.active, model.slope (workspace.constraintAt i) workspace.step ≤
      model.slope (workspace.constraintAt i) (workspace.judged model length).trial := by
    intro i below
    rw [judged_trial, LinearModel.slope, LinearModel.slope, add_dot, smul_dot]
    exact le_add_of_nonneg_right (mul_nonneg forwards (rises i below))
  have residual : ∀ k, workspace.active ≤ k → k < workspace.considered →
      workspace.constraintAt k = c → entry (workspace.judged model length).candidates k + level ≤
        model.slope c (workspace.judged model length).trial := by
    intro k inactive inside known
    rcases clear with clear | active
    · rw [judged_candidate inactive inside (inside.trans_le most), known, dot_comm]
      have slope : model.slope c (workspace.judged model length).trial =
        dot (workspace.judged model length).trial (model.gradients.get c) := rfl
      linarith
    · exact absurd known (active k inactive inside)
  obtain ⟨candidates, trial, violation, judged⟩ := workspace.judged_frame model length
  rw [judged] at rise residual ⊢
  have same : Guarded model c level { workspace with candidates, trial, violation } :=
    ⟨guarded.above, guarded.residual, guarded.listed⟩
  have still : Nonneg { workspace with candidates, trial, violation } := nonneg
  exact same.advance still most rise residual before

end Guarded

/-! ## The second stage -/

/-- A second stage that goes on: no multiplier is negative, and the constraint that is to enter or
to leave has none. -/
structure Sliding (model : LinearModel α n m) (workspace : Workspace α n m) : Prop where
  factored : workspace.Factored model
  second : workspace.secondStage = true
  nonneg : workspace.Nonneg
  idle : entry workspace.multipliers workspace.incoming = 0

/-- After a walk that is blocked no multiplier is negative, and the one that blocked it is zero. -/
theorem nonneg_blocked (nonneg : workspace.Nonneg) (most : workspace.considered ≤ m + 1)
    {position : Nat} (blocked : (workspace.judged model length).blocking.2 = some position)
    (before : α) :
    let advanced := (workspace.judged model length).advance
      (workspace.judged model length).blocking.1 before
    advanced.Nonneg ∧ entry advanced.multipliers position = 0 := by
  obtain ⟨candidates, trial, violation, judged⟩ := workspace.judged_frame model length
  rw [judged] at blocked ⊢
  have still : Nonneg { workspace with candidates, trial, violation } := nonneg
  obtain ⟨-, -, positive, zero⟩ := blocking_keeps still
  refine ⟨fun k inside => ?_, ?_⟩
  · rw [entry_advance_blocking still before inside most]
    exact positive k inside
  · rw [entry_advance_blocking still before (blocking_lt blocked) most]
    exact zero position blocked

end Workspace

namespace Stage

variable {model : LinearModel α n m} {stage next : Stage α n m} {radius level length : α}
  {revised ended : Workspace α n m} {how : StageEnd} {c : Fin (m + 1)}

theorem sliding_turn (sliding : stage.workspace.Sliding model)
    (turned : stage.turn model radius = .another next) :
    next.workspace.Sliding model ∧ next.workspace.violation = stage.workspace.violation := by
  obtain ⟨factored, second, nonneg, idle⟩ := sliding
  have kept := factored_turn factored turned
  have stays := (secondStage_turn turned).trans second
  obtain ⟨revised, length, position, ⟨-, revision, -, -, -, blocked⟩, same⟩ := turn_blocked turned
  have still := nonneg.revise factored
  have revise := factored.revise
  have violation := (Workspace.revise_frame model stage.workspace).2
  rw [revision] at still revise violation
  obtain ⟨positive, zero⟩ :=
    Workspace.nonneg_blocked still revise.most blocked revised.violation
  have later : revised.secondStage = true := (Workspace.secondStage_revise revision).trans second
  refine ⟨⟨kept, stays, ?_, ?_⟩, ?_⟩
  · rw [same]
    exact positive
  · rw [same]
    exact zero
  · rw [same, ← violation, ← Workspace.judged_second model later length]
    obtain ⟨candidates, trial, violation, judged⟩ := revised.judged_frame model length
    have here : (revised.judged model length).secondStage = true := judged ▸ later
    simp only [Workspace.advance, here, if_true]

/-- A walk of the second stage gives nothing up. -/
theorem guarded_walk (sliding : stage.workspace.Sliding model)
    (guarded : stage.workspace.Guarded model c level)
    (clear : level + stage.workspace.violation ≤ model.bounds.get c ∨
      c = Fin.last m ∧ stage.Holds model radius)
    (patient : (stage.watch model).patience ≠ 0)
    (revision : stage.workspace.revise model = (revised, true))
    (left : 0 < revised.room radius) (before : α) :
    let judged := revised.judged model (revised.fullLength (revised.room radius))
    (judged.advance judged.blocking.1 before).Guarded model c level := by
  obtain ⟨factored, second, nonneg, idle⟩ := sliding
  have moving := factored.revise_moves second revision
  have later : revised.secondStage = true := (Workspace.secondStage_revise revision).trans second
  have still := nonneg.revise factored
  have revise := factored.revise
  have violation := (Workspace.revise_frame model stage.workspace).2
  have kept := guarded.revise factored idle
  rw [revision] at still revise violation kept
  refine kept.walk still revise.most (revised.fullLength_pos left moving).le
    (fun i below => factored.revise_rises second revision below) ?_ before
  rw [Workspace.judged_second model later, violation]
  refine clear.imp_right fun ⟨objective, holds⟩ k inactive considered known => ?_
  exact holds revised patient revision (not_le.mpr left) later
    ⟨k, considered.trans_le revise.most⟩ considered inactive (known.trans objective)

theorem guarded_turn (sliding : stage.workspace.Sliding model)
    (guarded : stage.workspace.Guarded model c level)
    (clear : level + stage.workspace.violation ≤ model.bounds.get c ∨
      c = Fin.last m ∧ stage.Holds model radius)
    (turned : stage.turn model radius = .another next) :
    next.workspace.Guarded model c level := by
  obtain ⟨revised, length, position, ⟨patient, revision, left, full, -, -⟩, same⟩ :=
    turn_blocked turned
  have kept := guarded_walk sliding guarded clear patient revision left revised.violation
  rw [← full ((Workspace.secondStage_revise revision).trans sliding.second)] at kept
  rw [same]
  exact ⟨kept.above, kept.residual, kept.listed⟩

/-- The second stage does not end inside the trust region. -/
theorem how_of_second (second : stage.workspace.secondStage = true)
    (turned : stage.turn model radius = .done ended how) : how ≠ .inside := by
  rintro rfl
  cases turn_done turned with
  | inside revision first =>
    rw [← Workspace.secondStage_revise revision, first] at second
    cases second

theorem guarded_done (sliding : stage.workspace.Sliding model)
    (guarded : stage.workspace.Guarded model c level)
    (clear : level + stage.workspace.violation ≤ model.bounds.get c ∨
      c = Fin.last m ∧ stage.Holds model radius)
    (turned : stage.turn model radius = .done ended how) : level ≤ model.slope c ended.step := by
  have step := (Workspace.revise_frame model stage.workspace).1
  have early : ∀ {revised : Workspace α n m}, stage.workspace.revise model = (revised, true) →
      revised.secondStage ≠ false := by
    intro revised revision first
    have second := sliding.second
    rw [← Workspace.secondStage_revise revision, first] at second
    cases second
  cases turn_done turned with
  | weary => exact guarded.above
  | stuck revision | outside revision =>
    rw [revision] at step
    exact step ▸ guarded.above
  | negligible revision first => exact absurd first (early revision)
  | inside revision first => exact absurd first (early revision)
  | @reached revised revision left free _ patient =>
    have kept := (guarded_walk sliding guarded clear patient revision left revised.violation).above
    rwa [Workspace.blocking_free free] at kept

end Stage

/-! ## The start of the second stage -/

namespace Workspace

variable {model : LinearModel α n m} {workspace ended : Workspace α n m} {stage : Stage α n m}
  {radius level : α} {fuel : Nat} {how : StepEnd} {c : Fin (m + 1)}

theorem constraintAt_includeObjective (workspace : Workspace α n m) (k : Nat) :
    workspace.includeObjective.constraintAt k =
      if k = m then Fin.last m else workspace.constraintAt k := by
  simp only [constraintAt, includeObjective, set_eq_setIfInBounds, getD_setIfInBounds,
    Nat.lt_succ_self, and_true, eq_comm]

theorem entry_includeObjective (workspace : Workspace α n m) (k : Nat) :
    entry workspace.includeObjective.multipliers k =
      if k = m then 0 else entry workspace.multipliers k := by
  simp only [includeObjective, set_eq_setIfInBounds]
  rw [entry_setIfInBounds _ (Nat.lt_succ_self m)]
  exact if_congr eq_comm rfl rfl

theorem sliding_includeObjective (factored : workspace.includeObjective.Factored model)
    (nonneg : ∀ k < m, 0 ≤ entry workspace.multipliers k) :
    workspace.includeObjective.Sliding model := by
  refine ⟨factored, secondStage_includeObjective _, fun k inside => ?_, ?_⟩
  · rw [entry_includeObjective]
    split_ifs with last
    · exact le_rfl
    · exact nonneg k (Nat.lt_of_le_of_ne (Nat.le_of_lt_succ inside) last)
  · exact (entry_includeObjective workspace m).trans (if_pos rfl)

/-- What is guarded in the first stage is guarded when the objective is included. -/
theorem Guarded.includeObjective (guarded : workspace.Guarded model c level)
    (considered : workspace.considered = m) (constraint : c ≠ Fin.last m) :
    workspace.includeObjective.Guarded model c level := by
  obtain ⟨above, residual, k, inside, known⟩ := guarded
  rw [considered] at residual inside
  refine ⟨above, fun k inactive inside known => ?_, k, Nat.lt_succ_of_lt inside, ?_⟩
  · rw [constraintAt_includeObjective] at known
    rw [entry_includeObjective]
    split_ifs at known ⊢ with last
    · exact absurd known.symm constraint
    · exact residual k inactive (Nat.lt_of_le_of_ne (Nat.le_of_lt_succ inside) last) known
  · rw [constraintAt_includeObjective, if_neg inside.ne]
    exact known

theorem constraintAt_begin (workspace : Workspace α n m) (model : LinearModel α n m) {k : Nat}
    (inside : k < m) : (workspace.begin model).constraintAt k = ⟨k, Nat.lt_succ_of_lt inside⟩ := by
  simp [constraintAt, begin, inside, Nat.lt_succ_of_lt inside]

theorem entry_begin (workspace : Workspace α n m) (model : LinearModel α n m) {k : Nat}
    (inside : k < m) : entry (workspace.begin model).multipliers k =
      (worstBound model).1 - model.bounds.get ⟨k, Nat.lt_succ_of_lt inside⟩ := by
  rw [entry_of_lt _ (Nat.lt_succ_of_lt inside)]
  simp only [begin, Vector.getElem_ofFn, inside, if_true]

/-- In the pole no constraint is violated more than the worst one. -/
theorem guarded_begin (workspace : Workspace α n m) (model : LinearModel α n m) (c : Fin m) :
    (workspace.begin model).Guarded model c.castSucc
      (model.bounds.get c.castSucc - (worstBound model).1) := by
  have still : model.slope c.castSucc (workspace.begin model).step = 0 := zero_dot _
  have least := (worstBound_spec model).1 c
  refine ⟨still ▸ sub_nonpos.mpr least, fun k _ inside known => ?_, c, c.isLt,
    constraintAt_begin workspace model c.isLt⟩
  rw [constraintAt_begin workspace model inside] at known
  rw [entry_begin workspace model inside, known, still]
  linarith

/-- In the pole the objective has not fallen yet. -/
theorem guarded_objective (workspace : Workspace α n m) (model : LinearModel α n m) :
    (workspace.begin model).includeObjective.Guarded model (Fin.last m) 0 := by
  have still : model.slope (Fin.last m) (workspace.begin model).includeObjective.step = 0 :=
    zero_dot _
  refine ⟨still.ge, fun k _ inside known => ?_, m, Nat.lt_succ_self m, ?_⟩
  · rw [constraintAt_includeObjective] at known
    rw [entry_includeObjective, still, add_zero]
    split_ifs at known ⊢ with last
    · exact le_rfl
    · have earlier : k < m := Nat.lt_of_le_of_ne (Nat.le_of_lt_succ inside) last
      rw [constraintAt_begin workspace model earlier] at known
      exact absurd (congrArg Fin.val known) earlier.ne
  · rw [constraintAt_includeObjective, if_pos rfl]

/-! ## Steps from a pole where all constraints hold -/

/-- A constraint that holds in the pole is kept in all stages that come up, and so is the
objective, if it is active in every walk or its level does not matter. -/
structure Holding (model : LinearModel α n m) (objective : Prop) (workspace : Workspace α n m) :
    Prop where
  sliding : workspace.Sliding model
  violation : workspace.violation = 0
  constraint : ∀ k : Fin m, workspace.Guarded model k.castSucc (model.bounds.get k.castSucc)
  objective : objective → workspace.Guarded model (Fin.last m) 0

theorem holding_begin (satisfied : ∀ k : Fin m, model.bounds.get k.castSucc ≤ 0)
    (workspace : Workspace α n m) (objective : Prop) :
    (workspace.begin model).includeObjective.Holding model objective := by
  have none := worstBound_of_satisfied satisfied
  refine ⟨sliding_includeObjective workspace.factored_satisfied fun k inside => ?_, none,
    fun k => ?_, fun _ => workspace.guarded_objective model⟩
  · rw [entry_begin workspace model inside, none, zero_sub, neg_nonneg]
    exact satisfied ⟨k, inside⟩
  · have guarded := workspace.guarded_begin model k
    rw [none, sub_zero] at guarded
    exact guarded.includeObjective rfl (Fin.castSucc_ne_last k)

/-- The condition under which the objective is kept. -/
theorem Holding.clear {objective : Prop} (holding : stage.workspace.Holding model objective)
    (known : 0 ≤ model.bounds.get (Fin.last m) ∨ stage.Holds model radius) :
    0 + stage.workspace.violation ≤ model.bounds.get (Fin.last m) ∨
      Fin.last m = Fin.last m ∧ stage.Holds model radius := by
  rw [holding.violation, add_zero]
  exact known.imp_right fun holds => ⟨rfl, holds⟩

theorem Visits.holding (satisfied : ∀ k : Fin m, model.bounds.get k.castSucc ≤ 0)
    (visited : workspace.Visits model radius stage) :
    stage.workspace.Holding model
      (0 ≤ model.bounds.get (Fin.last m) ∨ workspace.HoldsThroughout model radius) := by
  have begins := holding_begin satisfied workspace
    (0 ≤ model.bounds.get (Fin.last m) ∨ workspace.HoldsThroughout model radius)
  induction visited with
  | violated violated => exact absurd begins.violation (beq_eq_false_iff_ne.mp violated)
  | satisfied => exact begins
  | @turn stage next visited turned ih =>
    obtain ⟨sliding, violation⟩ := Stage.sliding_turn ih.sliding turned
    refine ⟨sliding, violation.trans ih.violation, fun k => ?_, fun known => ?_⟩
    · refine Stage.guarded_turn ih.sliding (ih.constraint k) (.inl ?_) turned
      rw [ih.violation, add_zero]
    · exact Stage.guarded_turn ih.sliding (ih.objective known)
        (ih.clear (known.imp_right fun holds => holds stage visited)) turned
  | second _ turned further ih =>
    rcases further with inside | ⟨-, early⟩
    · exact absurd inside (Stage.how_of_second ih.sliding.second turned)
    · rw [ih.sliding.second] at early
      cases early

/-- **A step from a pole where all constraints hold** keeps them all.  It does not let the
objective rise either, if the objective is not positive in the pole, or is active in every walk of
the second stage. -/
theorem solve_holds (satisfied : ∀ k : Fin m, model.bounds.get k.castSucc ≤ 0)
    (solved : workspace.solve model radius fuel = some (ended, how)) :
    (∀ k : Fin m, model.bounds.get k.castSucc ≤ model.slope k.castSucc ended.step) ∧
      (0 ≤ model.bounds.get (Fin.last m) ∨ workspace.HoldsThroughout model radius →
        0 ≤ model.slope (Fin.last m) ended.step) := by
  obtain ⟨last, ending, visited, turned, -⟩ := solve_last solved
  have holding := visited.holding satisfied
  refine ⟨fun k => ?_, fun known => ?_⟩
  · refine Stage.guarded_done holding.sliding (holding.constraint k) (.inl ?_) turned
    rw [holding.violation, add_zero]
  · exact Stage.guarded_done holding.sliding (holding.objective known)
      (holding.clear (known.imp_right fun holds => holds last visited)) turned

theorem solve_holds_on_corner :
    ∃ ended : Workspace ℝ 2 2, (fresh 2 2).solve (cornerModel 0) 13 4 = some (ended, .boundary) ∧
      (∀ k : Fin 2, (cornerModel 0).bounds.get k.castSucc ≤
        (cornerModel 0).slope k.castSucc ended.step) ∧
      0 ≤ (cornerModel 0).slope (Fin.last 2) ended.step := by
  have blocked : Stage.turn (cornerModel 0) 13 ⟨cornerReached, 0, 1, 3⟩ =
      .another ⟨cornerPassed, -150, 2, 3⟩ := by
    rw [turn_cornerReached, Stage.walkTurn_blocked _ rfl (judged_cornerEdge 0) blocking_cornerEdge,
      advance_cornerEdge]
  have satisfied : ∀ k : Fin 2, (cornerModel 0).bounds.get k.castSucc ≤ 0 := by
    simp [Fin.forall_fin_two, cornerModel, get_eq_getElem]
  have level : 0 ≤ (cornerModel 0).bounds.get (Fin.last 2) := by
    simp [cornerModel, get_eq_getElem]
  obtain ⟨ended, passing, -⟩ := turn_cornerPassed
  have solved := solve_corner blocked passing
  have holds := solve_holds satisfied solved
  exact ⟨ended, solved, holds.1, holds.2 (.inl level)⟩

/-! ## A wedge -/

/-- The objective `3 x + 4 y + 5` is to fall where `4 x + 3 y ≥ 0` and `x ≥ 0`.  All of them
bound the wedge at the origin. -/
noncomputable def wedgeModel : LinearModel ℝ 2 2 where
  gradients := .ofFn ![rationals ![4, 3], rationals ![1, 0], rationals ![-3, -4]]
  bounds := rationals ![0, 0, -5]

/-- The objective is to enter. -/
noncomputable def wedgeStart : Workspace ℝ 2 2 where
  basis := .ofFn ![rationals ![1, 0], rationals ![0, 1]]
  pivots := rationals ![0, 0, 0]
  multipliers := rationals ![0, 0, 0]
  candidates := rationals ![0, 0, 0]
  direction := rationals ![0, 0]
  trial := rationals ![0, 0]
  step := rationals ![0, 0]
  order := .ofFn id
  active := 0
  considered := 3
  incoming := 2
  violation := 0

/-- The objective has entered. -/
noncomputable def wedgeDescent : Workspace ℝ 2 2 :=
  { wedgeStart with
    basis := .ofFn ![rationals ![-3 / 5, -4 / 5], rationals ![4 / 5, -3 / 5]]
    pivots := rationals ![5, 0, 0]
    direction := rationals ![-3 / 25, -4 / 25]
    trial := rationals ![-3, -4]
    order := wedgeStart.order.swapIfInBounds 0 2
    active := 1 }

/-- The second constraint blocks the walk where it begins. -/
noncomputable def wedgeStopped : Workspace ℝ 2 2 :=
  { wedgeDescent with
    candidates := rationals ![1 / 5, -3 / 5, -24 / 5]
    trial := rationals ![-3 / 5, -4 / 5]
    incoming := 1 }

/-- The second constraint has entered. -/
noncomputable def wedgeAxis : Workspace ℝ 2 2 :=
  { wedgeStopped with
    basis := .ofFn ![rationals ![1, 0], rationals ![0, -1]]
    pivots := rationals ![1, 4, 0]
    direction := rationals ![0, -1 / 4]
    trial := rationals ![1, 0]
    order := wedgeStopped.order.swapIfInBounds 0 1
    active := 2 }

/-- The first constraint blocks the walk where it begins. -/
noncomputable def wedgeHeld : Workspace ℝ 2 2 :=
  { wedgeAxis with
    candidates := rationals ![3 / 4, 1 / 4, -3]
    trial := rationals ![0, -1]
    incoming := 2 }

/-- The first constraint has taken the place of the objective, which falls along no direction
that is left. -/
noncomputable def wedgeEdge : Workspace ℝ 2 2 :=
  { wedgeHeld with
    basis := .ofFn ![rationals ![4 / 5, 3 / 5], rationals ![-3 / 5, 4 / 5]]
    pivots := rationals ![5, -3 / 5, 0]
    candidates := rationals ![7 / 4, -3 / 4, -3]
    direction := rationals ![1, -4 / 3]
    trial := rationals ![7 / 4, 0]
    order := .ofFn id }

/-- The multiplier of the first constraint blocks the walk where it begins. -/
noncomputable def wedgeLoose : Workspace ℝ 2 2 :=
  { wedgeEdge with
    candidates := rationals ![-4 / 15, 5 / 3, 32 / 5]
    trial := rationals ![3 / 5, -4 / 5]
    incoming := 0 }

/-- The first constraint has left, and the gradient of the second one is the direction now. -/
noncomputable def wedgeAway : Workspace ℝ 2 2 :=
  { wedgeLoose with
    basis := .ofFn ![rationals ![1, 0], rationals ![0, -1]]
    pivots := rationals ![1, -3, 0]
    direction := rationals ![1, 0]
    order := wedgeLoose.order.swapIfInBounds 0 1
    active := 1 }

/-- Nothing blocks the walk. -/
noncomputable def wedgeGone : Workspace ℝ 2 2 :=
  { wedgeAway with
    candidates := rationals ![1, 4, 2]
    trial := rationals ![1, 0] }

section Wedge

attribute [local simp] rationals wedgeModel wedgeStart wedgeDescent wedgeStopped wedgeAxis wedgeHeld
  wedgeEdge wedgeLoose wedgeAway wedgeGone entry basisAt gradientAt constraintAt secondStage
  get_eq_getElem ofFn_eq_mk List.ofFn_succ

theorem begin_wedge : ((fresh 2 2).begin wedgeModel).includeObjective = wedgeStart := by
  have worst : worstBound wedgeModel = (0, 0) := by
    simp [worstBound, Fin.foldl_succ]
  have basis : (diagonal 2 1 : Vector (Vector ℝ 2) 2) = #v[#v[1, 0], #v[0, 1]] := rfl
  simp only [begin, includeObjective, worst, basis, ofFn_eq_mk, List.ofFn_succ]
  simp [fresh]
  exact ⟨rfl, rfl⟩

/-- All walks in the wedge begin at the origin. -/
theorem turn_wedge {stage watched : Stage ℝ 2 2} {revised : Workspace ℝ 2 2} {full : ℝ}
    (watch : stage.watch wedgeModel = watched) (patient : watched.patience ≠ 0)
    (revision : watched.workspace.revise wedgeModel = (revised, true))
    (second : revised.secondStage = true) (origin : revised.step = #v[0, 0]) (positive : 0 < full)
    (square : full * full * dot revised.direction revised.direction = 1) :
    stage.turn wedgeModel 1 = watched.walkTurn wedgeModel revised full full := by
  have room : revised.room 1 = 1 := by
    rw [room_eq _ (by simp [Fin.forall_fin_two, origin]), origin]
    simp
  have along : dot revised.step revised.direction = 0 := by
    have zero : (#v[0, 0] : Vector ℝ 2) = 0 := rfl
    rw [origin, zero, dot_comm, dot_zero]
  have root : 1 / full * (1 / full) = dot revised.direction revised.direction * 1 + 0 * 0 := by
    rw [← square]
    field_simp
    ring
  have length : revised.fullLength 1 = full := by
    rw [fullLength_eq _ zero_le_one along (by positivity) root (.inl rfl), add_zero,
      one_div_one_div]
  exact Stage.turn_eq_walkTurn watch patient revision second room one_pos length

theorem revise_wedgeStart : wedgeStart.revise wedgeModel = (wedgeDescent, true) := by
  have last : alignColumn #v[-3, -4] 1 (wedgeStart.basis, 0) = (wedgeStart.basis, -4) :=
    alignColumn_last (by simp)
  have first : alignColumn #v[-3, -4] 0 (wedgeStart.basis, -4) = (wedgeDescent.basis, 5) := by
    have component : dot (wedgeStart.basis.get 0) #v[-3, -4] = -3 := by
      simp
    rw [alignColumn_turn component (by norm_num) (by norm_num : (0 : ℝ) ≤ 5) (by norm_num)]
    simp
    norm_num
  have aligned : wedgeStart.alignBasis #v[-3, -4] = (wedgeDescent.basis, 5) := by
    have idle : wedgeStart.active = 0 := rfl
    simp only [alignBasis, Fin.foldr_succ, Fin.foldr_zero, idle, zero_le, if_true]
    exact (congrArg _ last).trans first
  have gradient : wedgeStart.gradientAt wedgeModel wedgeStart.incoming = #v[-3, -4] := by simp
  rw [revise_of_free (by decide) gradient aligned (by norm_num)]
  simp [enterIndependent, settleEntry, descend]
  norm_num
  rfl

theorem judged_wedgeDescent : (wedgeDescent.walk 5).withCandidates wedgeModel =
    { wedgeStopped with incoming := 2 } := by
  simp [walk, withCandidates, activeCandidates, Fin.foldr_succ, multiplierAt, residual,
    sumFrom_eq_sum, Fin.sum_univ_two]
  norm_num

theorem blocking_wedgeStopped : blocking { wedgeStopped with incoming := 2 } = (0, some 1) := by
  simp [blocking, Fin.foldl_succ]
  norm_num

theorem advance_wedgeStopped (before : ℝ) :
    { advance { wedgeStopped with incoming := 2 } 0 before with incoming := 1 } = wedgeStopped := by
  simp [advance]

theorem revise_wedgeStopped : wedgeStopped.revise wedgeModel = (wedgeAxis, true) := by
  have aligned : wedgeStopped.alignBasis #v[1, 0] = (wedgeStopped.basis, 4 / 5) := by
    have one : wedgeStopped.active = 1 := rfl
    have last : alignColumn #v[1, 0] 1 (wedgeStopped.basis, 0) = (wedgeStopped.basis, 4 / 5) :=
      alignColumn_last (by simp)
    simp only [alignBasis, Fin.foldr_succ, Fin.foldr_zero, one]
    exact last
  have gradient : wedgeStopped.gradientAt wedgeModel wedgeStopped.incoming = #v[1, 0] := by simp
  rw [revise_of_free (by decide) gradient aligned (by norm_num)]
  have turned : exchange wedgeModel { wedgeStopped with
      pivots := #v[5, 4 / 5, 0]
      trial := #v[1, 0]
      order := #v[2, 1, 0]
      active := 2 } 0 = { wedgeAxis with direction := wedgeStopped.direction } := by
    refine (exchange_eq (?component : _ = (-3 / 5 : ℝ)) (?pivot : _ = (4 / 5 : ℝ))
      (by norm_num : (0 : ℝ) ≤ 1) (by norm_num)).trans ?_
    case component => simp
    case pivot => simp
    simp
    norm_num
    exact ⟨rfl, rfl⟩
  have entered : enterIndependent { wedgeStopped with trial := #v[1, 0] } (4 / 5) =
      { wedgeStopped with
        pivots := #v[5, 4 / 5, 0]
        trial := #v[1, 0]
        order := #v[2, 1, 0]
        active := 2 } := by
    simp [enterIndependent]
    rfl
  rw [entered, settleEntry_of_constraint rfl (by simp) (by decide)]
  refine congrArg (fun w : Workspace ℝ 2 2 => (w.descend, true)) turned |>.trans ?_
  simp [descend]
  norm_num

theorem judged_wedgeAxis : (wedgeAxis.walk 4).withCandidates wedgeModel =
    { wedgeHeld with incoming := 1 } := by
  simp [walk, withCandidates, activeCandidates, Fin.foldr_succ, multiplierAt, residual,
    sumFrom_eq_sum, Fin.sum_univ_two]
  norm_num

theorem blocking_wedgeHeld : blocking { wedgeHeld with incoming := 1 } = (0, some 2) := by
  simp [blocking, Fin.foldl_succ]
  norm_num

theorem advance_wedgeHeld (before : ℝ) :
    { advance { wedgeHeld with incoming := 1 } 0 before with incoming := 2 } = wedgeHeld := by
  simp [advance]

theorem dependent_wedgeHeld :
    enterDependent wedgeModel { wedgeHeld with trial := #v[4, 3] } #v[4, 3] =
      ({ wedgeHeld with
          pivots := #v[1, -3, 0]
          candidates := #v[7 / 4, -3 / 4, -3]
          trial := #v[7 / 4, 0] }, true) := by
  have second : dependenceAt wedgeModel { wedgeHeld with trial := #v[4, 3] } 1
      ⟨#v[4, 3], wedgeHeld.candidates, none⟩ =
        ⟨#v[7 / 4, 0], #v[3 / 4, -3 / 4, -3], none⟩ := by
    have component : dot (basisAt { wedgeHeld with trial := #v[4, 3] } 1) #v[4, 3] = -3 := by
      simp
    simp only [dependenceAt, component]
    simp
    norm_num
  have first : dependenceAt wedgeModel { wedgeHeld with trial := #v[4, 3] } 0
      ⟨#v[7 / 4, 0], #v[3 / 4, -3 / 4, -3], none⟩ =
        ⟨#v[7 / 4, 0], #v[7 / 4, -3 / 4, -3], some 0⟩ := by
    have component :
        dot (basisAt { wedgeHeld with trial := #v[4, 3] } 0) #v[7 / 4, 0] = 7 / 4 := by
      simp
    simp only [dependenceAt, component]
    simp
  have found : dependence wedgeModel { wedgeHeld with trial := #v[4, 3] } #v[4, 3] =
      ⟨#v[7 / 4, 0], #v[7 / 4, -3 / 4, -3], some 0⟩ := by
    have active : wedgeHeld.active = 2 := rfl
    simp only [dependence, active, Fin.foldr_succ, Fin.foldr_zero]
    exact (congrArg _ second).trans first
  have pivot : dot (basisAt { wedgeHeld with
      trial := #v[7 / 4, 0]
      candidates := #v[7 / 4, -3 / 4, -3] } (wedgeHeld.active - 1)) #v[4, 3] = -3 := by
    simp
  simp only [enterDependent, found, pivot]
  simp

theorem revise_wedgeHeld : wedgeHeld.revise wedgeModel = (wedgeEdge, true) := by
  have gradient : wedgeHeld.gradientAt wedgeModel wedgeHeld.incoming = #v[4, 3] := by simp
  rw [revise_of_full (by decide) (by decide) gradient dependent_wedgeHeld]
  have turned : exchange wedgeModel { wedgeHeld with
      pivots := #v[1, -3, 0]
      candidates := #v[7 / 4, -3 / 4, -3]
      trial := #v[7 / 4, 0]
      order := #v[1, 0, 2] } 0 = { wedgeEdge with direction := wedgeHeld.direction } := by
    refine (exchange_eq (?component : _ = (4 : ℝ)) (?pivot : _ = (-3 : ℝ))
      (by norm_num : (0 : ℝ) ≤ 5) (by norm_num)).trans ?_
    case component => simp
    case pivot => simp
    simp
    norm_num
    exact ⟨rfl, rfl⟩
  rw [settleEntry_of_constraint rfl (by simp) (by decide)]
  refine congrArg (fun w : Workspace ℝ 2 2 => (w.descend, true)) turned |>.trans ?_
  simp [descend]
  norm_num

theorem judged_wedgeEdge : (wedgeEdge.walk (3 / 5)).withCandidates wedgeModel =
    { wedgeLoose with incoming := 2 } := by
  simp [walk, withCandidates, activeCandidates, Fin.foldr_succ, multiplierAt, residual,
    sumFrom_eq_sum, Fin.sum_univ_two]
  norm_num

theorem blocking_wedgeLoose : blocking { wedgeLoose with incoming := 2 } = (0, some 0) := by
  simp [blocking, Fin.foldl_succ]
  norm_num

theorem advance_wedgeLoose (before : ℝ) :
    { advance { wedgeLoose with incoming := 2 } 0 before with incoming := 0 } = wedgeLoose := by
  simp [advance]

theorem revise_wedgeLoose : wedgeLoose.revise wedgeModel = (wedgeAway, true) := by
  have turned : exchange wedgeModel wedgeLoose 0 =
      { wedgeAway with direction := wedgeLoose.direction, active := 2 } := by
    refine (exchange_eq (?component : _ = (4 / 5 : ℝ)) (?pivot : _ = (-3 / 5 : ℝ))
      (by norm_num : (0 : ℝ) ≤ 1) (by norm_num)).trans ?_
    case component => simp
    case pivot => simp
    simp
    norm_num
    rfl
  have positions : List.range' wedgeLoose.incoming
      (wedgeLoose.active - 1 - wedgeLoose.incoming) = [0] := rfl
  have active : wedgeLoose.incoming < wedgeLoose.active := by decide
  simp only [revise, active, if_true, deactivate, positions, List.foldl_cons, List.foldl_nil,
    turned]
  simp [descend]

theorem judged_wedgeAway : (wedgeAway.walk 1).withCandidates wedgeModel = wedgeGone := by
  simp [walk, withCandidates, activeCandidates, Fin.foldr_succ, multiplierAt, residual,
    sumFrom_eq_sum, Fin.sum_univ_two]
  norm_num

theorem blocking_wedgeGone : wedgeGone.blocking = (1, none) := by
  simp [blocking, Fin.foldl_succ]
  norm_num

theorem watch_wedge (workspace : Workspace ℝ 2 2) (origin : workspace.step = #v[0, 0])
    (second : workspace.secondStage = true) (activeRecord patience : Nat) :
    Stage.watch wedgeModel ⟨workspace, 0, activeRecord, patience⟩ =
      if patience = 0 then ⟨workspace, 0, workspace.active, 3⟩
      else if activeRecord < workspace.active then ⟨workspace, 0, workspace.active, 3⟩
      else ⟨workspace, 0, activeRecord, patience - 1⟩ := by
  have target : Stage.target wedgeModel ⟨workspace, 0, activeRecord, patience⟩ = 0 := by
    have zero : (#v[0, 0] : Vector ℝ 2) = 0 := rfl
    simp only [Stage.target, second, if_true, origin, zero]
    rw [dot_comm, dot_zero, neg_zero]
  simp only [Stage.watch, target, lt_self_iff_false, or_false, patienceLimit]

/-- **The objective may rise.**  A constraint takes the place of the objective and then leaves
again, and the walk follows the gradient of the other constraint. -/
theorem objective_rises :
    (∀ k : Fin 2, wedgeModel.bounds.get k.castSucc ≤ 0) ∧
      ∃ ended : Workspace ℝ 2 2, (fresh 2 2).solve wedgeModel 1 4 = some (ended, .boundary) ∧
        ended.step = #v[1, 0] ∧ wedgeModel.slope (Fin.last 2) ended.step = -3 := by
  have first : (Stage.first wedgeStart).turn wedgeModel 1 = .another ⟨wedgeStopped, 0, 0, 3⟩ := by
    have watch : (Stage.first wedgeStart).watch wedgeModel = ⟨wedgeStart, 0, 0, 3⟩ :=
      watch_wedge wedgeStart (by simp) rfl 0 0
    rw [turn_wedge watch (by decide) revise_wedgeStart rfl (by simp) (by norm_num : (0 : ℝ) < 5)
      (by simp; norm_num), Stage.walkTurn_blocked _ rfl judged_wedgeDescent blocking_wedgeStopped,
      advance_wedgeStopped]
  have second : Stage.turn wedgeModel 1 ⟨wedgeStopped, 0, 0, 3⟩ =
      .another ⟨wedgeHeld, 0, 1, 3⟩ := by
    have watch : Stage.watch wedgeModel ⟨wedgeStopped, 0, 0, 3⟩ = ⟨wedgeStopped, 0, 1, 3⟩ :=
      watch_wedge wedgeStopped (by simp) rfl 0 3
    rw [turn_wedge watch (by decide) revise_wedgeStopped rfl (by simp) (by norm_num : (0 : ℝ) < 4)
      (by simp; norm_num), Stage.walkTurn_blocked _ rfl judged_wedgeAxis blocking_wedgeHeld,
      advance_wedgeHeld]
  have third : Stage.turn wedgeModel 1 ⟨wedgeHeld, 0, 1, 3⟩ = .another ⟨wedgeLoose, 0, 2, 3⟩ := by
    have watch : Stage.watch wedgeModel ⟨wedgeHeld, 0, 1, 3⟩ = ⟨wedgeHeld, 0, 2, 3⟩ :=
      watch_wedge wedgeHeld (by simp) rfl 1 3
    rw [turn_wedge watch (by decide) revise_wedgeHeld rfl (by simp) (by norm_num : (0 : ℝ) < 3 / 5)
      (by simp; norm_num), Stage.walkTurn_blocked _ rfl judged_wedgeEdge blocking_wedgeLoose,
      advance_wedgeLoose]
  have fourth : Stage.turn wedgeModel 1 ⟨wedgeLoose, 0, 2, 3⟩ =
      .done (wedgeGone.advance 1 0) .boundary := by
    have watch : Stage.watch wedgeModel ⟨wedgeLoose, 0, 2, 3⟩ = ⟨wedgeLoose, 0, 2, 2⟩ :=
      watch_wedge wedgeLoose (by simp) rfl 2 3
    rw [turn_wedge watch (by decide) revise_wedgeLoose rfl (by simp) one_pos (by simp),
      Stage.walkTurn_free _ rfl judged_wedgeAway blocking_wedgeGone]
    rfl
  have satisfied : ((fresh 2 2).begin wedgeModel).violation = 0 :=
    congrArg violation begin_wedge
  refine ⟨by simp [Fin.forall_fin_two], wedgeGone.advance 1 0, ?_, ?_, ?_⟩
  · rw [solve, satisfied, if_pos (beq_self_eq_true 0), runSecondStage, begin_wedge,
      Stage.run_another first, Stage.run_another second, Stage.run_another third,
      Stage.run_done fourth]
  · simp [advance]
  · simp [advance, LinearModel.slope, Fin.last]

end Wedge

end Workspace

end DerivativeFree
