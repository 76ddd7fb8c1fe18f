import DerivativeFree.Proofs.TrustRegion.Stages

/-!
# A step for all levels of the objective

The search for a step goes from turn to turn, and the turns are the same for all levels of
the objective as long as they hold it active.  So a step does not depend on the level if
this is the case in all turns (`solve_eq`), and no weaker condition does for the turns
themselves (`holdsThroughout_iff`).

It is not always the case.  When the gradient of a constraint that is to enter depends on
the active ones, the constraint takes the place of the last of them, and in the second stage
this is the objective.  In the corner of two constraints below, the next walk is stopped by
the level in one case and by a multiplier in the other, and the steps are not the same
(`step_ne_of_level`).
-/

namespace DerivativeFree

set_option autoImplicit false

variable {α : Type} {n m : Nat}

/-! ## A whole step -/

namespace Workspace

variable [EuclideanField α] {model other : LinearModel α n m} {workspace : Workspace α n m}
  {stage : Stage α n m} {radius : α}

/-- The stages that come up between two turns while a step is found. -/
inductive Visits (model : LinearModel α n m) (radius : α) (workspace : Workspace α n m) :
    Stage α n m → Prop
  /-- Some constraint is violated in the pole. -/
  | violated (violated : ((workspace.begin model).violation == 0) = false) :
      Visits model radius workspace (.first (workspace.begin model))
  /-- All constraints hold in the pole. -/
  | satisfied (satisfied : ((workspace.begin model).violation == 0) = true) :
      Visits model radius workspace (.first (workspace.begin model).includeObjective)
  /-- The stage goes on. -/
  | turn {stage next : Stage α n m} (visited : Visits model radius workspace stage)
      (turned : stage.turn model radius = .another next) : Visits model radius workspace next
  /-- The second stage follows, or is run again. -/
  | second {stage : Stage α n m} {ended : Workspace α n m} {how : StageEnd}
      (visited : Visits model radius workspace stage)
      (turned : stage.turn model radius = .done ended how)
      (further : how = .inside ∨ how = .stalled ∧ stage.workspace.secondStage = false) :
      Visits model radius workspace (.first ended.includeObjective)

/-- Whenever the second stage walks, it does so while the objective is active. -/
def HoldsThroughout (model : LinearModel α n m) (radius : α) (workspace : Workspace α n m) : Prop :=
  ∀ stage, workspace.Visits model radius stage → stage.Holds model radius

/-- These are the stages that the step reaches. -/
theorem visits_iff :
    workspace.Visits model radius stage ↔ workspace.Reaches model radius stage := by
  constructor
  · intro visited
    induction visited with
    | violated violated =>
      rw [Reaches, opening, violated]
      exact .refl
    | satisfied satisfied =>
      rw [Reaches, opening, satisfied]
      exact .refl
    | turn _ turned ih => exact ih.tail (.turn turned)
    | second _ turned further ih => exact ih.tail (.second turned further)
  · intro reached
    induction reached with
    | refl =>
      unfold opening
      split
      case isTrue satisfied => exact .satisfied satisfied
      case isFalse violated => exact .violated (Bool.eq_false_iff.mpr violated)
    | tail _ leads ih =>
      cases leads with
      | turn turned => exact ih.turn turned
      | second turned further => exact ih.second turned further

/-- The first stage begins with a violated constraint that is to enter. -/
theorem firstStage_begin (violated : ((workspace.begin model).violation == 0) = false) :
    (workspace.begin model).FirstStage := by
  refine ⟨rfl, Nat.zero_le m, worst_lt_of_violated (beq_self_eq_true 0) violated,
    fun k inside => ?_⟩
  have entry : (workspace.begin model).constraintAt k = ⟨k, Nat.lt_succ_of_lt inside⟩ := by
    simp [constraintAt, begin, inside, Nat.lt_succ_of_lt inside]
  rw [entry]
  exact Fin.ne_of_lt inside

theorem Visits.firstStage (visited : workspace.Visits model radius stage)
    (early : stage.workspace.secondStage = false) : stage.workspace.FirstStage := by
  induction visited with
  | violated violated => exact firstStage_begin violated
  | satisfied =>
    rw [Stage.first, secondStage_includeObjective] at early
    cases early
  | turn _ turned ih =>
    exact Stage.firstStage_turn (ih ((Stage.secondStage_turn turned).symm.trans early)) turned
  | second =>
    rw [Stage.first, secondStage_includeObjective] at early
    cases early

theorem run_eq (same : model.SameSlopes other) (holds : workspace.HoldsThroughout model radius)
    (visited : workspace.Visits model radius stage) (fuel : Nat) :
    stage.run other radius fuel = stage.run model radius fuel := by
  induction fuel generalizing stage with
  | zero => rfl
  | succ fuel ih =>
    simp only [Stage.run, Stage.turn_eq same visited.firstStage (holds stage visited)]
    split
    case h_1 next turned => exact ih (visited.turn turned)
    case h_2 => rfl

/-- A stage ends in a turn of its own. -/
theorem Visits.run (visited : workspace.Visits model radius stage) {fuel : Nat}
    {ended : Workspace α n m} {how : StageEnd}
    (ran : stage.run model radius fuel = some (ended, how)) :
    ∃ last, workspace.Visits model radius last ∧
      last.workspace.secondStage = stage.workspace.secondStage ∧
      last.turn model radius = .done ended how := by
  obtain ⟨last, reached, second, turned⟩ := (visits_iff.mp visited).run ran
  exact ⟨last, visits_iff.mpr reached, second, turned⟩

theorem runSecondStage_eq (same : model.SameSlopes other)
    (holds : workspace.HoldsThroughout model radius) {begun : Workspace α n m}
    (visited : workspace.Visits model radius (.first begun.includeObjective)) (fuel rounds : Nat) :
    begun.runSecondStage other radius fuel rounds =
      begun.runSecondStage model radius fuel rounds := by
  induction rounds generalizing begun with
  | zero => rfl
  | succ rounds ih =>
    simp only [runSecondStage, run_eq same holds visited]
    split
    case h_3 ended ran =>
      obtain ⟨last, reached, -, turned⟩ := visited.run ran
      exact ih (reached.second turned (.inl rfl))
    all_goals rfl

/-- **A step does not depend on the level of the objective** if the objective is active in every
walk of the second stage. -/
theorem solve_eq (same : model.SameSlopes other) (holds : workspace.HoldsThroughout model radius)
    (fuel : Nat) : workspace.solve other radius fuel = workspace.solve model radius fuel := by
  simp only [solve, begin_eq same]
  split
  case isTrue satisfied => exact runSecondStage_eq same holds (.satisfied satisfied) fuel fuel
  case isFalse violated =>
    have visited : workspace.Visits model radius (.first (workspace.begin model)) :=
      .violated (Bool.eq_false_iff.mpr violated)
    rw [run_eq same holds visited]
    split
    case h_1 => rfl
    case h_2 => rfl
    case h_3 ended how short ran =>
      obtain ⟨last, reached, second, turned⟩ := visited.run ran
      have early : last.workspace.secondStage = false :=
        second.trans (firstStage_begin (Bool.eq_false_iff.mpr violated)).not_secondStage
      refine runSecondStage_eq same holds (reached.second turned ?_) fuel fuel
      cases how with
      | boundary => exact absurd rfl short
      | inside => exact .inl rfl
      | stalled => exact .inr ⟨rfl, early⟩

/-- The condition is exact: if the turns are the same for all levels of the objective, then it is
active in every walk of the second stage. -/
theorem holdsThroughout_iff :
    workspace.HoldsThroughout model radius ↔
      ∀ level stage, workspace.Visits model radius stage →
        stage.turn (model.raised level) radius = stage.turn model radius := by
  constructor
  · intro holds level stage visited
    exact Stage.turn_eq (.raised model level) visited.firstStage (holds stage visited)
  · intro equal stage visited
    refine Stage.holds_of_turn_eq (.raised model 1) ?_ (equal 1 stage visited)
    rw [LinearModel.bounds_raised_last]
    simp

end Workspace

/-! ## A corner -/

namespace Workspace

/-- The objective falls in the direction `(-7, -24)`, and the constraints `x ≥ 0` and
`3 x + 4 y + 25 ≥ 0` hold at the origin. -/
noncomputable def cornerModel (level : ℝ) : LinearModel ℝ 2 2 where
  gradients := #v[#v[1, 0], #v[3, 4], #v[-7, -24]]
  bounds := #v[0, -25, level]

/-- The objective is to enter. -/
noncomputable def cornerStart : Workspace ℝ 2 2 where
  basis := #v[#v[1, 0], #v[0, 1]]
  pivots := #v[0, 0, 0]
  multipliers := #v[0, 25, 0]
  candidates := #v[0, 0, 0]
  direction := #v[0, 0]
  trial := #v[0, 0]
  step := #v[0, 0]
  order := #v[0, 1, 2]
  active := 0
  considered := 3
  incoming := 2
  violation := 0

/-- The objective has entered. -/
noncomputable def cornerDescent : Workspace ℝ 2 2 :=
  { cornerStart with
    basis := #v[#v[-7 / 25, -24 / 25], #v[24 / 25, -7 / 25]]
    pivots := #v[25, 0, 0]
    direction := #v[-7 / 625, -24 / 625]
    trial := #v[-7, -24]
    order := #v[2, 1, 0]
    active := 1 }

/-- The first constraint blocks the walk where it begins. -/
noncomputable def cornerStopped : Workspace ℝ 2 2 :=
  { cornerDescent with
    candidates := #v[13 / 25, -896 / 25, -91 / 25]
    trial := #v[-91 / 25, -312 / 25] }

/-- The first constraint has entered. -/
noncomputable def cornerAxis : Workspace ℝ 2 2 :=
  { cornerStopped with
    basis := #v[#v[1, 0], #v[0, -1]]
    pivots := #v[1, 24, 0]
    multipliers := #v[0, 0, 25]
    direction := #v[0, -1 / 24]
    trial := #v[1, 0]
    order := #v[0, 2, 1]
    active := 2 }

/-- The second constraint blocks the walk. -/
noncomputable def cornerAhead : Workspace ℝ 2 2 :=
  { cornerAxis with
    candidates := #v[91 / 24, 13 / 24, -27]
    trial := #v[0, -13] }

/-- The walk has reached the corner. -/
noncomputable def cornerReached : Workspace ℝ 2 2 :=
  { cornerAhead with
    multipliers := #v[175 / 96, 25 / 96, 0]
    step := #v[0, -25 / 4] }

/-- The second constraint has taken the place of the objective. -/
noncomputable def cornerEdge : Workspace ℝ 2 2 :=
  { cornerReached with
    basis := #v[#v[3 / 5, 4 / 5], #v[-4 / 5, 3 / 5]]
    pivots := #v[5, -4 / 5, 0]
    multipliers := #v[175 / 176, 0, 0]
    candidates := #v[11 / 6, -1 / 6, -27]
    direction := #v[1, -3 / 4]
    trial := #v[11 / 6, 0]
    order := #v[1, 0, 2] }

/-- The residual of the objective, which is not active now, contains its level. -/
noncomputable def cornerJudged (level : ℝ) : Workspace ℝ 2 2 :=
  { cornerEdge with
    candidates := #v[-14 / 5, 15, 1113 / 5 - level]
    trial := #v[33 / 5, -56 / 5] }

/-- At the level `1000` the objective itself blocks the walk, where it begins. -/
noncomputable def cornerLeft : Workspace ℝ 2 2 :=
  { cornerEdge with
    candidates := #v[-14 / 5, 15, -3887 / 5]
    trial := #v[33 / 5, -56 / 5] }

/-- The objective has taken the place of the first constraint. -/
noncomputable def cornerAgain : Workspace ℝ 2 2 :=
  { cornerLeft with
    pivots := #v[5, -44 / 5, 0]
    candidates := #v[-6, 11, -3887 / 5]
    direction := #v[1 / 11, -3 / 44]
    trial := #v[-18, -24]
    order := #v[1, 2, 0] }

/-- The same walk is tried again, and nothing blocks it. -/
noncomputable def cornerKept : Workspace ℝ 2 2 :=
  { cornerAgain with
    candidates := #v[296 / 55, 15 / 11, 33 / 5]
    trial := #v[33 / 5, -56 / 5] }

/-- At the level `0` the second constraint blocks the walk, and not where it begins. -/
noncomputable def cornerPassed : Workspace ℝ 2 2 :=
  { cornerEdge with
    multipliers := #v[0, 625 / 159, 175 / 3]
    candidates := #v[-14 / 5, 15, 1113 / 5]
    trial := #v[33 / 5, -56 / 5]
    step := #v[275 / 159, -400 / 53]
    incoming := 0 }

/-- The second constraint has left. -/
noncomputable def cornerFree : Workspace ℝ 2 2 :=
  { cornerPassed with
    basis := #v[#v[1, 0], #v[0, -1]]
    pivots := #v[1, -4, 0]
    multipliers := #v[625 / 159, 0, 175 / 3]
    direction := #v[1, 0]
    order := #v[0, 1, 2]
    active := 1 }

/-- Nothing blocks the walk along the first constraint. -/
noncomputable def cornerGone : Workspace ℝ 2 2 :=
  { cornerFree with
    candidates := #v[561 / 53, 1408 / 53, 5673 / 53]
    trial := #v[561 / 53, -400 / 53] }

section Corner

attribute [local simp] cornerModel cornerStart cornerDescent cornerStopped cornerAxis cornerAhead
  cornerReached cornerEdge cornerJudged cornerLeft cornerAgain cornerKept cornerPassed cornerFree
  cornerGone entry basisAt gradientAt constraintAt secondStage get_eq_getElem ofFn_eq_mk
  List.ofFn_succ

theorem begin_corner (level : ℝ) :
    ((fresh 2 2).begin (cornerModel level)).includeObjective = cornerStart := by
  have worst : worstBound (cornerModel level) = (0, 0) := by
    simp [worstBound, Fin.foldl_succ]
  have basis : (diagonal 2 1 : Vector (Vector ℝ 2) 2) = #v[#v[1, 0], #v[0, 1]] := rfl
  simp only [begin, includeObjective, worst, basis, ofFn_eq_mk, List.ofFn_succ]
  simp [fresh]
  exact ⟨rfl, rfl⟩

theorem revise_cornerStart (level : ℝ) :
    cornerStart.revise (cornerModel level) = (cornerDescent, true) := by
  have last : alignColumn #v[-7, -24] 1 (cornerStart.basis, 0) = (cornerStart.basis, -24) :=
    alignColumn_last (by simp)
  have first : alignColumn #v[-7, -24] 0 (cornerStart.basis, -24) =
      (cornerDescent.basis, 25) := by
    have component : dot (cornerStart.basis.get 0) #v[-7, -24] = -7 := by
      simp
    rw [alignColumn_turn component (by norm_num) (by norm_num : (0 : ℝ) ≤ 25) (by norm_num)]
    simp
    norm_num
  have aligned : cornerStart.alignBasis #v[-7, -24] = (cornerDescent.basis, 25) := by
    have idle : cornerStart.active = 0 := rfl
    simp only [alignBasis, Fin.foldr_succ, Fin.foldr_zero, idle, zero_le, if_true]
    exact (congrArg _ last).trans first
  have gradient : cornerStart.gradientAt (cornerModel level) cornerStart.incoming = #v[-7, -24] :=
    rfl
  rw [revise_of_free (by decide) gradient aligned (by norm_num)]
  simp [enterIndependent, settleEntry, descend]
  norm_num
  rfl

theorem judged_cornerDescent (level : ℝ) :
    (cornerDescent.walk 325).withCandidates (cornerModel level) = cornerStopped := by
  simp [walk, withCandidates, activeCandidates, Fin.foldr_succ, multiplierAt, residual,
    sumFrom_eq_sum, Fin.sum_univ_two]
  norm_num

theorem blocking_cornerStopped : cornerStopped.blocking = (0, some 2) := by
  simp [blocking, Fin.foldl_succ]
  norm_num

theorem advance_cornerStopped (before : ℝ) :
    { cornerStopped.advance 0 before with incoming := 2 } = cornerStopped := by
  simp [advance]

theorem revise_cornerStopped (level : ℝ) :
    cornerStopped.revise (cornerModel level) = (cornerAxis, true) := by
  have aligned : cornerStopped.alignBasis #v[1, 0] = (cornerStopped.basis, 24 / 25) := by
    have one : cornerStopped.active = 1 := rfl
    have last : alignColumn #v[1, 0] 1 (cornerStopped.basis, 0) = (cornerStopped.basis, 24 / 25) :=
      alignColumn_last (by simp)
    simp only [alignBasis, Fin.foldr_succ, Fin.foldr_zero, one]
    exact last
  have gradient : cornerStopped.gradientAt (cornerModel level) cornerStopped.incoming = #v[1, 0] :=
    rfl
  rw [revise_of_free (by decide) gradient aligned (by norm_num)]
  have turned : exchange (cornerModel level) { cornerStopped with
      pivots := #v[25, 24 / 25, 0]
      multipliers := #v[0, 0, 25]
      trial := #v[1, 0]
      order := #v[2, 0, 1]
      active := 2 } 0 = { cornerAxis with direction := cornerStopped.direction } := by
    refine (exchange_eq (?component : _ = (-7 / 25 : ℝ)) (?pivot : _ = (24 / 25 : ℝ))
      (by norm_num : (0 : ℝ) ≤ 1) (by norm_num)).trans ?_
    case component => simp
    case pivot => simp
    simp
    norm_num
    exact ⟨rfl, rfl⟩
  rw [settleEntry_of_constraint rfl (by simp [enterIndependent]) (by decide)]
  refine congrArg (fun w : Workspace ℝ 2 2 => (w.descend, true)) turned |>.trans ?_
  simp [descend]
  norm_num

theorem dependent_cornerReached (level : ℝ) :
    enterDependent (cornerModel level) { cornerReached with trial := #v[3, 4] } #v[3, 4] =
      ({ cornerReached with
          pivots := #v[1, -4, 0]
          multipliers := #v[0, 175 / 176, 0]
          candidates := #v[11 / 6, -1 / 6, -27]
          trial := #v[11 / 6, 0] }, true) := by
  have second : dependenceAt (cornerModel level) { cornerReached with trial := #v[3, 4] } 1
      ⟨#v[3, 4], cornerReached.candidates, none⟩ =
        ⟨#v[11 / 6, 0], #v[91 / 24, -1 / 6, -27], none⟩ := by
    have component : dot (basisAt { cornerReached with trial := #v[3, 4] } 1) #v[3, 4] = -4 := by
      simp
    simp only [dependenceAt, component]
    simp
    norm_num
  have first : dependenceAt (cornerModel level) { cornerReached with trial := #v[3, 4] } 0
      ⟨#v[11 / 6, 0], #v[91 / 24, -1 / 6, -27], none⟩ =
        ⟨#v[11 / 6, 0], #v[11 / 6, -1 / 6, -27], some (175 / 176)⟩ := by
    have component :
        dot (basisAt { cornerReached with trial := #v[3, 4] } 0) #v[11 / 6, 0] = 11 / 6 := by
      simp
    simp only [dependenceAt, component]
    simp
    norm_num
  have found : dependence (cornerModel level) { cornerReached with trial := #v[3, 4] } #v[3, 4] =
      ⟨#v[11 / 6, 0], #v[11 / 6, -1 / 6, -27], some (175 / 176)⟩ := by
    rw [dependence]
    have active : cornerReached.active = 2 := rfl
    simp only [active, Fin.foldr_succ, Fin.foldr_zero]
    exact (congrArg _ second).trans first
  simp only [enterDependent, found]
  have pivot : dot (basisAt { cornerReached with
      trial := #v[11 / 6, 0]
      candidates := #v[11 / 6, -1 / 6, -27] } (cornerReached.active - 1)) #v[3, 4] = -4 := by
      simp
  simp only [pivot]
  simp
  norm_num

theorem judged_cornerAxis (level : ℝ) :
    (cornerAxis.walk 312).withCandidates (cornerModel level) =
      cornerAhead := by
  simp [walk, withCandidates, activeCandidates, Fin.foldr_succ, multiplierAt, residual,
    sumFrom_eq_sum, Fin.sum_univ_two]
  norm_num


theorem revise_cornerReached (level : ℝ) :
    cornerReached.revise (cornerModel level) = (cornerEdge, true) := by
  have gradient : cornerReached.gradientAt (cornerModel level) cornerReached.incoming = #v[3, 4] :=
    rfl
  rw [revise_of_full (by decide) (by decide) gradient (dependent_cornerReached level)]
  have turned : exchange (cornerModel level) { cornerReached with
      pivots := #v[1, -4, 0]
      multipliers := #v[0, 175 / 176, 0]
      candidates := #v[11 / 6, -1 / 6, -27]
      trial := #v[11 / 6, 0]
      order := #v[0, 1, 2] } 0 = { cornerEdge with direction := cornerReached.direction } := by
    refine (exchange_eq (?component : _ = (3 : ℝ)) (?pivot : _ = (-4 : ℝ))
      (by norm_num : (0 : ℝ) ≤ 5) (by norm_num)).trans ?_
    case component => simp
    case pivot => simp
    simp
    norm_num
    exact ⟨rfl, rfl⟩
  rw [settleEntry_of_constraint rfl (by simp) (by decide)]
  refine congrArg (fun w : Workspace ℝ 2 2 => (w.descend, true)) turned |>.trans ?_
  simp [descend]
  norm_num

theorem blocking_cornerAxis : cornerAhead.blocking = (25 / 52, some 2) := by
  simp [blocking, Fin.foldl_succ]
  norm_num

theorem advance_cornerAxis (before : ℝ) :
    { cornerAhead.advance (25 / 52) before with incoming := 2 } = cornerReached := by
  simp [advance]
  norm_num

theorem judged_cornerEdge (level : ℝ) :
    (cornerEdge.walk (33 / 5)).withCandidates (cornerModel level) =
      cornerJudged level := by
  simp [walk, withCandidates, activeCandidates, Fin.foldr_succ, multiplierAt, residual,
    sumFrom_eq_sum, Fin.sum_univ_two]
  norm_num
  exact neg_add_eq_sub level (1113 / 5)

theorem blocking_cornerLeft : cornerLeft.blocking = (0, some 2) := by
  simp [blocking, Fin.foldl_succ]
  norm_num

theorem advance_cornerLeft (before : ℝ) :
    { cornerLeft.advance 0 before with incoming := 2 } = cornerLeft := by
  simp [advance]
  norm_num

theorem blocking_cornerEdge : (cornerJudged 0).blocking = (125 / 477, some 0) := by
  simp [blocking, Fin.foldl_succ]
  norm_num

theorem advance_cornerEdge (before : ℝ) :
    { (cornerJudged 0).advance (125 / 477) before with incoming := 0 } = cornerPassed := by
  simp [advance]
  norm_num

theorem revise_cornerLeft (level : ℝ) :
    cornerLeft.revise (cornerModel level) = (cornerAgain, true) := by
  have gradient : cornerLeft.gradientAt (cornerModel level) cornerLeft.incoming = #v[-7, -24] :=
    rfl
  have second : dependenceAt (cornerModel level) { cornerLeft with trial := #v[-7, -24] } 1
      ⟨#v[-7, -24], cornerLeft.candidates, none⟩ =
        ⟨#v[-18, -24], #v[-14 / 5, 11, -3887 / 5], some 0⟩ := by
    have component :
        dot (basisAt { cornerLeft with trial := #v[-7, -24] } 1) #v[-7, -24] = -44 / 5 := by
      simp
      norm_num
    simp only [dependenceAt, component]
    simp
    norm_num
  have first : dependenceAt (cornerModel level) { cornerLeft with trial := #v[-7, -24] } 0
      ⟨#v[-18, -24], #v[-14 / 5, 11, -3887 / 5], some 0⟩ =
        ⟨#v[-18, -24], #v[-6, 11, -3887 / 5], some 0⟩ := by
    have component :
        dot (basisAt { cornerLeft with trial := #v[-7, -24] } 0) #v[-18, -24] = -30 := by
      simp
      norm_num
    simp only [dependenceAt, component]
    simp
    norm_num
  have found : dependence (cornerModel level) { cornerLeft with trial := #v[-7, -24] } #v[-7, -24] =
      ⟨#v[-18, -24], #v[-6, 11, -3887 / 5], some 0⟩ := by
    have active : cornerLeft.active = 2 := rfl
    simp only [dependence, active, Fin.foldr_succ, Fin.foldr_zero]
    exact (congrArg _ second).trans first
  have entered : enterDependent (cornerModel level) { cornerLeft with trial := #v[-7, -24] }
      #v[-7, -24] =
      ({ cornerLeft with
          pivots := #v[5, -44 / 5, 0]
          candidates := #v[-6, 11, -3887 / 5]
          trial := #v[-18, -24] }, true) := by
    simp only [enterDependent, found]
    have pivot : dot (basisAt { cornerLeft with
        trial := #v[-18, -24]
        candidates := #v[-6, 11, -3887 / 5] } (cornerLeft.active - 1)) #v[-7, -24] = -44 / 5 := by
        simp
        norm_num
    simp only [pivot]
    simp
    norm_num
  rw [revise_of_full (by decide) (by decide) gradient entered]
  simp [settleEntry, descend]
  norm_num
  rfl

theorem judged_cornerAgain (level : ℝ) :
    (cornerAgain.walk (363 / 5)).withCandidates (cornerModel level) =
      cornerKept := by
  simp [walk, withCandidates, activeCandidates, Fin.foldr_succ, multiplierAt, residual,
    sumFrom_eq_sum, Fin.sum_univ_two]
  norm_num

theorem blocking_cornerAgain : cornerKept.blocking = (1, none) := by
  simp [blocking, Fin.foldl_succ]
  norm_num

theorem revise_cornerPassed (level : ℝ) :
    cornerPassed.revise (cornerModel level) = (cornerFree, true) := by
  have turned : exchange (cornerModel level) cornerPassed 0 =
      { cornerFree with direction := cornerPassed.direction, active := 2 } := by
    refine (exchange_eq (?component : _ = (3 / 5 : ℝ)) (?pivot : _ = (-4 / 5 : ℝ))
      (by norm_num : (0 : ℝ) ≤ 1) (by norm_num)).trans ?_
    case component => simp
    case pivot => simp
    simp
    norm_num
    exact ⟨rfl, rfl⟩
  have positions : List.range' cornerPassed.incoming
      (cornerPassed.active - 1 - cornerPassed.incoming) = [0] := rfl
  have active : cornerPassed.incoming < cornerPassed.active := by decide
  simp only [revise, active, if_true, deactivate, positions, List.foldl_cons, List.foldl_nil,
    turned]
  simp [descend]

theorem judged_cornerFree :
    (cornerFree.walk (1408 / 159)).withCandidates (cornerModel 0) = cornerGone := by
  simp [walk, withCandidates, activeCandidates, Fin.foldr_succ, multiplierAt, residual,
    sumFrom_eq_sum, Fin.sum_univ_two]
  norm_num

theorem blocking_cornerFree : cornerGone.blocking = (1, none) := by
  simp [blocking, Fin.foldl_succ]
  norm_num


theorem turn_cornerStart (level : ℝ) :
    (Stage.first cornerStart).turn (cornerModel level) 13 = .another ⟨cornerStopped, 0, 0, 3⟩ := by
  have watch : (Stage.first cornerStart).watch (cornerModel level) = ⟨cornerStart, 0, 0, 3⟩ := by
    simp [Stage.watch, Stage.first, Stage.target, patienceLimit]
  have room : cornerDescent.room 13 = 169 := by
    rw [room_eq _ (by simp [Fin.forall_fin_two])]
    simp
    norm_num
  have along : dot cornerDescent.step cornerDescent.direction = 0 := by simp
  have full : cornerDescent.fullLength 169 = 325 := by
    rw [fullLength_eq _ (by norm_num) along (by norm_num : (0 : ℝ) ≤ 13 / 25)
      (by simp; norm_num) (.inl rfl)]
    norm_num
  rw [Stage.turn_eq_walkTurn watch (by decide) (revise_cornerStart level) rfl room (by norm_num)
    full, Stage.walkTurn_blocked _ rfl (judged_cornerDescent level) blocking_cornerStopped,
    advance_cornerStopped]

theorem turn_cornerStopped (level : ℝ) :
    Stage.turn (cornerModel level) 13 ⟨cornerStopped, 0, 0, 3⟩ =
      .another ⟨cornerReached, 0, 1, 3⟩ := by
  have watch : Stage.watch (cornerModel level) ⟨cornerStopped, 0, 0, 3⟩ =
      ⟨cornerStopped, 0, 1, 3⟩ := by
    simp [Stage.watch, Stage.target, patienceLimit]
  have room : cornerAxis.room 13 = 169 := by
    rw [room_eq _ (by simp [Fin.forall_fin_two])]
    simp
    norm_num
  have along : dot cornerAxis.step cornerAxis.direction = 0 := by simp
  have full : cornerAxis.fullLength 169 = 312 := by
    rw [fullLength_eq _ (by norm_num) along (by norm_num : (0 : ℝ) ≤ 13 / 24)
      (by simp; norm_num) (.inl rfl)]
    norm_num
  rw [Stage.turn_eq_walkTurn watch (by decide) (revise_cornerStopped level) rfl room (by norm_num)
    full, Stage.walkTurn_blocked _ rfl (judged_cornerAxis level) blocking_cornerAxis,
    advance_cornerAxis]

theorem turn_cornerReached (level : ℝ) :
    Stage.turn (cornerModel level) 13 ⟨cornerReached, 0, 1, 3⟩ =
      Stage.walkTurn (cornerModel level) ⟨cornerReached, -150, 2, 3⟩ cornerEdge (33 / 5)
        (33 / 5) := by
  have target : Stage.target (cornerModel level) ⟨cornerReached, 0, 1, 3⟩ = -150 := by
    simp [Stage.target]
    norm_num
  have watch : Stage.watch (cornerModel level) ⟨cornerReached, 0, 1, 3⟩ =
      ⟨cornerReached, -150, 2, 3⟩ := by
    rw [Stage.watch_of_less (by rw [target]; norm_num), target]
    rfl
  have room : cornerEdge.room 13 = 2079 / 16 := by
    rw [room_eq _ (by simp [Fin.forall_fin_two]; norm_num)]
    simp
    norm_num
  have along : dot cornerEdge.step cornerEdge.direction = 75 / 16 := by
    simp
    norm_num
  have full : cornerEdge.fullLength (2079 / 16) = 33 / 5 := by
    rw [fullLength_eq _ (by norm_num) along (by norm_num : (0 : ℝ) ≤ 15)
      (by simp; norm_num) (.inr (by norm_num))]
    norm_num
  rw [Stage.turn_eq_walkTurn watch (by decide) (revise_cornerReached level) rfl room (by norm_num)
    full]

theorem turn_cornerLeft :
    ∃ ended, Stage.turn (cornerModel 1000) 13 ⟨cornerLeft, -150, 2, 3⟩ = .done ended .boundary ∧
      ended.step = #v[33 / 5, -56 / 5] := by
  have target : Stage.target (cornerModel 1000) ⟨cornerLeft, -150, 2, 3⟩ = -150 := by
    simp [Stage.target]
    norm_num
  have watch : Stage.watch (cornerModel 1000) ⟨cornerLeft, -150, 2, 3⟩ =
      ⟨cornerLeft, -150, 2, 2⟩ := by
    simp only [Stage.watch, target]
    simp
  have room : cornerAgain.room 13 = 2079 / 16 := by
    rw [room_eq _ (by simp [Fin.forall_fin_two]; norm_num)]
    simp
    norm_num
  have along : dot cornerAgain.step cornerAgain.direction = 75 / 176 := by
    simp
    norm_num
  have full : cornerAgain.fullLength (2079 / 16) = 363 / 5 := by
    rw [fullLength_eq _ (by norm_num) along (by norm_num : (0 : ℝ) ≤ 15 / 11)
      (by simp; norm_num) (.inr (by norm_num))]
    norm_num
  have turned := Stage.turn_eq_walkTurn watch (by decide) (revise_cornerLeft 1000) rfl room
    (by norm_num) full
  refine ⟨_, turned.trans (Stage.walkTurn_free _ rfl (judged_cornerAgain 1000)
    blocking_cornerAgain), ?_⟩
  simp [advance]

theorem turn_cornerPassed :
    ∃ ended, Stage.turn (cornerModel 0) 13 ⟨cornerPassed, -150, 2, 3⟩ = .done ended .boundary ∧
      ended.step = #v[561 / 53, -400 / 53] := by
  have target : Stage.target (cornerModel 0) ⟨cornerPassed, -150, 2, 3⟩ = -26875 / 159 := by
    simp [Stage.target]
    norm_num
  have watch : Stage.watch (cornerModel 0) ⟨cornerPassed, -150, 2, 3⟩ =
      ⟨cornerPassed, -26875 / 159, 2, 3⟩ := by
    rw [Stage.watch_of_less (by rw [target]; norm_num), target]
    rfl
  have room : cornerFree.room 13 = (561 / 53) ^ 2 - (275 / 159) ^ 2 := by
    rw [room_eq _ (by simp [Fin.forall_fin_two]; norm_num)]
    simp
    norm_num
  have along : dot cornerFree.step cornerFree.direction = 275 / 159 := by simp
  have full : cornerFree.fullLength ((561 / 53) ^ 2 - (275 / 159) ^ 2) = 1408 / 159 := by
    rw [fullLength_eq _ (by norm_num) along (by norm_num : (0 : ℝ) ≤ 561 / 53)
      (by simp; norm_num) (.inr (by norm_num))]
    norm_num
  have turned := Stage.turn_eq_walkTurn watch (by decide) (revise_cornerPassed 0) rfl room
    (by norm_num) full
  refine ⟨_, turned.trans (Stage.walkTurn_free _ rfl judged_cornerFree blocking_cornerFree), ?_⟩
  simp [advance]

theorem solve_corner {level : ℝ} {ended : Workspace ℝ 2 2} {next : Stage ℝ 2 2}
    (third : Stage.turn (cornerModel level) 13 ⟨cornerReached, 0, 1, 3⟩ = .another next)
    (fourth : next.turn (cornerModel level) 13 = .done ended .boundary) :
    (fresh 2 2).solve (cornerModel level) 13 4 = some (ended, .boundary) := by
  have satisfied : ((fresh 2 2).begin (cornerModel level)).violation = 0 :=
    congrArg violation (begin_corner level)
  rw [solve, satisfied, if_pos (beq_self_eq_true 0), runSecondStage, begin_corner,
    Stage.run_another (turn_cornerStart level), Stage.run_another (turn_cornerStopped level),
    Stage.run_another third, Stage.run_done fourth]

/-- **A step may depend on the level of the objective.** -/
theorem step_ne_of_level :
    ∃ passed stopped : Workspace ℝ 2 2,
      (fresh 2 2).solve (cornerModel 0) 13 4 = some (passed, .boundary) ∧
      (fresh 2 2).solve ((cornerModel 0).raised (-1000)) 13 4 = some (stopped, .boundary) ∧
      passed.step = #v[561 / 53, -400 / 53] ∧ stopped.step = #v[33 / 5, -56 / 5] := by
  have raised : (cornerModel 0).raised (-1000) = cornerModel 1000 := by
    simp [LinearModel.raised]
  have blocked : Stage.turn (cornerModel 0) 13 ⟨cornerReached, 0, 1, 3⟩ =
      .another ⟨cornerPassed, -150, 2, 3⟩ := by
    rw [turn_cornerReached, Stage.walkTurn_blocked _ rfl (judged_cornerEdge 0) blocking_cornerEdge,
      advance_cornerEdge]
  have held : Stage.turn (cornerModel 1000) 13 ⟨cornerReached, 0, 1, 3⟩ =
      .another ⟨cornerLeft, -150, 2, 3⟩ := by
    have judged : (cornerEdge.walk (33 / 5)).withCandidates (cornerModel 1000) = cornerLeft := by
      rw [judged_cornerEdge]
      simp
      norm_num
    rw [turn_cornerReached, Stage.walkTurn_blocked _ rfl judged blocking_cornerLeft,
      advance_cornerLeft]
  obtain ⟨passed, passing, far⟩ := turn_cornerPassed
  obtain ⟨stopped, stopping, near⟩ := turn_cornerLeft
  refine ⟨passed, stopped, solve_corner blocked passing, ?_, far, near⟩
  rw [raised]
  exact solve_corner held stopping

end Corner

end Workspace

end DerivativeFree
