import DerivativeFree.Proofs.Search.Merit
import DerivativeFree.Proofs.Search.Effort
import DerivativeFree.Proofs.Search.Samples
import DerivativeFree.Proofs.TrustRegion.Violation

/-!
# What a trial point promises

When an iteration plans a trial point, the greatest violation is not predicted to rise, and no
vertex is better than the pole under the penalty that is in force then.  If the violation is
predicted to fall, then the penalty makes the merit fall by at least half of what the objective is
predicted to change (`Reached.trial_promise`).

In the pole the model has the violations of the sample (`worstBound_interpolate_le`), and its step
leaves none that is greater (`Workspace.solve_contained`).  The rest is the rule by which the
penalty is raised: at least to one and a half times what makes up for the objective.
-/

namespace DerivativeFree

set_option autoImplicit false

variable {α : Type} [EuclideanField α] {n u b m : Nat}

/-- No constraint of the model is violated in the pole more than the sample says. -/
theorem LinearModel.worstBound_interpolate_le {simplex : Simplex α n m}
    (explained : simplex.poleSample.violation =
      Sample.worstViolation simplex.poleSample.constraints) :
    (Workspace.worstBound (LinearModel.interpolate simplex)).1 ≤ simplex.poleSample.violation := by
  obtain ⟨start, above⟩ := largestFrom_le_iff.mp explained.ge
  by_cases none : (Workspace.worstBound (LinearModel.interpolate simplex)).1 = 0
  · exact none.trans_le start
  · obtain ⟨c, -, worst⟩ := Workspace.worstBound_attained none
    rw [← worst, LinearModel.interpolate, get_neg, Sample.row_castSucc]
    exact above c

namespace Search

variable {search next : Search α n u b} {model : LinearModel α n (u + b)} {step : Vector α n}
  {plan : Plan α n} {fuel : Nat}

/-! ## The rule for the penalty -/

/-- A penalty that makes up for the objective one and a half times pays for half of its change. -/
theorem half_increase_le {penalty increase reduction : α} (nonneg : 0 ≤ penalty)
    (falls : 0 < reduction) (enough : 1.5 * (increase / reduction) ≤ penalty) :
    |increase| / 2 ≤ penalty * reduction - increase := by
  have product := mul_nonneg nonneg falls.le
  have paid : 1.5 * increase ≤ penalty * reduction := by
    have scaled := mul_le_mul_of_nonneg_right enough falls.le
    rwa [mul_assoc, div_mul_cancel₀ _ falls.ne'] at scaled
  norm_num at paid
  rcases abs_cases increase with ⟨same, rises⟩ | ⟨same, lowers⟩
  · rw [same]
    linarith
  · rw [same]
    linarith

/-- What is known when a step is to be tried: the plan is what the model promises, the pole is the
best vertex, and the penalty has been raised if the step calls for it. -/
structure Backed (model : LinearModel α n (u + b)) (search : Search α n u b) (step : Vector α n)
    (plan : Plan α n) (next : Search α n u b) : Prop where
  plan : plan = search.promise model next.penalty step
  simplex : next.simplex = search.simplex
  kept : search.penalty ≤ next.penalty
  enough : 1.5 * search.penaltyFor model step ≤ next.penalty
  best : search.PoleBest → next.PoleBest

theorem Weighed.backed (weighed : Weighed model search step next) (nonneg : 0 ≤ search.penalty)
    (planned : next.phase = .evaluate (.trial plan)) : Backed model search step plan next := by
  cases weighed with
  | trial enough alike =>
    obtain ⟨journal, rfl⟩ := alike
    obtain rfl : search.promise model search.penalty step = plan := by simpa using planned
    exact ⟨rfl, rfl, le_rfl, not_lt.mp enough, id⟩
  | raised low kept alike =>
    obtain ⟨journal, rfl⟩ := alike
    obtain rfl : search.promise model (2.0 * search.penaltyFor model step) step = plan := by
      simpa using planned
    refine ⟨rfl, rfl, (penalty_lt_raised nonneg low).le, ?_, fun _ =>
      Simplex.poleBest_of_not_dethroned kept⟩
    exact mul_le_mul_of_nonneg_right (by norm_num) (penaltyFor_pos nonneg low).le
  | dethroned _ _ alike =>
    obtain ⟨journal, rfl⟩ := alike
    cases planned

/-! ## Trial points -/

variable {options : Options α} {box : Box α n} {record : Record α n u}

/-- **What a trial point promises.**  The penalty has not fallen, the violation is not predicted to
rise, and the pole is the best vertex.  If the violation is predicted to fall, then the merit is
predicted to fall by at least half of the change of the objective. -/
theorem Reached.trial_promise {search next : Search α n u box.boundCount}
    (reached : Reached options box record search)
    (clean : ∀ inquiry ∈ record, ∀ error, inquiry.answer = .error error → error = .halt)
    (due : search.phase = .iterate) (found : search.iterate fuel = some next)
    (planned : next.phase = .evaluate (.trial plan)) :
    (0 ≤ next.penalty ∧ search.penalty ≤ next.penalty) ∧
      (plan.violationReduction =
          next.violation - next.modelled.predictedViolation plan.step ∧
        0 ≤ plan.violationReduction) ∧
      (∀ vertex, next.simplex.merit next.penalty .pole ≤
        next.simplex.merit next.penalty vertex) ∧
      (plan.meritReduction = next.penalty * plan.violationReduction -
          next.modelled.predictedIncrease plan.step ∧
        (0 < plan.violationReduction →
          |next.modelled.predictedIncrease plan.step| / 2 ≤ plan.meritReduction)) := by
  have nonneg := reached.penalty_nonneg
  cases iterate_outcome found with
  | spoilt _ _ alike =>
    obtain ⟨journal, rfl⟩ := alike
    cases planned
  | move _ alike =>
    obtain ⟨journal, rfl⟩ := alike
    cases planned
  | short _ _ _ alike =>
    obtain ⟨journal, rfl⟩ := alike
    cases planned
  | @weigh workspace how journal placed solved weighed =>
    obtain ⟨plan, simplex, kept, enough, best⟩ := weighed.backed nonneg planned
    have rises : 0 ≤ next.penalty := nonneg.trans kept
    have model : next.modelled = search.surveyed.modelled :=
      congrArg LinearModel.interpolate simplex
    have violation : next.violation = search.surveyed.violation :=
      congrArg (fun simplex => simplex.poleSample.violation) simplex
    have falls : 0 ≤ search.surveyed.violation -
        search.surveyed.modelled.predictedViolation workspace.step := by
      have sampled : ∀ vertex, search.simplex.Sampled box record vertex := by
        have consistent := reached.consistent clean
        simpa only [Consistent, due] using consistent
      obtain ⟨inquiry, -, explains⟩ := Simplex.Sampled.selectPole sampled search.penalty .pole
      have most := LinearModel.worstBound_interpolate_le explains.violation
      exact sub_nonneg.mpr ((Workspace.solve_contained solved).trans most)
    have poled := best (search.simplex.poleBest_selectPole search.penalty)
    subst plan
    rw [model, violation]
    refine ⟨⟨rises, kept⟩, ⟨rfl, falls⟩, fun vertex => ?best, rfl, fun some => ?pays⟩
    case best =>
      cases vertex with
      | pole => exact le_rfl
      | edge j => exact poled j
    case pays =>
      have some : 0 < search.surveyed.violation -
          search.surveyed.modelled.predictedViolation workspace.step := some
      have needed : 1.5 * penaltyNeeded
          (search.surveyed.modelled.predictedIncrease workspace.step)
          (search.surveyed.violation -
            search.surveyed.modelled.predictedViolation workspace.step) ≤ next.penalty := enough
      rw [penaltyNeeded, if_pos some] at needed
      exact half_increase_le rises some needed

end Search

/-! ## A constraint on the line -/

namespace Workspace

/-- A constraint on the line that is violated by one in the pole and rises ahead of it, like the
objective falls. -/
noncomputable def aheadModel : LinearModel ℝ 1 1 where
  gradients := .ofFn ![rationals ![1], rationals ![1]]
  bounds := rationals ![1, 1]

/-- The constraint is to enter. -/
noncomputable def aheadStart : Workspace ℝ 1 1 where
  basis := .ofFn ![rationals ![1]]
  pivots := rationals ![0, 0]
  multipliers := rationals ![0, 0]
  candidates := rationals ![0, 0]
  direction := rationals ![0]
  trial := rationals ![0]
  step := rationals ![0]
  order := .ofFn ![0, 0]
  active := 0
  considered := 1
  incoming := 0
  violation := 1

/-- The constraint has entered. -/
noncomputable def aheadEntered : Workspace ℝ 1 1 :=
  { aheadStart with
    pivots := rationals ![1, 0]
    direction := rationals ![1]
    trial := rationals ![1]
    active := 1 }

/-- The walk removes the violation. -/
noncomputable def aheadJudged : Workspace ℝ 1 1 :=
  { aheadEntered with
    candidates := rationals ![1, 0]
    violation := 0 }

section Ahead

attribute [local simp] rationals aheadModel aheadStart aheadEntered aheadJudged entry basisAt
  gradientAt constraintAt secondStage get_eq_getElem ofFn_eq_mk List.ofFn_succ sumFrom_eq_sum
  largestFrom_succ largestFrom_zero

theorem begin_ahead : (fresh 1 1).begin aheadModel = aheadStart := by
  have worst : worstBound aheadModel = (1, 0) := by
    simp [worstBound, Fin.foldl_succ]
  have basis : (diagonal 1 1 : Vector (Vector ℝ 1) 1) = #v[#v[1]] := rfl
  simp only [begin, worst, basis, ofFn_eq_mk, List.ofFn_succ]
  simp [fresh]
  exact ⟨rfl, rfl⟩

attribute [local simp] revise activate alignBasis alignColumn enterIndependent settleEntry approach
  Workspace.judged walked walk trialViolation withCandidates activeCandidates multiplierAt residual
  blocking Fin.foldl_succ Fin.foldr_succ

/-- The walk ends inside the trust region unless the radius is one. -/
theorem turn_ahead {radius : ℝ} (enough : 1 ≤ radius) :
    (Stage.first aheadStart).turn aheadModel radius =
      .done (aheadJudged.advance 1 1) (if radius = 1 then .boundary else .inside) := by
  have watch : (Stage.first aheadStart).watch aheadModel = ⟨aheadStart, 1, 0, 3⟩ := by
    simp [Stage.watch, Stage.first, Stage.target, patienceLimit]
  have revision : aheadStart.revise aheadModel = (aheadEntered, true) := by
    simp
    rfl
  have judged : aheadEntered.judged aheadModel 1 = aheadJudged := by
    simp
  have free : aheadJudged.blocking = (1, none) := by
    simp
  have origin : aheadEntered.step = 0 := by
    simp
    rfl
  have square : (1 : ℝ) * 1 = dot aheadEntered.direction aheadEntered.direction := by
    simp
  have turned := Stage.turn_of_free watch three_ne_zero revision rfl one_pos origin one_pos
    square ((one_mul 1).trans_le enough) judged free
  have full : ((1 : ℝ) == radius / 1) = true ↔ radius = 1 := by
    rw [beq_iff_eq, div_one, eq_comm]
  exact turned.trans (congrArg (Turn.done _) (if_congr full rfl rfl))

theorem solve_ahead (workspace : Workspace ℝ 1 1) : ∃ ended : Workspace ℝ 1 1,
    workspace.solve aheadModel 1 1 = some (ended, .boundary) ∧ ended.step = #v[1] := by
  have violated : (aheadStart.violation == (0 : ℝ)) = false :=
    beq_eq_false_iff_ne.mpr one_ne_zero
  have alone : (fresh 1 1).solve aheadModel 1 1 = some (aheadJudged.advance 1 1, .boundary) := by
    rw [solve, begin_ahead, violated, if_neg Bool.false_ne_true,
      Stage.run_done (turn_ahead le_rfl), if_pos rfl]
  have same := solve_reused aheadModel 1 1 (fresh 1 1) workspace
  rw [alone] at same
  obtain ⟨⟨ended, how⟩, solved, ends⟩ := Option.map_eq_some_iff.mp same
  obtain ⟨step, rfl⟩ := Prod.mk.inj ends
  refine ⟨ended, solved, step.trans ?_⟩
  simp [advance]

theorem predictedViolation_ahead : aheadModel.predictedViolation #v[1] = 0 := by
  simp [LinearModel.predictedViolation, LinearModel.slope]

theorem predictedIncrease_ahead : aheadModel.predictedIncrease #v[1] = -1 := by
  simp [LinearModel.predictedIncrease, LinearModel.slope, Fin.last]

end Ahead

end Workspace

namespace Search

/-- The search on the line under a constraint, started at zero. -/
noncomputable def aheadBegun : Search ℝ 1 1 0 :=
  (create 1 1 0 lineOptions).startAt (rationals ![0])

/-- The search after the value zero has been found at zero, where the constraint is violated by
two. -/
noncomputable def aheadOpened : Search ℝ 1 1 0 :=
  (aheadBegun.informed realLine (rationals ![-2]) 0).answer (.vertex .pole)

/-- The search after the value minus one has been found at one, where the constraint is violated by
one. -/
noncomputable def aheadComplete : Search ℝ 1 1 0 :=
  (aheadOpened.informed realLine (rationals ![-1]) (-1)).answer (.vertex (.edge (.last 0)))

/-- The pole lies at one, and the other vertex at zero. -/
noncomputable def aheadSimplex : Simplex ℝ 1 (1 + 0) where
  edges := .ofFn ![rationals ![-1]]
  pole := rationals ![1]
  inverse := .ofFn ![rationals ![-1]]
  samples := .ofFn ![⟨rationals ![-2], 0, 1 + 1⟩]
  poleSample := ⟨rationals ![-1], -1, 1⟩

/-- The points and the answers of the search on the line under a constraint. -/
noncomputable def aheadRecord : Record ℝ 1 1 :=
  #[⟨rationals ![0], rationals ![-2], .ok 0⟩, ⟨aheadOpened.point, rationals ![-1], .ok (-1)⟩]

theorem reached_ahead : Reached lineOptions realLine aheadRecord aheadComplete := by
  have entry : (create 1 1 0 lineOptions).enter #[0] = .ok aheadBegun := by
    rw [aheadBegun, rationals_one, Rat.cast_zero]
    exact enter_at_zero validRadii_line (by decide) 1 0
  have start : Reached lineOptions realLine #[] aheadBegun := Reached.create.enter #[0] entry
  have first := start.answer (rationals ![-2]) 0 rfl (by decide)
  exact first.answer (rationals ![-1]) (-1) rfl (by decide)

section Ahead

attribute [local simp] rationals_one ofFn_eq_mk List.ofFn_succ aheadSimplex get_eq_getElem

theorem informed_ahead (search : Search ℝ 1 1 0) {value objective violation : ℝ}
    (violated : max 0 (-value) = violation) :
    (search.informed realLine #v[value] objective).evaluator.sample =
      ⟨#v[value], objective, violation⟩ := by
  have whole : ∀ rest : Vector ℝ 0, #v[value] ++ rest = (#v[value] : Vector ℝ (1 + 0)) := by
    intro rest
    obtain rfl : rest = #v[] := Vector.eq_empty
    rfl
  simp only [informed, Evaluator.sampleAt, whole, Sample.worstViolation, largestFrom_succ,
    largestFrom_zero, larger_eq_max]
  exact congrArg _ violated

theorem simplex_ahead : aheadComplete.simplex = aheadSimplex := by
  have simplex : aheadComplete.simplex =
      (((Simplex.axisAligned (rationals ![0]) 1 (1 + 0)).setSample .pole
        (informed realLine aheadBegun (rationals ![-2]) 0).evaluator.sample).insertInitial 0
          (informed realLine aheadOpened (rationals ![-1]) (-1)).evaluator.sample
            aheadOpened.point 1).1 := rfl
  have point : aheadOpened.point = #v[1] := by
    have moved : aheadOpened.point = (rationals ![0]).set 0 ((rationals ![0]).get 0 + 1) := rfl
    rw [moved]
    exact vector_ext fun i => by simp
  have two : max 0 (-((-2 : ℚ) : ℝ)) = 1 + 1 := by norm_num
  have one : max 0 (-((-1 : ℚ) : ℝ)) = 1 := by norm_num
  rw [simplex, point]
  simp only [rationals_one]
  rw [informed_ahead _ two, informed_ahead _ one, Rat.cast_zero,
    insertInitial_better (neg_lt_zero.mpr one_pos)]
  simp

theorem surveyed_ahead : aheadComplete.surveyed.simplex = aheadSimplex := by
  have lower : aheadSimplex.poleSample.objective < (aheadSimplex.samples.get 0).objective := by
    simp
  change (aheadComplete.simplex.selectPole 0).1 = aheadSimplex
  rw [simplex_ahead, selectPole_of_lower lower]

theorem gradientOf_ahead (k : Fin 2) {slope : ℝ}
    (rise : (aheadSimplex.samples.get 0).row.get k - aheadSimplex.poleSample.row.get k = -slope) :
    LinearModel.gradientOf aheadSimplex k = #v[slope] := by
  refine vector_ext fun i => ?_
  have rise : (aheadSimplex.samples.get 0).row.get k + -aheadSimplex.poleSample.row.get k =
      -slope := by rw [← rise, sub_eq_add_neg]
  rw [LinearModel.gradientOf, Vector.get_ofFn, dot_eq_sum, Fin.sum_univ_one, get_map, rise,
    Fin.fin_one_eq_zero i]
  simp [column]

theorem modelled_ahead : aheadComplete.surveyed.modelled = Workspace.aheadModel := by
  have constraint : LinearModel.gradientOf aheadSimplex 0 = #v[1] :=
    gradientOf_ahead 0 (by norm_num [Sample.row])
  have objective : LinearModel.gradientOf aheadSimplex 1 = #v[-1] :=
    gradientOf_ahead 1 (by norm_num [Sample.row])
  have gradients :
      (LinearModel.interpolate aheadSimplex).gradients = Workspace.aheadModel.gradients := by
    simp [-aheadSimplex, LinearModel.interpolate, constraint, objective, Workspace.aheadModel]
  have bounds : (LinearModel.interpolate aheadSimplex).bounds = Workspace.aheadModel.bounds :=
    vector_ext fun i => by
      fin_cases i <;> simp [LinearModel.interpolate, Sample.row, Workspace.aheadModel, rationals]
  rw [modelled, surveyed_ahead]
  exact congrArg₂ LinearModel.mk gradients bounds

theorem violation_ahead : aheadComplete.surveyed.violation = 1 := by
  rw [Search.violation, surveyed_ahead]
  rfl

end Ahead

/-- The step that removes the violation is tried without a penalty, as it lowers the objective. -/
theorem planned_ahead {search next : Search ℝ 1 1 0} (penalty : search.penalty = 0)
    (violation : search.violation = 1)
    (weighed : Weighed Workspace.aheadModel search #v[1] next) :
    next.phase = .evaluate (.trial ⟨#v[1], 1, 1⟩) := by
  have removed : search.violation - Workspace.aheadModel.predictedViolation #v[1] = 1 := by
    rw [violation, Workspace.predictedViolation_ahead, sub_zero]
  have needed : search.penaltyFor Workspace.aheadModel #v[1] = -1 := by
    rw [penaltyFor, removed, Workspace.predictedIncrease_ahead, penaltyNeeded, if_pos one_pos,
      div_one]
  have promised : search.promise Workspace.aheadModel 0 #v[1] = ⟨#v[1], 1, 1⟩ := by
    rw [promise, removed, Workspace.predictedIncrease_ahead]
    norm_num
  have enough : ¬ search.penalty < 1.5 * search.penaltyFor Workspace.aheadModel #v[1] := by
    rw [penalty, needed]
    norm_num
  cases weighed with
  | raised low => exact absurd low enough
  | dethroned low => exact absurd low enough
  | trial _ alike =>
    obtain ⟨journal, rfl⟩ := alike
    exact congrArg (fun plan => Phase.evaluate (.trial plan)) (penalty ▸ promised)

/-- The iteration plans a step that removes the violation. -/
theorem iterate_ahead : ∃ next, aheadComplete.iterate 1 = some next ∧
    next.phase = .evaluate (.trial ⟨#v[1], 1, 1⟩) := by
  obtain ⟨workspace, solved, step⟩ := Workspace.solve_ahead aheadComplete.workspace
  rw [← modelled_ahead] at solved
  have radius : aheadComplete.radius = 1 := rfl
  have solvable : (aheadComplete.workspace.solve aheadComplete.surveyed.modelled
      aheadComplete.radius 1).isSome := by
    rw [radius, solved]
    rfl
  obtain ⟨next, found⟩ := Option.isSome_iff_exists.mp (iterate_isSome solvable)
  refine ⟨next, found, ?_⟩
  cases iterate_outcome found with
  | spoilt strict => cases strict
  | move given =>
    have placed : aheadComplete.surveyed.misplaced = none := rfl
    rw [placed] at given
    cases given
  | short _ other =>
    rw [radius, solved] at other
    cases other
  | weigh journal _ same weighed =>
    rw [radius, solved] at same
    cases same
    rw [step, modelled_ahead] at weighed
    have violation : Search.violation { aheadComplete.surveyed with workspace, journal } = 1 :=
      violation_ahead
    exact planned_ahead rfl violation weighed

/-- On the line a step is tried that removes the violation and lowers the objective. -/
theorem trial_promise_on_line :
    ∃ (record : Record ℝ 1 1) (search next : Search ℝ 1 1 0),
      Reached lineOptions realLine record search ∧ record.size = 2 ∧
      search.iterate 1 = some next ∧ next.phase = .evaluate (.trial ⟨#v[1], 1, 1⟩) ∧
      (0 ≤ next.penalty ∧ search.penalty ≤ next.penalty) ∧
      1 = next.violation - next.modelled.predictedViolation #v[1] ∧
      (∀ vertex, next.simplex.merit next.penalty .pole ≤
        next.simplex.merit next.penalty vertex) ∧
      |next.modelled.predictedIncrease #v[1]| / 2 ≤ 1 := by
  obtain ⟨next, found, planned⟩ := iterate_ahead
  have clean : ∀ inquiry ∈ aheadRecord,
      ∀ error, inquiry.answer = .error error → error = .halt := by
    refine clean_of_answered fun inquiry asked => ?_
    rcases List.mem_pair.mp (Array.mem_toList_iff.mpr asked) with rfl | rfl
    · exact ⟨0, rfl⟩
    · exact ⟨-1, rfl⟩
  obtain ⟨penalty, violation, best, -, pays⟩ :=
    reached_ahead.trial_promise clean rfl found planned
  exact ⟨_, _, next, reached_ahead, rfl, found, planned, penalty, violation.1, best,
    pays one_pos⟩

end Search

end DerivativeFree
