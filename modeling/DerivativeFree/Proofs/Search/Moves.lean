import DerivativeFree.Proofs.Search.Reached

/-!
# What a search does between two questions

Each thing that a search does is described once, as the state that it leads to.  The
journal is left open in these descriptions, because nothing is ever read from it.

An iteration has the most outcomes: after the choice of the pole it ends the search, moves
a vertex, finds the step too short, plans a trial, or raises the penalty and starts over.
`Iterated` lists them with the tests that lead to each, and `iterate_outcome` says that
there are no others.  `Reduced` and `reduce_outcome` do the same for a reduction.
-/

namespace DerivativeFree.Search

set_option autoImplicit false

variable {α : Type} [Scalar α] {n u b : Nat}

/-! ## Reports -/

/-- The searches differ in their journals at most. -/
def Alike (search other : Search α n u b) : Prop :=
  ∃ journal, search = { other with journal }

namespace Alike

variable {search other third : Search α n u b}

theorem refl (search : Search α n u b) : search.Alike search :=
  ⟨search.journal, rfl⟩

theorem trans (first : search.Alike other) (second : other.Alike third) : search.Alike third := by
  obtain ⟨journal, rfl⟩ := first
  obtain ⟨earlier, rfl⟩ := second
  exact ⟨journal, rfl⟩

theorem ite {condition : Prop} [Decidable condition] (holds : search.Alike third)
    (fails : other.Alike third) : (if condition then search else other).Alike third := by
  split
  · exact holds
  · exact fails

end Alike

theorem alike_note (search : Search α n u b) (level : Level) (notice : Notice α) :
    (search.note level notice).Alike search :=
  ⟨_, rfl⟩

theorem alike_reportAt (search : Search α n u b) (verbosity : Verbosity) (notice : Notice α) :
    (search.reportAt verbosity notice).Alike search := by
  unfold reportAt
  split
  · exact search.alike_note .info notice
  · exact .refl search

theorem alike_reportValues (search : Search α n u b) (objective violation : α)
    (x : Vector α n) : (search.reportValues objective violation x).Alike search :=
  ⟨_, rfl⟩

theorem alike_reportSample (search : Search α n u b) : search.reportSample.Alike search := by
  simp only [reportSample]
  split
  · exact search.alike_reportValues ..
  · exact .refl search

/-! ## The start and the end -/

theorem alike_startAt (search : Search α n u b) (x : Vector α n) :
    (search.startAt x).Alike { search with
      point := x
      radius := search.options.radiusBegin
      penalty := 0
      stepDue := false
      simplex := Simplex.axisAligned x search.options.radiusBegin (u + b)
      shape := Shape.unmeasured n
      phase := .evaluate (.vertex .pole) } :=
  alike_reportAt ..

/-- A search that a step enters has started before, or starts now. -/
theorem enter_eq {search entered : Search α n u b} {point : Array α}
    (entry : search.enter point = .ok entered) :
    search.phase ≠ .start ∧ entered = search ∨
      search.phase = .start ∧ search.options.obstacle? n point = none ∧
        entered = search.startAt (Vector.ofFn fun i => point[i.val]?.getD 0) := by
  unfold enter at entry
  split at entry
  case h_1 fresh =>
    split at entry
    case h_1 => cases entry
    case h_2 clear =>
      cases entry
      exact .inr ⟨fresh, clear, rfl⟩
  all_goals
    rename_i started
    cases entry
    exact .inl ⟨by simp [started], rfl⟩

theorem alike_finish (search : Search α n u b) (status : Status) :
    (search.finish status).Alike
      { search with best := search.simplex.pole, phase := .done status } :=
  ((alike_reportAt ..).trans (alike_reportAt ..)).trans (alike_reportAt ..)

theorem alike_halted (search : Search α n u b) (constraints : Vector α u) :
    (search.halted constraints).Alike { search.counted constraints with
      best := search.simplex.pole
      phase := .done .exhausted } :=
  (alike_finish ..).trans ⟨_, rfl⟩

/-! ## Answers -/

theorem recordVertex_early {search : Search α n u b} (few : search.evaluations ≤ n + 1)
    (j : Fin n) :
    search.recordVertex (.edge j) = { search with
      simplex := (search.simplex.insertInitial j search.evaluator.sample search.point
        search.radius).1
      point := (search.simplex.insertInitial j search.evaluator.sample search.point
        search.radius).2 } := by
  simp only [recordVertex, few, if_true]

theorem recordVertex_late {search : Search α n u b} (many : ¬ search.evaluations ≤ n + 1)
    (j : Fin n) :
    search.recordVertex (.edge j) =
      { search with simplex := search.simplex.setSample (.edge j) search.evaluator.sample } := by
  simp only [recordVertex, many, if_false]

/-- Values at a vertex change nothing but the simplex and the point. -/
theorem recordVertex_frame (search : Search α n u b) (vertex : Vertex n) :
    ∃ simplex point, search.recordVertex vertex = { search with simplex, point } := by
  cases vertex with
  | pole => exact ⟨_, search.point, rfl⟩
  | edge j =>
    by_cases few : search.evaluations ≤ n + 1
    · exact ⟨_, _, recordVertex_early few j⟩
    · exact ⟨_, search.point, recordVertex_late few j⟩

theorem recordVertex_evaluations (search : Search α n u b) (vertex : Vertex n) :
    (search.recordVertex vertex).evaluations = search.evaluations := by
  obtain ⟨simplex, point, frame⟩ := search.recordVertex_frame vertex
  rw [frame]
  rfl

/-- The outcomes of the values at a vertex, once they are in the simplex. -/
inductive Continued (recorded : Search α n u b) : Search α n u b → Prop
  /-- The initial simplex goes on with the next vertex. -/
  | vertex {next : Search α n u b} (j : Fin n) (early : j.val + 1 = recorded.evaluations)
      (alike : next.Alike { recorded with
        point := recorded.point.set j (recorded.point.get j + recorded.radius) j.isLt
        best := recorded.simplex.pole
        phase := .evaluate (.vertex (.edge j)) }) :
      Continued recorded next
  /-- The simplex is complete. -/
  | complete {next : Search α n u b}
      (late : recorded.evaluations = 0 ∨ n < recorded.evaluations)
      (alike : next.Alike { recorded with
        stepDue := true
        best := recorded.simplex.pole
        phase := .iterate }) :
      Continued recorded next

theorem alike_recordVertex {search other : Search α n u b} (alike : search.Alike other)
    (vertex : Vertex n) : (search.recordVertex vertex).Alike (other.recordVertex vertex) := by
  obtain ⟨journal, rfl⟩ := alike
  cases vertex with
  | pole => exact ⟨journal, rfl⟩
  | edge j =>
    by_cases few : other.evaluations ≤ n + 1
    · rw [recordVertex_early few]
      exact ⟨journal, recordVertex_early (by exact few) j⟩
    · rw [recordVertex_late few]
      exact ⟨journal, recordVertex_late (by exact few) j⟩

theorem answer_vertex_outcome (search : Search α n u b) (vertex : Vertex n) :
    Continued (search.recordVertex vertex) (search.answer (.vertex vertex)) := by
  obtain ⟨journal, recorded⟩ := alike_recordVertex search.alike_reportSample vertex
  simp only [answer, answerVertex, recorded]
  split
  case isTrue early =>
    have count : 0 < (search.recordVertex vertex).evaluations ∧
        (search.recordVertex vertex).evaluations ≤ n := early
    exact .vertex ⟨(search.recordVertex vertex).evaluations - 1, by omega⟩
      (Nat.sub_add_cancel count.1) ⟨journal, rfl⟩
  case isFalse late =>
    have count : ¬ (0 < (search.recordVertex vertex).evaluations ∧
        (search.recordVertex vertex).evaluations ≤ n) := late
    exact .complete (by omega) ⟨journal, rfl⟩

/-- The search with the values of a trial point in its journal. -/
def tried (search : Search α n u b) (plan : Plan α n) : Search α n u b :=
  search.note .debug (.tried search.evaluator.sample.objective search.evaluator.sample.violation
    (search.reductions plan).1 (search.reductions plan).2)

theorem answerTrial_eq (search : Search α n u b) (plan : Plan α n) :
    search.answerTrial plan =
      match search.simplex.replaced search.shape plan.step search.radius
        (search.reductions plan).1 with
      | none => { search.tried plan with phase := .reduce }
      | some j => note { search.tried plan with
          simplex := search.simplex.replaceVertex j plan.step search.evaluator.sample
          phase := if 0 < (search.reductions plan).1 ∧
            0.1 * (search.reductions plan).2 ≤ (search.reductions plan).1 then .iterate
            else .reduce } .debug (.replaced j) :=
  rfl

/-- The outcomes of the values at a trial point. -/
inductive Judged (search : Search α n u b) (plan : Plan α n) : Search α n u b → Prop
  /-- The point is dropped. -/
  | dropped {next : Search α n u b}
      (kept : search.simplex.replaced search.shape plan.step search.radius
        (search.reductions plan).1 = none)
      (alike : next.Alike { search with best := search.simplex.pole, phase := .reduce }) :
      Judged search plan next
  /-- The point replaces a vertex. -/
  | taken {next : Search α n u b} {j : Fin n}
      (replaced : search.simplex.replaced search.shape plan.step search.radius
        (search.reductions plan).1 = some j)
      (alike : next.Alike { search with
        simplex := search.simplex.replaceVertex j plan.step search.evaluator.sample
        best := search.simplex.pole
        phase := if 0 < (search.reductions plan).1 ∧
          0.1 * (search.reductions plan).2 ≤ (search.reductions plan).1 then .iterate
          else .reduce }) :
      Judged search plan next

theorem answer_trial_outcome (search : Search α n u b) (plan : Plan α n) :
    Judged search plan (search.answer (.trial plan)) := by
  obtain ⟨journal, reported⟩ := search.alike_reportSample
  have reductions : reductions { search with journal } plan = search.reductions plan := rfl
  simp only [answer, answerTrial, reported, reductions]
  split
  case h_1 kept => exact .dropped kept ⟨_, rfl⟩
  case h_2 j replaced => exact .taken replaced ⟨_, rfl⟩

/-! ## Reducing the radius -/

/-- The penalty after a reduction of the radius. -/
def loweredPenalty (search : Search α n u b) : α :=
  if 0 < search.penalty then search.simplex.revisedPenalty search.penalty else search.penalty

theorem alike_shrink (search : Search α n u b) :
    search.shrink.Alike { search with
      radius := search.halvedRadius
      penalty := search.loweredPenalty
      phase := .iterate } :=
  .ite ((alike_reportValues ..).trans ((alike_reportAt ..).trans (alike_note ..)))
    ((alike_reportAt ..).trans (alike_note ..))

/-- The report of the values in the pole after a reduction of the radius. -/
def reportPole (search : Search α n u b) : Search α n u b :=
  if search.options.verbosity = .radius then
    search.reportValues search.objective search.violation search.simplex.pole
  else search

theorem shrink_eq (search : Search α n u b) :
    search.shrink = reportPole (reportAt (note { search with
      radius := search.halvedRadius
      penalty := search.loweredPenalty
      phase := .iterate } .debug (.radiusReduced search.halvedRadius search.loweredPenalty))
        .radius (.radiusReduced search.halvedRadius search.loweredPenalty)) :=
  rfl

/-- The search with its radius as it is, and its shape to be improved first. -/
def spared (search : Search α n u b) : Search α n u b :=
  { search with stepDue := false, phase := .iterate }

/-- The outcomes of a reduction. -/
inductive Reduced (search : Search α n u b) : Search α n u b → Prop
  /-- The shape is not acceptable. -/
  | spared {next : Search α n u b} (spoilt : search.acceptable = false)
      (alike : next.Alike search.spared) : Reduced search next
  /-- The radius is the final one, and the search ends. -/
  | converged {next : Search α n u b} (acceptable : search.acceptable = true)
      (final : search.radius ≤ search.options.radiusEnd)
      (alike : next.Alike
        { search with best := search.simplex.pole, phase := .done .converged }) :
      Reduced search next
  /-- The radius is halved. -/
  | shrunk {next : Search α n u b} (acceptable : search.acceptable = true)
      (further : ¬ search.radius ≤ search.options.radiusEnd)
      (alike : next.Alike { search with
        radius := search.halvedRadius
        penalty := search.loweredPenalty
        phase := .iterate }) :
      Reduced search next

/-- **A reduction has no other outcomes.** -/
theorem reduce_outcome (search : Search α n u b) : Reduced search search.reduce := by
  unfold reduce
  split
  case isTrue spoilt => exact .spared (Bool.eq_false_iff.mpr spoilt) (.refl search.spared)
  case isFalse acceptable =>
    have acceptable : search.acceptable = true := Decidable.not_not.mp acceptable
    split
    case isTrue final => exact .converged acceptable final (alike_finish ..)
    case isFalse further => exact .shrunk acceptable further (alike_shrink search)

/-! ## The pole -/

theorem alike_selectPole (search : Search α n u b) :
    search.selectPole.Alike
      { search with simplex := (search.simplex.selectPole search.penalty).1 } := by
  cases chosen : search.simplex.best search.penalty with
  | pole =>
    simp only [selectPole, Simplex.selectPole, chosen]
    exact .refl search
  | edge j =>
    simp only [selectPole, Simplex.selectPole, chosen]
    exact alike_note ..

/-- The search with its best vertex as the pole, and its shape measured. -/
def surveyed (search : Search α n u b) : Search α n u b :=
  { search with simplex := (search.simplex.selectPole search.penalty).1 }.assess

/-- The model that an iteration makes. -/
def modelled (search : Search α n u b) : LinearModel α n (u + b) :=
  .interpolate search.simplex

/-- The vertex that has to be moved, unless a step is due or the shape acceptable. -/
def misplaced (search : Search α n u b) : Option (Fin n) :=
  if search.stepDue || search.acceptable then none
  else search.shape.worst (Shape.lengthFactor * search.radius)

theorem explore_eq (search : Search α n u b) (fuel : Nat) :
    search.explore fuel =
      match search.assess.misplaced with
      | some j => some (search.assess.improveShape search.modelled j)
      | none => search.assess.planStep fuel search.modelled :=
  rfl

/-- The search with vertex `j` moved by a step. -/
def moved (search : Search α n u b) (j : Fin n) (step : Vector α n) : Search α n u b :=
  { search with
    simplex := search.simplex.replaceEdge j step
    point := (search.simplex.replaceEdge j step).point (.edge j)
    phase := .evaluate (.vertex (.edge j)) }

/-! ## Weighing a step -/

/-- What a model promises for a step, at the given penalty. -/
def promise (search : Search α n u b) (model : LinearModel α n (u + b)) (penalty : α)
    (step : Vector α n) : Plan α n where
  step := step
  violationReduction := search.violation - model.predictedViolation step
  meritReduction :=
    penalty * (search.violation - model.predictedViolation step) - model.predictedIncrease step

/-- The penalty that a step of the model calls for. -/
def penaltyFor (search : Search α n u b) (model : LinearModel α n (u + b))
    (step : Vector α n) : α :=
  penaltyNeeded (model.predictedIncrease step)
    (search.violation - model.predictedViolation step)

/-- The outcomes of weighing a step of a model. -/
inductive Weighed (model : LinearModel α n (u + b)) (search : Search α n u b)
    (step : Vector α n) : Search α n u b → Prop
  /-- The penalty suffices, and the step is to be tried. -/
  | trial {next : Search α n u b}
      (enough : ¬ search.penalty < 1.5 * search.penaltyFor model step)
      (alike : next.Alike { search with
        point := search.simplex.pole + step
        stepDue := true
        phase := .evaluate (.trial (search.promise model search.penalty step)) }) :
      Weighed model search step next
  /-- The penalty is raised, the pole remains the best vertex, and the step is to be tried. -/
  | raised {next : Search α n u b}
      (low : search.penalty < 1.5 * search.penaltyFor model step)
      (kept : search.simplex.dethroned (2.0 * search.penaltyFor model step) = false)
      (alike : next.Alike { search with
        penalty := 2.0 * search.penaltyFor model step
        point := search.simplex.pole + step
        stepDue := true
        phase := .evaluate
          (.trial (search.promise model (2.0 * search.penaltyFor model step) step)) }) :
      Weighed model search step next
  /-- The penalty is raised, and another vertex is better than the pole. -/
  | dethroned {next : Search α n u b}
      (low : search.penalty < 1.5 * search.penaltyFor model step)
      (lost : search.simplex.dethroned (2.0 * search.penaltyFor model step) = true)
      (alike : next.Alike { search with
        penalty := 2.0 * search.penaltyFor model step
        phase := .iterate }) :
      Weighed model search step next

theorem weighStep_outcome (model : LinearModel α n (u + b)) (search : Search α n u b)
    (step : Vector α n) (complete : Bool) :
    Weighed model search step (search.weighStep model step complete) := by
  simp only [weighStep]
  split
  case isTrue low =>
    obtain ⟨journal, raise⟩ : (search.raisePenalty (2.0 * search.penaltyFor model step)).Alike
        { search with penalty := 2.0 * search.penaltyFor model step } := alike_reportAt ..
    rw [penaltyFor] at raise
    rw [raise]
    split
    case isTrue lost => exact .dethroned low lost ⟨_, rfl⟩
    case isFalse kept => exact .raised low (Bool.eq_false_iff.mpr kept) ⟨_, rfl⟩
  case isFalse enough => exact .trial enough ⟨_, rfl⟩

/-! ## An iteration -/

/-- The outcomes of an iteration. -/
inductive Iterated (fuel : Nat) (search : Search α n u b) : Search α n u b → Prop
  /-- The inverse is found to be spoilt. -/
  | spoilt {next : Search α n u b} (strict : search.options.roundingCheck = .abort)
      (error : 0.1 < search.surveyed.simplex.inverseError)
      (alike : next.Alike { search with
        simplex := search.surveyed.simplex
        best := search.surveyed.simplex.pole
        phase := .done .inaccurate }) :
      Iterated fuel search next
  /-- A vertex is moved. -/
  | move {next : Search α n u b} {j : Fin n} (found : search.surveyed.misplaced = some j)
      (alike : next.Alike
        (search.surveyed.moved j (search.surveyed.renewalStep search.surveyed.modelled j))) :
      Iterated fuel search next
  /-- The step is too short. -/
  | short {next : Search α n u b} {workspace : Workspace α n (u + b)} {active : Nat}
      (placed : search.surveyed.misplaced = none)
      (solved : search.workspace.solve search.surveyed.modelled search.radius fuel =
        some (workspace, .stalled active))
      (short : dot workspace.step workspace.step < 0.25 * search.radius * search.radius)
      (alike : next.Alike { search.surveyed with workspace, stepDue := true, phase := .reduce }) :
      Iterated fuel search next
  /-- The step is weighed. -/
  | weigh {next : Search α n u b} {workspace : Workspace α n (u + b)} {how : StepEnd}
      (journal : Array (Event α)) (placed : search.surveyed.misplaced = none)
      (solved : search.workspace.solve search.surveyed.modelled search.radius fuel =
        some (workspace, how))
      (weighed : Weighed search.surveyed.modelled { search.surveyed with workspace, journal }
        workspace.step next) :
      Iterated fuel search next

/-- **An iteration has no other outcomes.** -/
theorem iterate_outcome {fuel : Nat} {search next : Search α n u b}
    (found : search.iterate fuel = some next) : Iterated fuel search next := by
  simp only [iterate] at found
  obtain ⟨journal, selected⟩ := search.alike_selectPole
  rw [selected] at found
  have explored : ∀ noted : Array (Event α),
      Search.explore fuel { search with
        simplex := (search.simplex.selectPole search.penalty).1, journal := noted } = some next →
      Iterated fuel search next := by
    intro noted explored
    simp only [explore] at explored
    split at explored
    case h_1 j worst =>
      cases explored
      exact .move worst ⟨_, rfl⟩
    case h_2 placed =>
      simp only [planStep, Option.map_eq_some_iff, Prod.exists] at explored
      obtain ⟨workspace, how, solved, rfl⟩ := explored
      cases how with
      | boundary => exact .weigh noted placed solved (weighStep_outcome ..)
      | stalled active =>
        simp only
        split
        case isTrue tiny => exact .short placed solved tiny ⟨_, rfl⟩
        case isFalse => exact .weigh _ placed solved (weighStep_outcome ..)
  split at found
  case isTrue spoilt =>
    split at found
    case isTrue strict =>
      cases found
      simp only [inverseSpoilt, Bool.and_eq_true, decide_eq_true_eq] at spoilt
      exact .spoilt strict spoilt.2 ((alike_finish ..).trans ⟨_, rfl⟩)
    case isFalse => exact explored _ found
  case isFalse => exact explored _ found

/-- An iteration goes through if its step can be found. -/
theorem iterate_isSome {fuel : Nat} {search : Search α n u b}
    (solved : (search.workspace.solve search.surveyed.modelled search.radius fuel).isSome) :
    (search.iterate fuel).isSome := by
  have explored : ∀ noted : Array (Event α), (Search.explore fuel { search with
      simplex := (search.simplex.selectPole search.penalty).1, journal := noted }).isSome := by
    intro noted
    simp only [explore]
    split
    · rfl
    · rw [planStep, Option.isSome_map]
      exact solved
  obtain ⟨journal, selected⟩ := search.alike_selectPole
  simp only [iterate, selected]
  split
  · split
    · rfl
    · exact explored _
  · exact explored _

/-! ## The evaluator -/

theorem Alike.evaluator {search other : Search α n u b} (alike : search.Alike other) :
    search.evaluator = other.evaluator := by
  obtain ⟨journal, rfl⟩ := alike
  rfl

theorem Alike.simplex {search other : Search α n u b} (alike : search.Alike other) :
    search.simplex = other.simplex := by
  obtain ⟨journal, rfl⟩ := alike
  rfl

theorem Alike.phase {search other : Search α n u b} (alike : search.Alike other) :
    search.phase = other.phase := by
  obtain ⟨journal, rfl⟩ := alike
  rfl

theorem iterate_evaluator {fuel : Nat} {search next : Search α n u b}
    (found : search.iterate fuel = some next) : next.evaluator = search.evaluator := by
  cases iterate_outcome found with
  | spoilt _ _ alike => exact alike.evaluator
  | move _ alike => exact alike.evaluator
  | short _ _ _ alike => exact alike.evaluator
  | weigh _ _ _ weighed =>
    cases weighed with
    | trial _ alike => exact alike.evaluator
    | raised _ _ alike => exact alike.evaluator
    | dethroned _ _ alike => exact alike.evaluator

theorem reduce_evaluator (search : Search α n u b) :
    search.reduce.evaluator = search.evaluator := by
  cases search.reduce_outcome with
  | spared _ alike => exact alike.evaluator
  | converged _ _ alike => exact alike.evaluator
  | shrunk _ _ alike => exact alike.evaluator

theorem answer_evaluator (search : Search α n u b) (pending : Pending α n) :
    (search.answer pending).evaluator = search.evaluator := by
  cases pending with
  | vertex vertex =>
    have recorded : (search.recordVertex vertex).evaluator = search.evaluator := by
      obtain ⟨simplex, point, frame⟩ := search.recordVertex_frame vertex
      rw [frame]
    cases answer_vertex_outcome search vertex with
    | vertex _ _ alike => exact alike.evaluator.trans recorded
    | complete _ alike => exact alike.evaluator.trans recorded
  | trial plan =>
    cases answer_trial_outcome search plan with
    | dropped _ alike => exact alike.evaluator
    | taken _ alike => exact alike.evaluator

/-- The evaluations are the questions since the last reset. -/
theorem Reached.size_record {options : Options α} {box : Box α n} {record : Record α n u}
    {search : Search α n u b} (reached : Reached options box record search) :
    record.size = search.evaluations := by
  induction reached with
  | create => rfl
  | enter point _ entry ih =>
    rcases enter_eq entry with ⟨-, rfl⟩ | ⟨-, -, rfl⟩
    · exact ih
    · rw [evaluations, (alike_startAt _ _).evaluator]
      exact ih
  | iterate _ _ _ found ih =>
    rw [evaluations, iterate_evaluator found]
    exact ih
  | reduce _ _ ih =>
    rw [evaluations, reduce_evaluator]
    exact ih
  | exhaust _ _ _ ih =>
    rw [evaluations, (alike_finish _ _).evaluator]
    exact ih
  | answer _ _ _ _ _ ih =>
    rw [Array.size_push, ih, evaluations, evaluations, answer_evaluator]
    rfl
  | halt _ _ _ _ ih =>
    rw [Array.size_push, ih, evaluations, evaluations, (alike_halted _ _).evaluator]
    rfl
  | fail _ _ _ _ _ _ ih =>
    rw [Array.size_push, ih]
    rfl
  | reset => rfl

/-! ## The options -/

theorem Alike.frame {search other : Search α n u b} (alike : search.Alike other) :
    search.options = other.options ∧ search.radius = other.radius ∧
      search.penalty = other.penalty := by
  obtain ⟨journal, rfl⟩ := alike
  exact ⟨rfl, rfl, rfl⟩

/-- Values leave the options, the radius and the penalty alone. -/
theorem answer_frame (search : Search α n u b) (pending : Pending α n) :
    (search.answer pending).options = search.options ∧
      (search.answer pending).radius = search.radius ∧
      (search.answer pending).penalty = search.penalty := by
  cases pending with
  | vertex vertex =>
    obtain ⟨simplex, point, frame⟩ := search.recordVertex_frame vertex
    have recorded : ∀ {answered : Search α n u b},
        answered.options = (search.recordVertex vertex).options ∧
          answered.radius = (search.recordVertex vertex).radius ∧
          answered.penalty = (search.recordVertex vertex).penalty →
        answered.options = search.options ∧ answered.radius = search.radius ∧
          answered.penalty = search.penalty := by
      intro answered same
      rwa [frame] at same
    cases answer_vertex_outcome search vertex with
    | vertex _ _ alike => exact recorded alike.frame
    | complete _ alike => exact recorded alike.frame
  | trial plan =>
    cases answer_trial_outcome search plan with
    | dropped _ alike => exact alike.frame
    | taken _ alike => exact alike.frame

theorem iterate_options {fuel : Nat} {search next : Search α n u b}
    (found : search.iterate fuel = some next) : next.options = search.options := by
  cases iterate_outcome found with
  | spoilt _ _ alike => exact alike.frame.1
  | move _ alike => exact alike.frame.1
  | short _ _ _ alike => exact alike.frame.1
  | weigh _ _ _ weighed =>
    cases weighed with
    | trial _ alike => exact alike.frame.1
    | raised _ _ alike => exact alike.frame.1
    | dethroned _ _ alike => exact alike.frame.1

theorem reduce_options (search : Search α n u b) : search.reduce.options = search.options := by
  cases search.reduce_outcome with
  | spared _ alike => exact alike.frame.1
  | converged _ _ alike => exact alike.frame.1
  | shrunk _ _ alike => exact alike.frame.1

theorem enter_options {search entered : Search α n u b} {point : Array α}
    (entry : search.enter point = .ok entered) : entered.options = search.options := by
  rcases enter_eq entry with ⟨-, rfl⟩ | ⟨-, -, rfl⟩
  · rfl
  · exact (alike_startAt ..).frame.1

/-- A search keeps the options that it was created with. -/
theorem Reached.options {options : Options α} {box : Box α n} {record : Record α n u}
    {search : Search α n u b} (reached : Reached options box record search) :
    search.options = options := by
  induction reached with
  | create => rfl
  | enter _ _ entry ih => exact (enter_options entry).trans ih
  | iterate _ _ _ found ih => exact (iterate_options found).trans ih
  | reduce _ _ ih => exact (reduce_options _).trans ih
  | exhaust _ _ _ ih => exact (alike_finish ..).frame.1.trans ih
  | answer _ _ _ _ _ ih => exact (answer_frame _ _).1.trans ih
  | halt _ _ _ _ ih => exact (alike_halted ..).frame.1.trans ih
  | fail _ _ _ _ _ _ ih => exact ih
  | reset _ ih => exact ih

/-! ## The end of a step -/

/-- The three ways in which a search that has settled can end. -/
inductive Ended (settled : Search α n u b) : Status → Search α n u b → Prop
  /-- It has ended while it settled. -/
  | settled {status : Status} (finished : settled.phase = .done status) :
      Ended settled status settled
  /-- The evaluations are used up. -/
  | exhausted {pending : Pending α n} (due : settled.phase = .evaluate pending)
      (spent : settled.evaluator.limit ≤ settled.evaluator.evaluations) :
      Ended settled .exhausted (settled.finish .exhausted)
  /-- The oracle wants it to stop. -/
  | halted {pending : Pending α n} (due : settled.phase = .evaluate pending)
      (constraints : Vector α u) : Ended settled .exhausted (settled.halted constraints)

theorem Ended.phase {settled ended : Search α n u b} {status : Status}
    (finished : Ended settled status ended) : ended.phase = .done status := by
  cases finished with
  | settled finished => exact finished
  | exhausted => exact (alike_finish ..).phase
  | halted => exact (alike_halted ..).phase

theorem Ended.simplex {settled ended : Search α n u b} {status : Status}
    (finished : Ended settled status ended) :
    ended.simplex = settled.simplex ∧ ended.penalty = settled.penalty := by
  cases finished with
  | settled => exact ⟨rfl, rfl⟩
  | exhausted => exact ⟨(alike_finish ..).simplex, (alike_finish ..).frame.2.2⟩
  | halted => exact ⟨(alike_halted ..).simplex, (alike_halted ..).frame.2.2⟩

theorem result_handOut {search : Search α n u b} {point : Array α} {result : Option Status}
    {status : Status} (ended : (search.handOut point result).result = .ok (some status)) :
    result = some status ∧ (search.handOut point result).point = search.best.toArray := by
  unfold handOut at ended ⊢
  split at ended
  case isTrue sizes =>
    rw [if_pos sizes]
    exact ⟨by simpa using ended, rfl⟩
  case isFalse => cases ended

theorem result_handOut_none {search : Search α n u b} {point : Array α} {result : Option Status}
    (further : (search.handOut point result).result = .ok none) : result = none := by
  unfold handOut at further
  split at further
  · simpa using further
  · cases further

theorem ask_ended {oracle : Oracle Id α n u} {box : Box α n} {settled : Search α n u b}
    {pending : Pending α n} (due : settled.phase = .evaluate pending) {point : Array α}
    {record : Record α n u} {status : Status}
    (result : ((settled.ask oracle.recorded box pending point).run record).1.result =
      .ok (some status)) :
    ((settled.ask oracle.recorded box pending point).run record).1.point =
        ((settled.ask oracle.recorded box pending point).run record).1.search.best.toArray ∧
      Ended settled status
        ((settled.ask oracle.recorded box pending point).run record).1.search := by
  rw [run_ask] at result ⊢
  split at result
  case isTrue spent =>
    obtain ⟨same, best⟩ := result_handOut result
    cases same
    rw [if_pos spent, search_handOut]
    exact ⟨best, .exhausted due spent⟩
  case isFalse allowed =>
    rw [if_neg allowed]
    simp only [asked] at result ⊢
    split at result
    case h_1 => cases (result_handOut result).1
    case h_2 halt =>
      obtain ⟨same, best⟩ := result_handOut result
      cases same
      rw [search_handOut]
      exact ⟨best, .halted due _⟩
    case h_3 => cases result

/-- **A step with a status has settled and ended, and hands out the best point.** -/
theorem next_ended {fuel : Nat} {oracle : Oracle Id α n u} {box : Box α n}
    {search : Search α n u b} {point : Array α} {record : Record α n u} {status : Status}
    (result : ((search.next fuel oracle.recorded box point).run record).1.result =
      .ok (some status)) :
    ((search.next fuel oracle.recorded box point).run record).1.point =
        ((search.next fuel oracle.recorded box point).run record).1.search.best.toArray ∧
      ∃ entered settled, search.enter point = .ok entered ∧
        entered.settle fuel fuel = some settled ∧
        Ended settled status
          ((search.next fuel oracle.recorded box point).run record).1.search := by
  unfold next at result ⊢
  cases entry : search.enter point with
  | error failure =>
    rw [entry] at result
    cases result
  | ok entered =>
    simp only [entry] at result ⊢
    cases found : entered.settle fuel fuel with
    | none =>
      simp only [found] at result
      cases result
    | some settled =>
      simp only [found] at result ⊢
      cases due : settled.phase with
      | evaluate pending =>
        simp only [due] at result ⊢
        obtain ⟨best, ended⟩ := ask_ended due result
        exact ⟨best, entered, settled, rfl, found, ended⟩
      | done status =>
        simp only [due] at result ⊢
        obtain ⟨same, best⟩ := result_handOut result
        cases same
        have here : (settled.handOut point (some status)).search = settled := search_handOut ..
        refine ⟨?_, entered, settled, rfl, found, ?_⟩
        · exact best.trans (congrArg (fun search => search.best.toArray) here.symm)
        · exact here.symm ▸ .settled due
      | start | iterate | reduce =>
        simp only [due] at result
        cases (result_handOut result).1

end DerivativeFree.Search
