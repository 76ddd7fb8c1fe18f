import DerivativeFree.Proofs.Search.Turns
import DerivativeFree.Proofs.TrustRegion.Reuse

/-!
# What decides on the course of a search

Not everything in the state of a search has a say in what it does next.  The journal and the
published point are only written, the workspace is prepared anew for every step, and the
evaluator is read only where a question is asked or answered.  Of the options the two radii
matter, and the check of the inverse if it ends the search.

`course` is the state with all the rest taken out.  Turns lead from states of the same course
to states of the same course, unless one of two searches is stricter than the other and ends
because of rounding errors (`settle_course`).  So do the values that are found by a question
(`answer_course`).
-/

namespace DerivativeFree.Search

set_option autoImplicit false

variable {α : Type} [Scalar α] {n u b : Nat} {fuel : Nat} {search other next : Search α n u b}

/-- The search with nothing but what decides on what it does between two questions. -/
def course (search : Search α n u b) : Search α n u b :=
  { search with
    options :=
      { radiusBegin := search.options.radiusBegin, radiusEnd := search.options.radiusEnd }
    evaluator := Evaluator.start u b 0
    workspace := Workspace.fresh n (u + b)
    best := 0
    journal := #[] }

theorem Alike.course (alike : search.Alike other) : search.course = other.course := by
  obtain ⟨journal, rfl⟩ := alike
  rfl

theorem finish_course (search : Search α n u b) (status : Status) :
    (search.finish status).course = { search.course with phase := .done status } :=
  (alike_finish search status).course

/-- What a search was before it starts has no say in its course, but for the two radii and
the flag that is left from the last assessment. -/
theorem startAt_course (begins : other.options.radiusBegin = search.options.radiusBegin)
    (ends : other.options.radiusEnd = search.options.radiusEnd)
    (acceptable : other.acceptable = search.acceptable) (x : Vector α n) :
    (other.startAt x).course = (search.startAt x).course := by
  rw [(alike_startAt other x).course, (alike_startAt search x).course]
  simp only [course, begins, ends, acceptable]

/-! ## Reductions -/

/-- The course after a reduction, as its tests say. -/
theorem reduce_course_eq (search : Search α n u b) :
    search.reduce.course =
      if search.acceptable = false then
        { search.course with stepDue := false, phase := .iterate }
      else if search.radius ≤ search.options.radiusEnd then
        { search.course with phase := .done .converged }
      else
        { search.course with
          radius := search.halvedRadius
          penalty := search.loweredPenalty
          phase := .iterate } := by
  cases search.reduce_outcome with
  | spared spoilt alike =>
    rw [alike.course, if_pos spoilt]
    rfl
  | converged acceptable final alike =>
    rw [alike.course, if_neg (by simp [acceptable]), if_pos final]
    rfl
  | shrunk acceptable further alike =>
    rw [alike.course, if_neg (by simp [acceptable]), if_neg further]
    rfl

theorem reduce_course (search : Search α n u b) :
    search.reduce.course = search.course.reduce.course := by
  rw [reduce_course_eq, reduce_course_eq]
  rfl

/-! ## Iterations -/

/-- The course after a step has been weighed, as its tests say. -/
theorem weighStep_course_eq (model : LinearModel α n (u + b)) (search : Search α n u b)
    (step : Vector α n) (complete : Bool) :
    (search.weighStep model step complete).course =
      if search.penalty < 1.5 * search.penaltyFor model step then
        if search.simplex.dethroned (2.0 * search.penaltyFor model step) = true then
          { search.course with
            penalty := 2.0 * search.penaltyFor model step
            phase := .iterate }
        else
          { search.course with
            penalty := 2.0 * search.penaltyFor model step
            point := search.simplex.pole + step
            stepDue := true
            phase := .evaluate
              (.trial (search.promise model (2.0 * search.penaltyFor model step) step)) }
      else
        { search.course with
          point := search.simplex.pole + step
          stepDue := true
          phase := .evaluate (.trial (search.promise model search.penalty step)) } := by
  have outcome := weighStep_outcome model search step complete
  generalize search.weighStep model step complete = next at outcome ⊢
  cases outcome with
  | trial enough alike =>
    rw [alike.course, if_neg enough]
    rfl
  | raised low kept alike =>
    rw [alike.course, if_pos low, if_neg (by simp [kept])]
    rfl
  | dethroned low lost alike =>
    rw [alike.course, if_pos low, if_pos lost]
    rfl

theorem weighStep_course (same : other.course = search.course)
    (model : LinearModel α n (u + b)) (step : Vector α n) (complete : Bool) :
    (other.weighStep model step complete).course =
      (search.weighStep model step complete).course := by
  have through : ∀ state : Search α n u b, (state.weighStep model step complete).course =
      (state.course.weighStep model step complete).course := by
    intro state
    rw [weighStep_course_eq, weighStep_course_eq]
    rfl
  rw [through, same, ← through]

/-- The search after the step of a model has been found in the workspace. -/
def planned (model : LinearModel α n (u + b)) (search : Search α n u b)
    (solved : Workspace α n (u + b) × StepEnd) : Search α n u b :=
  match solved.2 with
  | .boundary => { search with workspace := solved.1 }.weighStep model solved.1.step true
  | .stalled active =>
    let stalled := { search with workspace := solved.1 }.note .debug (.stalled active)
    if dot solved.1.step solved.1.step < 0.25 * search.radius * search.radius then
      { stalled with stepDue := true, phase := .reduce }.note .debug
        (.tooShort (Scalar.sqrt (dot solved.1.step solved.1.step)))
    else stalled.weighStep model solved.1.step false

theorem planStep_eq (search : Search α n u b) (model : LinearModel α n (u + b)) (fuel : Nat) :
    search.planStep fuel model =
      (search.workspace.solve model search.radius fuel).map (search.planned model) :=
  rfl

/-- The course after a step has been found, which does not depend on the workspace. -/
theorem planned_course_eq (search : Search α n u b) (model : LinearModel α n (u + b))
    (workspace : Workspace α n (u + b)) (how : StepEnd) :
    (search.planned model (workspace, how)).course =
      match how with
      | .boundary => (search.weighStep model workspace.step true).course
      | .stalled _ =>
        if dot workspace.step workspace.step < 0.25 * search.radius * search.radius then
          { search.course with stepDue := true, phase := .reduce }
        else (search.weighStep model workspace.step false).course := by
  cases how with
  | boundary =>
    simp only [planned]
    refine weighStep_course ?_ model workspace.step true
    rfl
  | stalled active =>
    simp only [planned]
    split
    case isTrue => rfl
    case isFalse =>
      refine weighStep_course ?_ model workspace.step false
      rfl

theorem planned_course (same : other.course = search.course) (model : LinearModel α n (u + b))
    {solved found : Workspace α n (u + b) × StepEnd}
    (outcome : Workspace.outcome found = Workspace.outcome solved) :
    (other.planned model found).course = (search.planned model solved).course := by
  obtain ⟨workspace, how⟩ := solved
  obtain ⟨workspace', how'⟩ := found
  obtain ⟨step, rfl⟩ : workspace'.step = workspace.step ∧ how' = how := Prod.mk.inj outcome
  have radius : other.radius = search.radius := (congrArg Search.radius same :)
  rw [planned_course_eq, planned_course_eq, step, radius, same]
  simp only [weighStep_course same]

/-- Both searches have been found, and they are on the same course, or neither one has. -/
def SameCourse (found found' : Option (Search α n u b)) : Prop :=
  Option.Rel (fun next next' => next'.course = next.course) found found'

theorem sameCourse_iff {found found' : Option (Search α n u b)} : SameCourse found found' ↔
    (found = none ∧ found' = none) ∨
      ∃ next next', found = some next ∧ found' = some next' ∧ next'.course = next.course := by
  constructor
  · rintro (same | -)
    · exact .inr ⟨_, _, rfl, rfl, same⟩
    · exact .inl ⟨rfl, rfl⟩
  · rintro (⟨rfl, rfl⟩ | ⟨next, next', rfl, rfl, same⟩)
    · exact .none
    · exact .some same

/-- A step is planned in the same way, whatever the workspace has been used for. -/
theorem planStep_course (same : other.course = search.course) (model : LinearModel α n (u + b)) :
    SameCourse (search.planStep fuel model) (other.planStep fuel model) := by
  have radius : other.radius = search.radius := (congrArg Search.radius same :)
  have solved := search.workspace.solve_reused model search.radius fuel other.workspace
  rw [planStep_eq, planStep_eq, radius]
  generalize search.workspace.solve model search.radius fuel = here at solved ⊢
  generalize other.workspace.solve model search.radius fuel = there at solved ⊢
  cases here with
  | none =>
    cases there with
    | none => exact .none
    | some => cases solved
  | some solved' =>
    cases there with
    | none => cases solved
    | some found => exact .some (planned_course same model (Option.some.inj solved))

theorem explore_course (same : other.course = search.course) :
    SameCourse (search.explore fuel) (other.explore fuel) := by
  have assessed : other.assess.course = search.assess.course := (congrArg assess same :)
  have misplaced : other.assess.misplaced = search.assess.misplaced :=
    (congrArg misplaced assessed :)
  have modelled : other.modelled = search.modelled := (congrArg modelled same :)
  rw [explore_eq, explore_eq, misplaced, modelled]
  cases search.assess.misplaced with
  | none => exact planStep_course assessed search.modelled
  | some j =>
    exact .some (congrArg (fun state => (improveShape search.modelled state j).course) assessed :)

/-! ## The check of the inverse -/

/-- The next iteration ends the search because of rounding errors. -/
def Aborts (search : Search α n u b) : Prop :=
  search.options.roundingCheck = .abort ∧ 0.1 < search.surveyed.simplex.inverseError

theorem selectPole_course (same : other.course = search.course) :
    other.selectPole.course = search.selectPole.course := by
  rw [(alike_selectPole other).course, (alike_selectPole search).course]
  exact (congrArg
    (fun state => { state with simplex := (state.simplex.selectPole state.penalty).1 }) same :)

theorem Aborts.iterate (aborts : search.Aborts) :
    search.iterate fuel = some (search.selectPole.finish .inaccurate) := by
  obtain ⟨strict, error⟩ := aborts
  obtain ⟨journal, selected⟩ := search.alike_selectPole
  have spoilt : search.selectPole.inverseSpoilt = true := by
    rw [selected]
    simp only [inverseSpoilt, strict, Bool.and_eq_true, decide_eq_true_eq]
    exact ⟨by simp, error⟩
  have options : search.selectPole.options.roundingCheck = .abort := by
    rw [selected]
    exact strict
  rw [Search.iterate]
  simp only [spoilt, options, if_true]

/-- Unless it is checked too strictly, the inverse has no say in an iteration. -/
theorem iterate_course (same : other.course = search.course) (calm : ¬ search.Aborts)
    (calm' : ¬ other.Aborts) : SameCourse (search.iterate fuel) (other.iterate fuel) := by
  have explores : ∀ state : Search α n u b, ¬ state.Aborts →
      ∃ noted : Search α n u b, noted.course = state.selectPole.course ∧
        state.iterate fuel = noted.explore fuel := by
    intro state calm
    obtain ⟨journal, selected⟩ := state.alike_selectPole
    simp only [Search.iterate]
    split
    case isTrue spoilt =>
      split
      case isTrue strict =>
        rw [selected] at spoilt strict
        simp only [inverseSpoilt, Bool.and_eq_true, decide_eq_true_eq] at spoilt
        exact absurd ⟨strict, spoilt.2⟩ calm
      case isFalse =>
        refine ⟨_, ?_, rfl⟩
        rfl
    case isFalse => exact ⟨_, rfl, rfl⟩
  obtain ⟨noted, here, found⟩ := explores search calm
  obtain ⟨noted', there, found'⟩ := explores other calm'
  rw [found, found']
  exact explore_course (there.trans ((selectPole_course same).trans here.symm))

/-! ## Between two questions -/

/-- The search ends because of rounding errors where the other one goes on. -/
def Stricter (search other : Search α n u b) : Prop :=
  search.options.roundingCheck = .abort ∧ other.options.roundingCheck ≠ .abort

theorem Aborts.of_course (aborts : other.Aborts) (same : other.course = search.course)
    (strict : search.options.roundingCheck = .abort) : search.Aborts := by
  have surveyed : other.surveyed.simplex = search.surveyed.simplex :=
    (congrArg (fun state => (surveyed state).simplex) same :)
  exact ⟨strict, surveyed ▸ aborts.2⟩

/-- The last turn allowed does not bring an iteration to rest. -/
theorem settle_last (due : search.phase = .iterate) : search.settle fuel 1 = none := by
  simp only [Search.settle, due]
  split <;> rfl

/-- **Searches of the same course stay on the same course**, unless the first one is stricter
and ends because of rounding errors. -/
theorem settle_course (same : other.course = search.course)
    (strict : other.options.roundingCheck = .abort → search.options.roundingCheck = .abort)
    (fuel turns : Nat) :
    SameCourse (search.settle fuel turns) (other.settle fuel turns) ∨
      search.Stricter other ∧
        ∃ ended, search.settle fuel turns = some ended ∧ ended.phase = .done .inaccurate := by
  induction turns generalizing search other with
  | zero => exact .inl .none
  | succ turns ih =>
    have phase : other.phase = search.phase := (congrArg Search.phase same :)
    have onward : ∀ {next next' : Search α n u b}, Turned fuel search next →
        Turned fuel other next' → next'.course = next.course →
        SameCourse (search.settle fuel (turns + 1)) (other.settle fuel (turns + 1)) ∨
          search.Stricter other ∧ ∃ ended, search.settle fuel (turns + 1) = some ended ∧
            ended.phase = .done .inaccurate := by
      intro next next' turned turned' same
      have options := turned.options
      have options' := turned'.options
      have later := ih same (by rwa [options, options'])
      rwa [← turned.settle, ← turned'.settle, Stricter, options, options'] at later
    cases due : search.phase with
    | iterate =>
      have due' : other.phase = .iterate := phase.trans due
      by_cases aborts : search.Aborts
      case pos =>
        have ends : Turned fuel search _ := .iterate due aborts.iterate
        by_cases aborts' : other.Aborts
        case pos =>
          refine onward ends (.iterate due' aborts'.iterate) ?_
          rw [finish_course, finish_course, selectPole_course same]
        case neg =>
          have stricter : search.Stricter other :=
            ⟨aborts.1, fun strict' => aborts' (aborts.of_course same.symm strict')⟩
          cases turns with
          | zero =>
            left
            rw [settle_last due, settle_last due']
            exact .none
          | succ turns =>
            have ended : (search.selectPole.finish .inaccurate).phase = .done .inaccurate :=
              (congrArg Search.phase (finish_course search.selectPole .inaccurate) :)
            right
            refine ⟨stricter, _, ?_, ended⟩
            rw [ends.settle, settle_of_rest (by simp [ended])]
      case neg =>
        have calm : ¬ other.Aborts := fun aborts' =>
          aborts (aborts'.of_course same (strict aborts'.1))
        have iterated : SameCourse (search.iterate fuel) (other.iterate fuel) :=
          iterate_course same aborts calm
        rcases sameCourse_iff.mp iterated with ⟨here, there⟩ | ⟨next, next', here, there, same⟩
        · left
          simp only [Search.settle, due, due', here, there]
          exact .none
        · exact onward (.iterate due here) (.iterate due' there) same
    | reduce =>
      have reduced : other.reduce.course = search.reduce.course := by
        rw [reduce_course, reduce_course search, same]
      exact onward (.reduce due) (.reduce (phase.trans due)) reduced
    | start | evaluate | done =>
      left
      have rests : search.phase ≠ .iterate ∧ search.phase ≠ .reduce := by simp [due]
      have rests' : other.phase ≠ .iterate ∧ other.phase ≠ .reduce := by rwa [phase]
      rw [settle_of_rest rests, settle_of_rest rests']
      exact .some same

/-! ## Answers -/

/-- The counts of the evaluations say the same about the initial simplex: they are equal, or
it has been set up before. -/
def SameCount (n count count' : Nat) : Prop :=
  count' = count ∨ n + 1 < count ∧ n + 1 < count'

theorem recordVertex_course (same : other.course = search.course)
    (sample : other.evaluator.sample = search.evaluator.sample)
    (counts : SameCount n search.evaluations other.evaluations) (vertex : Vertex n) :
    (other.recordVertex vertex).course = (search.recordVertex vertex).course := by
  cases vertex with
  | pole =>
    simp only [recordVertex, sample]
    exact (congrArg (fun state =>
      { state with simplex := state.simplex.setSample .pole search.evaluator.sample }) same :)
  | edge j =>
    have fewer : search.evaluations ≤ n + 1 ↔ other.evaluations ≤ n + 1 := by
      rcases counts with count | late <;> omega
    by_cases few : search.evaluations ≤ n + 1
    case pos =>
      rw [recordVertex_early few, recordVertex_early (fewer.mp few), sample]
      exact (congrArg (fun state =>
        { state with
          simplex := (state.simplex.insertInitial j search.evaluator.sample state.point
            state.radius).1
          point := (state.simplex.insertInitial j search.evaluator.sample state.point
            state.radius).2 }) same :)
    case neg =>
      rw [recordVertex_late few, recordVertex_late (few ∘ fewer.mpr), sample]
      exact (congrArg (fun state =>
        { state with simplex := state.simplex.setSample (.edge j) search.evaluator.sample })
        same :)

theorem Continued.course {recorded recorded' next' : Search α n u b}
    (here : Continued recorded next) (there : Continued recorded' next')
    (same : recorded'.course = recorded.course)
    (counts : SameCount n recorded.evaluations recorded'.evaluations) :
    next'.course = next.course := by
  -- A vertex of the initial simplex has a count that is not beyond it.
  have within : ∀ {j : Fin n} {count : Nat}, j.val + 1 = count → count ≤ n :=
    fun counted => counted ▸ Fin.isLt _
  cases here with
  | vertex j early alike =>
    cases there with
    | vertex j' early' alike' =>
      have few := within early
      obtain rfl : j' = j := Fin.ext (by rcases counts with count | late <;> omega)
      rw [alike.course, alike'.course]
      exact (congrArg (fun state =>
        { state with
          point := state.point.set j' (state.point.get j' + state.radius) j'.isLt
          phase := .evaluate (.vertex (.edge j')) }) same :)
    | complete late' =>
      have few := within early
      rcases counts with count | late <;> omega
  | complete late alike =>
    cases there with
    | vertex j early =>
      have few := within early
      rcases counts with count | late <;> omega
    | complete _ alike' =>
      rw [alike.course, alike'.course]
      exact (congrArg (fun state => { state with stepDue := true, phase := .iterate }) same :)

theorem Judged.course {plan : Plan α n} {next' : Search α n u b} (here : Judged search plan next)
    (there : Judged other plan next') (same : other.course = search.course)
    (sample : other.evaluator.sample = search.evaluator.sample) :
    next'.course = next.course := by
  have reductions : other.reductions plan = search.reductions plan := by
    simp only [Search.reductions, sample]
    exact (congrArg (fun state =>
      if state.penalty == 0 && search.evaluator.sample.objective == state.objective then
        (state.violation - search.evaluator.sample.violation, plan.violationReduction)
      else
        (state.simplex.poleSample.merit state.penalty -
          search.evaluator.sample.merit state.penalty, plan.meritReduction)) same :)
  have choice : other.simplex.replaced other.shape plan.step other.radius
      (other.reductions plan).1 = search.simplex.replaced search.shape plan.step search.radius
      (search.reductions plan).1 := by
    rw [reductions]
    exact (congrArg (fun state =>
      state.simplex.replaced state.shape plan.step state.radius (search.reductions plan).1)
      same :)
  cases here with
  | dropped kept alike =>
    cases there with
    | dropped _ alike' =>
      rw [alike.course, alike'.course]
      exact (congrArg (fun state => { state with phase := .reduce }) same :)
    | taken replaced =>
      rw [choice, kept] at replaced
      cases replaced
  | @taken j replaced alike =>
    cases there with
    | dropped kept =>
      rw [choice, replaced] at kept
      cases kept
    | @taken j' replaced' alike' =>
      obtain rfl : j = j' := by simpa [choice, replaced] using replaced'
      rw [alike.course, alike'.course, reductions, sample]
      exact (congrArg (fun state =>
        { state with
          simplex := state.simplex.replaceVertex j plan.step search.evaluator.sample
          phase := if 0 < (search.reductions plan).1 ∧
            0.1 * (search.reductions plan).2 ≤ (search.reductions plan).1 then .iterate
            else .reduce }) same :)

/-- **Values lead searches of the same course to the same course.** -/
theorem answer_course (same : other.course = search.course)
    (sample : other.evaluator.sample = search.evaluator.sample)
    (counts : SameCount n search.evaluations other.evaluations) (pending : Pending α n) :
    (other.answer pending).course = (search.answer pending).course := by
  cases pending with
  | vertex vertex =>
    refine (answer_vertex_outcome search vertex).course (answer_vertex_outcome other vertex)
      (recordVertex_course same sample counts vertex) ?_
    rwa [recordVertex_evaluations, recordVertex_evaluations]
  | trial plan =>
    exact (answer_trial_outcome search plan).course (answer_trial_outcome other plan) same sample

end DerivativeFree.Search
