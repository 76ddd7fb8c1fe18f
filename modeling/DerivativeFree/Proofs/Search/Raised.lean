import DerivativeFree.Proofs.Interpolation.Level
import DerivativeFree.Proofs.Search.Inverse
import DerivativeFree.Proofs.TrustRegion.Step

/-!
# Searches with a raised objective

What a search does with a raised objective is what it does with the objective itself, but
for the samples and the journal, in which the objective is raised.  There is one lemma for
each thing that a search does.  An initial simplex has samples at some of its vertices
only, so the level is given for each vertex as long as the simplex is not complete, and is
the same everywhere afterwards (`lifted`).

An iteration is the one place where this needs a condition, `HoldsObjective`: the step of
the model has to be the same for all levels.
-/

namespace DerivativeFree

set_option autoImplicit false

variable {α : Type} [EuclideanField α] {n u b : Nat}

/-! ## Raising -/

/-- The notice with the objective in it raised. -/
def Notice.raised (lift : α) : Notice α → Notice α
  | .promoted vertex objective violation => .promoted vertex (objective + lift) violation
  | .tried objective violation reduction predicted =>
    .tried (objective + lift) violation reduction predicted
  | .progress evaluations objective violation => .progress evaluations (objective + lift) violation
  | notice => notice

/-- The event with the objective in its notice raised. -/
def Event.raised (lift : α) (event : Event α) : Event α :=
  { event with notice := event.notice.raised lift }

/-- The question with the objective in its answer raised. -/
def Inquiry.raised (lift : α) (inquiry : Inquiry α n u) : Inquiry α n u :=
  { inquiry with answer := inquiry.answer.map (· + lift) }

/-- The oracle of the raised objective. -/
def Oracle.raised (oracle : Oracle Id α n u) (lift : α) : Oracle Id α n u :=
  fun x constraints => ((oracle x constraints).1, (oracle x constraints).2.map (· + lift))

theorem Oracle.inquire_raised (oracle : Oracle Id α n u) (lift : α) (x : Vector α n)
    (constraints : Vector α u) :
    (oracle.raised lift).inquire x constraints = (oracle.inquire x constraints).raised lift :=
  rfl

namespace Search

/-- The search with the objective raised at the vertices, each by its own level, and by
`lift` in the last sample and in the journal. -/
def raised (search : Search α n u b) (lift : α) (level : Vertex n → α) : Search α n u b :=
  { search with
    simplex := search.simplex.raised level
    evaluator := { search.evaluator with sample := search.evaluator.sample.raised lift }
    journal := search.journal.map (Event.raised lift) }

variable (search : Search α n u b) (lift : α) (level : Vertex n → α)

theorem violation_raised : (search.raised lift level).violation = search.violation :=
  rfl

theorem objective_raised :
    (search.raised lift level).objective = search.objective + level .pole :=
  rfl

/-! ## Reports -/

theorem raised_note (grade : Level) (notice : Notice α) :
    (search.note grade notice).raised lift level =
      (search.raised lift level).note grade (notice.raised lift) := by
  simp only [note, raised, Array.map_push, Event.raised]

theorem raised_reportAt (verbosity : Verbosity) (notice : Notice α) :
    (search.reportAt verbosity notice).raised lift level =
      (search.raised lift level).reportAt verbosity (notice.raised lift) := by
  have options : (search.raised lift level).options = search.options := rfl
  simp only [reportAt, options]
  split
  · exact raised_note ..
  · rfl

theorem raised_reportValues (objective violation : α) (x : Vector α n) :
    (search.reportValues objective violation x).raised lift level =
      (search.raised lift level).reportValues (objective + lift) violation x := by
  simp only [reportValues, raised_note]
  rfl

theorem raised_finish (known : level .pole = lift) (status : Status) :
    (search.finish status).raised lift level = (search.raised lift level).finish status := by
  simp only [finish, raised_reportAt, Notice.raised]
  subst known
  rfl

/-! ## Iterations -/

/-- The search with the objective raised throughout. -/
abbrev lifted (search : Search α n u b) (lift : α) : Search α n u b :=
  search.raised lift fun _ => lift

theorem lifted_selectPole : search.selectPole.lifted lift = (search.lifted lift).selectPole := by
  have simplex : (search.lifted lift).simplex.selectPole (search.lifted lift).penalty =
      ((search.simplex.selectPole search.penalty).1.raised fun _ => lift,
        (search.simplex.selectPole search.penalty).2) := search.simplex.selectPole_raised ..
  rw [selectPole, selectPole, simplex]
  rcases search.simplex.selectPole search.penalty with ⟨chosen, promoted⟩
  cases promoted with
  | none => rfl
  | some j => exact raised_note ..

variable {model other : LinearModel α n (u + b)}

theorem renewalStep_raised (same : model.SameSlopes other) (j : Fin n) :
    (search.raised lift level).renewalStep other j = search.renewalStep model j := by
  have violations : (search.raised lift level).violationsAlong other =
      search.violationsAlong model := by
    funext step
    simp only [violationsAlong, same.slope]
    rfl
  simp only [renewalStep, violations, same.slope]
  rfl

theorem raised_improveShape (same : model.SameSlopes other) (j : Fin n) :
    (search.improveShape model j).raised lift level =
      (search.raised lift level).improveShape other j := by
  simp only [improveShape, raised_note, renewalStep_raised _ _ _ same]
  rfl

theorem raised_tryStep (step : Vector α n) (complete : Bool) (increase reduction : α) :
    (search.tryStep step complete increase reduction).raised lift level =
      (search.raised lift level).tryStep step complete increase reduction := by
  simp only [tryStep, raised_note]
  rfl

theorem raised_raisePenalty (penalty : α) :
    (search.raisePenalty penalty).raised lift level =
      (search.raised lift level).raisePenalty penalty := by
  simp only [raisePenalty, raised_reportAt]
  rfl

theorem lifted_weighStep (same : model.SameSlopes other) (step : Vector α n) (complete : Bool) :
    (search.weighStep model step complete).lifted lift =
      (search.lifted lift).weighStep other step complete := by
  have penalty : (search.lifted lift).penalty = search.penalty := rfl
  have violation : (search.lifted lift).violation = search.violation := rfl
  have dethroned : ∀ raised : Search α n u b,
      (raised.lifted lift).simplex.dethroned (raised.lifted lift).penalty =
        raised.simplex.dethroned raised.penalty := fun raised => raised.simplex.dethroned_raised ..
  simp only [weighStep, same.predictedIncrease, same.predictedViolation, penalty, violation,
    ← raised_raisePenalty, dethroned]
  split
  · split
    · rfl
    · exact raised_tryStep ..
  · exact raised_tryStep ..

/-! ## Planning -/

/-- If the next iteration looks for a step, then every walk of the second stage is made while
the objective is active. -/
def HoldsObjective (search : Search α n u b) : Prop :=
  search.phase = .iterate → search.surveyed.misplaced = none →
    search.workspace.HoldsThroughout search.surveyed.modelled search.radius

theorem lifted_planStep (same : model.SameSlopes other)
    (holds : search.workspace.HoldsThroughout model search.radius) (fuel : Nat) :
    (search.lifted lift).planStep fuel other =
      (search.planStep fuel model).map fun planned => planned.lifted lift := by
  have solved : (search.lifted lift).workspace.solve other (search.lifted lift).radius fuel =
      search.workspace.solve model search.radius fuel := Workspace.solve_eq same holds fuel
  have stalled : ∀ (noted : Search α n u b) (step : Vector α n),
      (if dot step step < 0.25 * (noted.lifted lift).radius * (noted.lifted lift).radius then
        note { noted.lifted lift with stepDue := true, phase := .reduce } .debug
          (.tooShort (Scalar.sqrt (dot step step)))
      else (noted.lifted lift).weighStep other step false) =
        lifted (if dot step step < 0.25 * noted.radius * noted.radius then
          note { noted with stepDue := true, phase := .reduce } .debug
            (.tooShort (Scalar.sqrt (dot step step)))
        else noted.weighStep model step false) lift := by
    intro noted step
    have radius : (noted.lifted lift).radius = noted.radius := rfl
    rw [radius]
    split
    · exact (raised_note { noted with stepDue := true, phase := .reduce } lift
        (fun _ => lift) .debug (.tooShort (Scalar.sqrt (dot step step)))).symm
    · exact (lifted_weighStep noted lift same step false).symm
  rw [planStep, planStep, solved, Option.map_map]
  refine congrArg (Option.map · _) (funext fun solution => ?_)
  obtain ⟨workspace, how⟩ := solution
  cases how with
  | boundary => exact (lifted_weighStep { search with workspace } lift same ..).symm
  | stalled active =>
    have noted : (lifted { search with workspace } lift).note .debug (.stalled active) =
        lifted (note { search with workspace } .debug (.stalled active)) lift :=
      (raised_note { search with workspace } lift (fun _ => lift) .debug (.stalled active)).symm
    refine Eq.trans ?_ (stalled (note { search with workspace } .debug (.stalled active))
      workspace.step)
    rw [← noted]
    rfl

theorem lifted_explore (fuel : Nat)
    (holds : search.assess.misplaced = none →
      search.workspace.HoldsThroughout search.modelled search.radius) :
    (search.lifted lift).explore fuel =
      (search.explore fuel).map fun next => next.lifted lift := by
  have same : search.modelled.SameSlopes (search.lifted lift).modelled := by
    have raised : (search.lifted lift).modelled = search.modelled.raised lift :=
      LinearModel.interpolate_raised search.simplex lift
    rw [raised]
    exact .raised search.modelled lift
  have assessed : (search.lifted lift).assess = search.assess.lifted lift := rfl
  have misplaced : (search.assess.lifted lift).misplaced = search.assess.misplaced := rfl
  rw [explore_eq, explore_eq, assessed, misplaced]
  cases found : search.assess.misplaced with
  | some j => exact congrArg some (raised_improveShape _ lift _ same j).symm
  | none => exact lifted_planStep search.assess lift same (holds found) fuel

theorem lifted_iterate (holds : search.HoldsObjective) (due : search.phase = .iterate)
    (fuel : Nat) :
    (search.lifted lift).iterate fuel =
      (search.iterate fuel).map fun next => next.lifted lift := by
  have explored : ∀ noted : Search α n u b, noted.Alike search.selectPole →
      (noted.lifted lift).explore fuel = (noted.explore fuel).map fun next => next.lifted lift := by
    intro noted alike
    obtain ⟨journal, rfl⟩ := alike.trans search.alike_selectPole
    exact lifted_explore _ lift fuel (holds due)
  have spoilt : (search.selectPole.lifted lift).inverseSpoilt = search.selectPole.inverseSpoilt :=
    rfl
  have strict : (search.selectPole.lifted lift).options = search.selectPole.options := rfl
  simp only [iterate, ← lifted_selectPole, spoilt, strict]
  split
  · split
    · exact congrArg some (raised_finish _ lift _ rfl _).symm
    · have noted := raised_note search.selectPole lift (fun _ => lift) .warn
        (.inaccurate search.selectPole.simplex.inverseError)
      refine Eq.trans ?_ (explored _ (alike_note search.selectPole .warn
        (.inaccurate search.selectPole.simplex.inverseError)))
      exact congrArg (explore fuel) noted.symm
  · exact explored _ (.refl _)

theorem raised_reportPole :
    search.reportPole.raised lift (fun _ => lift) =
      (search.raised lift fun _ => lift).reportPole := by
  have options : (search.raised lift fun _ => lift).options = search.options := rfl
  simp only [reportPole, options]
  split
  · exact raised_reportValues ..
  · rfl

theorem lifted_shrink : search.shrink.lifted lift = (search.lifted lift).shrink := by
  have penalty : (search.lifted lift).loweredPenalty = search.loweredPenalty := by
    have revised := search.simplex.revisedPenalty_raised lift search.penalty
    have same : (search.lifted lift).penalty = search.penalty := rfl
    have simplex : (search.lifted lift).simplex = search.simplex.raised fun _ => lift := rfl
    rw [loweredPenalty, loweredPenalty, same, simplex, revised]
  have radius : (search.lifted lift).halvedRadius = search.halvedRadius := rfl
  simp only [shrink_eq, penalty, radius, lifted, raised_reportPole, raised_reportAt, raised_note]
  rfl

theorem lifted_reduce : search.reduce.lifted lift = (search.lifted lift).reduce := by
  have acceptable : (search.lifted lift).acceptable = search.acceptable := rfl
  have radius : (search.lifted lift).radius = search.radius := rfl
  have options : (search.lifted lift).options = search.options := rfl
  simp only [reduce, acceptable, radius, options]
  split
  · rfl
  · split
    · exact raised_finish _ lift _ rfl _
    · exact lifted_shrink ..

/-! ## Answers -/

theorem reportSample_raised :
    (search.raised lift level).reportSample = search.reportSample.raised lift level := by
  have options : (search.raised lift level).options = search.options := rfl
  have evaluations : (search.raised lift level).evaluations = search.evaluations := rfl
  simp only [reportSample, options, evaluations]
  split
  · exact (raised_reportValues ..).symm
  · rfl

/-- The last sample is put into the simplex at a vertex. -/
theorem recordVertex_raised (vertex : Vertex n) (known : vertex ≠ .pole → level .pole = lift) :
    (search.raised lift level).recordVertex vertex =
      (search.recordVertex vertex).raised lift (Function.update level vertex lift) := by
  cases vertex with
  | pole =>
    have simplex := search.simplex.setSample_raised level lift .pole search.evaluator.sample
    simp only [recordVertex, raised] at simplex ⊢
    rw [simplex]
  | edge j =>
    obtain rfl := known (by simp)
    by_cases few : search.evaluations ≤ n + 1
    · have simplex := search.simplex.insertInitial_raised level j search.evaluator.sample
        search.point search.radius
      rw [recordVertex_early few, recordVertex_early (by exact few)]
      simp only [raised] at simplex ⊢
      rw [simplex]
    · have simplex := search.simplex.setSample_raised level (level .pole) (.edge j)
        search.evaluator.sample
      rw [recordVertex_late few, recordVertex_late (by exact few)]
      simp only [raised] at simplex ⊢
      rw [simplex]

theorem answerVertex_raised (vertex : Vertex n) (known : vertex ≠ .pole → level .pole = lift) :
    (search.raised lift level).answer (.vertex vertex) =
      (search.answer (.vertex vertex)).raised lift (Function.update level vertex lift) := by
  have recorded := recordVertex_raised search.reportSample lift level vertex known
  have evaluations : ∀ (recorded : Search α n u b) (level : Vertex n → α),
      (recorded.raised lift level).evaluations = recorded.evaluations := fun _ _ => rfl
  simp only [answer, answerVertex, reportSample_raised, recorded, evaluations]
  split
  · rfl
  · rfl

theorem reductions_raised (plan : Plan α n) :
    (search.lifted lift).reductions plan = search.reductions plan := by
  have penalty : (search.lifted lift).penalty = search.penalty := rfl
  have sample : (search.lifted lift).evaluator.sample = search.evaluator.sample.raised lift := rfl
  have pole : (search.lifted lift).simplex.poleSample = search.simplex.poleSample.raised lift := rfl
  have objective : (search.lifted lift).objective = search.objective + lift := rfl
  have violation : (search.lifted lift).violation = search.violation := rfl
  simp only [reductions, penalty, sample, pole, objective, violation, Sample.objective_raised,
    Sample.violation_raised, Sample.merit_raised, add_beq_add_right, add_sub_add_right_eq_sub]

theorem lifted_answerTrial (plan : Plan α n) :
    (search.answerTrial plan).lifted lift = (search.lifted lift).answerTrial plan := by
  have replaced : (search.lifted lift).simplex.replaced (search.lifted lift).shape plan.step
      (search.lifted lift).radius = search.simplex.replaced search.shape plan.step search.radius :=
    rfl
  have noted : (search.lifted lift).tried plan = (search.tried plan).lifted lift := by
    rw [tried, reductions_raised]
    exact (raised_note search lift (fun _ => lift) .debug (.tried _ _ _ _)).symm
  rw [answerTrial_eq, answerTrial_eq, replaced, reductions_raised, noted]
  split
  case h_1 => rfl
  case h_2 j _ =>
    have taken : (search.lifted lift).simplex.replaceVertex j plan.step
        (search.lifted lift).evaluator.sample =
          (search.simplex.replaceVertex j plan.step search.evaluator.sample).raised fun _ => lift :=
      search.simplex.replaceVertex_raised ..
    rw [lifted, raised_note, taken]
    rfl

theorem answer_trial_raised (plan : Plan α n) :
    (search.lifted lift).answer (.trial plan) = (search.answer (.trial plan)).lifted lift := by
  simp only [answer, reportSample_raised, ← lifted_answerTrial]
  rfl

end Search

end DerivativeFree
