import DerivativeFree.Proofs.Interpolation.Motion
import DerivativeFree.Proofs.Search.Lockstep

/-!
# Searches recast without bounds

A search in a box counts the bounds among its constraints.  `recast` turns it into a search
without bounds that has all of them as constraints of its problem, and moves it by a motion at
the same time.  There is one lemma for each thing that a search does: it does the same after it
has been recast.

Two things are told to a search from outside, the point of the caller and the answers of the
oracle.  The point is moved as well, and the oracle has to spell the bounds out
(`Oracle.SpellsOut`): it answers at a moved point like the given one, with the values for the
bounds after the constraints.  Then a whole run is recast, call by call (`transcript_recast`).
-/

namespace DerivativeFree

set_option autoImplicit false

variable {α : Type} [Scalar α] {n u b : Nat}

/-! ## Reports -/

/-- The notice with the point in it moved. -/
def Notice.moved (motion : Motion α n) : Notice α → Notice α
  | .position x => .position (motion.moveList x)
  | notice => notice

/-- The event with the point in its notice moved. -/
def Event.moved (motion : Motion α n) (event : Event α) : Event α :=
  { event with notice := event.notice.moved motion }

namespace Search

/-- The search moved by a motion, with the bounds as constraints of its problem.  The values
last written for them are given. -/
def recast (motion : Motion α n) (values : Vector α b) (search : Search α n u b) :
    Search α n (u + b) 0 where
  options := search.options
  evaluator := {
    buffer := search.evaluator.buffer ++ values
    sample := search.evaluator.sample
    evaluations := search.evaluator.evaluations
    limit := search.evaluator.limit }
  simplex := search.simplex.moved motion
  shape := search.shape
  acceptable := search.acceptable
  workspace := search.workspace
  point := motion.move search.point
  best := motion.move search.best
  phase := search.phase
  radius := search.radius
  penalty := search.penalty
  stepDue := search.stepDue
  journal := search.journal.map (Event.moved motion)

variable (motion : Motion α n) (values : Vector α b) (search : Search α n u b)

theorem recast_note (level : Level) (notice : Notice α) :
    (search.note level notice).recast motion values =
      (search.recast motion values).note level (notice.moved motion) := by
  simp only [note, recast, Array.map_push, Event.moved]

theorem recast_reportAt (verbosity : Verbosity) (notice : Notice α) :
    (search.reportAt verbosity notice).recast motion values =
      (search.recast motion values).reportAt verbosity (notice.moved motion) := by
  have options : (search.recast motion values).options = search.options := rfl
  simp only [reportAt, options]
  split
  · exact recast_note ..
  · rfl

theorem recast_reportValues (objective violation : α) (x : Vector α n) :
    (search.reportValues objective violation x).recast motion values =
      (search.recast motion values).reportValues objective violation (motion.move x) := by
  simp only [reportValues, recast_note, Notice.moved, ← motion.toList_move]
  rfl

theorem recast_finish (status : Status) :
    (search.finish status).recast motion values =
      (search.recast motion values).finish status := by
  simp only [finish, recast_reportAt, Notice.moved, ← motion.toList_move]
  rfl

/-! ## Iterations -/

theorem recast_startAt (x : Vector α n) :
    (search.startAt x).recast motion values =
      (search.recast motion values).startAt (motion.move x) :=
  recast_reportAt ..

theorem recast_selectPole :
    search.selectPole.recast motion values = (search.recast motion values).selectPole := by
  have chosen : (search.recast motion values).simplex.selectPole
      (search.recast motion values).penalty =
        ((search.simplex.selectPole search.penalty).1.moved motion,
          (search.simplex.selectPole search.penalty).2) := search.simplex.selectPole_moved ..
  rw [selectPole, selectPole, chosen]
  rcases search.simplex.selectPole search.penalty with ⟨simplex, promoted⟩
  cases promoted with
  | none => rfl
  | some j => exact recast_note ..

variable (model : LinearModel α n (u + b))

theorem recast_improveShape (j : Fin n) :
    (search.improveShape model j).recast motion values =
      (search.recast motion values).improveShape (b := 0) model j := by
  have point := (search.simplex.replaceEdge j (search.renewalStep model j)).point_moved motion
    (.edge j)
  simp only [improveShape, recast_note, Notice.moved]
  simp only [recast, ← point]
  rfl

theorem recast_tryStep (step : Vector α n) (complete : Bool) (increase reduction : α) :
    (search.tryStep step complete increase reduction).recast motion values =
      (search.recast motion values).tryStep step complete increase reduction := by
  simp only [tryStep, recast_note, Notice.moved]
  simp only [recast, motion.move_add]
  rfl

theorem recast_raisePenalty (penalty : α) :
    (search.raisePenalty penalty).recast motion values =
      (search.recast motion values).raisePenalty penalty :=
  recast_reportAt ..

theorem recast_weighStep (step : Vector α n) (complete : Bool) :
    (search.weighStep model step complete).recast motion values =
      (search.recast motion values).weighStep (b := 0) model step complete := by
  have penalty : (search.recast motion values).penalty = search.penalty := rfl
  have violation : (search.recast motion values).violation = search.violation := rfl
  have dethroned : ∀ raised : Search α n u b,
      (raised.recast motion values).simplex.dethroned (raised.recast motion values).penalty =
        raised.simplex.dethroned raised.penalty := fun _ => rfl
  simp only [weighStep, penalty, violation, ← recast_raisePenalty, dethroned]
  split
  · split
    · rfl
    · exact recast_tryStep ..
  · exact recast_tryStep ..

theorem recast_planned (solved : Workspace α n (u + b) × StepEnd) :
    (search.planned model solved).recast motion values =
      (search.recast motion values).planned (b := 0) model solved := by
  obtain ⟨workspace, how⟩ := solved
  cases how with
  | boundary => exact recast_weighStep ..
  | stalled active =>
    have noted := recast_note motion values { search with workspace } .debug (.stalled active)
    have radius : (search.recast motion values).radius = search.radius := rfl
    simp only [planned, radius]
    split
    · refine (recast_note ..).trans ?_
      simp only [note, recast, Array.map_push, Event.moved, Notice.moved]
    · refine (recast_weighStep ..).trans ?_
      rw [noted]
      rfl

theorem recast_explore (fuel : Nat) :
    (search.recast motion values).explore fuel =
      (search.explore fuel).map (recast motion values) := by
  have misplaced : (search.recast motion values).assess.misplaced = search.assess.misplaced := rfl
  rw [explore_eq, explore_eq, misplaced]
  cases search.assess.misplaced with
  | some j => exact congrArg some (recast_improveShape motion values search.assess _ j).symm
  | none =>
    rw [planStep_eq, planStep_eq, Option.map_map]
    refine congrArg (Option.map · _) (funext fun solved => ?_)
    exact (recast_planned motion values search.assess _ solved).symm

theorem recast_iterate (fuel : Nat) :
    (search.recast motion values).iterate fuel =
      (search.iterate fuel).map (recast motion values) := by
  have spoilt : (search.selectPole.recast motion values).inverseSpoilt =
      search.selectPole.inverseSpoilt := rfl
  have options : (search.selectPole.recast motion values).options =
      search.selectPole.options := rfl
  simp only [iterate, ← recast_selectPole, spoilt, options]
  split
  · split
    · exact congrArg some (recast_finish ..).symm
    · refine Eq.trans ?_ (recast_explore motion values _ fuel)
      rw [recast_note]
      rfl
  · exact recast_explore ..

theorem recast_reportPole :
    search.reportPole.recast motion values = (search.recast motion values).reportPole := by
  have options : (search.recast motion values).options = search.options := rfl
  simp only [reportPole, options]
  split
  · exact recast_reportValues ..
  · rfl

theorem recast_shrink :
    search.shrink.recast motion values = (search.recast motion values).shrink := by
  simp only [shrink_eq, recast_reportPole, recast_reportAt, recast_note]
  rfl

theorem recast_reduce :
    search.reduce.recast motion values = (search.recast motion values).reduce := by
  have acceptable : (search.recast motion values).acceptable = search.acceptable := rfl
  have radius : (search.recast motion values).radius = search.radius := rfl
  have options : (search.recast motion values).options = search.options := rfl
  simp only [reduce, acceptable, radius, options]
  split
  · rfl
  · split
    · exact recast_finish ..
    · exact recast_shrink ..

theorem recast_settle (fuel turns : Nat) :
    (search.recast motion values).settle fuel turns =
      (search.settle fuel turns).map (recast motion values) := by
  induction turns generalizing search with
  | zero => rfl
  | succ turns ih =>
    have phase : (search.recast motion values).phase = search.phase := rfl
    simp only [settle, phase, recast_iterate]
    cases search.phase with
    | iterate =>
      cases search.iterate fuel with
      | none => rfl
      | some next => exact ih next
    | reduce =>
      simp only [← recast_reduce]
      exact ih search.reduce
    | start | evaluate | done => rfl

/-! ## Answers -/

theorem recast_reportSample :
    search.reportSample.recast motion values = (search.recast motion values).reportSample := by
  have options : (search.recast motion values).options = search.options := rfl
  have evaluations : (search.recast motion values).evaluations = search.evaluations := rfl
  simp only [reportSample, options, evaluations]
  split
  · exact recast_reportValues ..
  · rfl

theorem recast_recordVertex (vertex : Vertex n) :
    (search.recordVertex vertex).recast motion values =
      (search.recast motion values).recordVertex vertex := by
  cases vertex with
  | pole => rfl
  | edge j =>
    by_cases few : search.evaluations ≤ n + 1
    · have inserted := search.simplex.insertInitial_moved motion j search.evaluator.sample
        search.point search.radius
      rw [recordVertex_early few, recordVertex_early (by exact few)]
      simp only [recast] at inserted ⊢
      rw [inserted]
    · rw [recordVertex_late few, recordVertex_late (by exact few)]
      rfl

theorem recast_answerVertex (vertex : Vertex n) :
    (search.answerVertex vertex).recast motion values =
      (search.recast motion values).answerVertex vertex := by
  have evaluations : ∀ recorded : Search α n u b,
      (recorded.recast motion values).evaluations = recorded.evaluations := fun _ => rfl
  simp only [answerVertex, ← recast_recordVertex, evaluations]
  split
  case isTrue early =>
    have moved := motion.move_set_add (search.recordVertex vertex).point
      ⟨(search.recordVertex vertex).evaluations - 1, by omega⟩ (search.recordVertex vertex).radius
    simp only [recast] at moved ⊢
    rw [moved]
  case isFalse => rfl

theorem recast_answerTrial (plan : Plan α n) :
    (search.answerTrial plan).recast motion values =
      (search.recast motion values).answerTrial plan := by
  have reductions : (search.recast motion values).reductions plan = search.reductions plan := rfl
  have replaced : (search.recast motion values).simplex.replaced
      (search.recast motion values).shape plan.step (search.recast motion values).radius =
        search.simplex.replaced search.shape plan.step search.radius := rfl
  have noted : (search.tried plan).recast motion values =
      (search.recast motion values).tried plan := recast_note ..
  rw [answerTrial_eq, answerTrial_eq, replaced, reductions, ← noted]
  split
  · rfl
  · exact recast_note ..

theorem recast_answer (pending : Pending α n) :
    (search.answer pending).recast motion values =
      (search.recast motion values).answer pending := by
  cases pending with
  | vertex vertex =>
    simp only [answer, ← recast_reportSample, ← recast_answerVertex]
    rfl
  | trial plan =>
    simp only [answer, ← recast_reportSample, ← recast_answerTrial]
    rfl

/-! ## The points of a caller -/

theorem recast_enter (point : Array α) :
    (search.recast motion values).enter (motion.moveArray point) =
      (search.enter point).map (recast motion values) := by
  have obstacle : search.options.obstacle? n (motion.moveArray point) =
      search.options.obstacle? n point := by
    have valid : Options.ValidStart n (motion.moveArray point) ↔ Options.ValidStart n point := by
      rw [Options.ValidStart, Options.ValidStart, motion.isFinite_moveArray, motion.size_moveArray]
    simp only [Options.obstacle?, valid]
  have phase : (search.recast motion values).phase = search.phase := rfl
  have options : (search.recast motion values).options = search.options := rfl
  simp only [enter, phase, options, obstacle]
  cases search.phase with
  | start =>
    cases found : search.options.obstacle? n point with
    | some failure => rfl
    | none =>
      have sized := ((search.options.obstacle?_eq_none_iff n point).mp found).2.1.1
      simp only [motion.move_ofFn sized, ← recast_startAt]
      rfl
  | evaluate | iterate | reduce | done => rfl

/-- The step of a search, and the one of the search recast. -/
structure Recast (motion : Motion α n) (step : Step α n u b) (step' : Step α n (u + b) 0) :
    Prop where
  search : ∃ values, step'.search = step.search.recast motion values
  point : step'.point = motion.moveArray step.point
  result : step'.result = step.result

theorem recast_handOut (point : Array α) (result : Option Status) :
    Recast motion (search.handOut point result)
      ((search.recast motion values).handOut (motion.moveArray point) result) := by
  simp only [handOut, motion.size_moveArray]
  split
  · exact ⟨⟨values, rfl⟩, motion.toArray_move search.best, rfl⟩
  · exact ⟨⟨values, rfl⟩, rfl, rfl⟩

end Search

/-! ## The answers of an oracle -/

/-- The oracle answers at a moved point like the given one does at the point, with the
residuals of the bounds after the constraints. -/
def Oracle.SpellsOut (motion : Motion α n) (box : Box α n) (oracle : Oracle Id α n u)
    (oracle' : Oracle Id α n (u + b)) : Prop :=
  ∀ (x : Vector α n) (constraints : Vector α u) (values : Vector α b),
    (oracle' (motion.move x) (constraints ++ values)).1.toList =
        (oracle x constraints).1.toList ++ box.residuals x ∧
      (oracle' (motion.move x) (constraints ++ values)).2 = (oracle x constraints).2

/-- The question at the moved point, with the same answer and the residuals of the bounds after
the constraints. -/
structure Inquiry.SpeltOut (motion : Motion α n) (box : Box α n) (inquiry : Inquiry α n u)
    (inquiry' : Inquiry α n (u + b)) : Prop where
  point : inquiry'.point = motion.move inquiry.point
  constraints : inquiry'.constraints.toList =
    inquiry.constraints.toList ++ box.residuals inquiry.point
  answer : inquiry'.answer = inquiry.answer

/-- A vector with the entries of another one in front is made of that one and the rest. -/
theorem exists_append {β : Type} {v : Vector β (u + b)} {w : Vector β u} {rest : List β}
    (entries : v.toList = w.toList ++ rest) :
    ∃ values : Vector β b, v = w ++ values ∧ values.toList = rest := by
  have length : rest.length = b := by
    have lengths := congrArg List.length entries
    simp only [Vector.length_toList, List.length_append] at lengths
    omega
  refine ⟨⟨rest.toArray, length⟩, ?_, rfl⟩
  rw [← Vector.toList_inj, entries, Vector.toList_append]
  rfl

/-- Residuals in a vector of their number are written over all of it. -/
theorem Box.writeResiduals_eq {box : Box α n} {x : Vector α n} {values : Vector α b}
    (found : values.toList = box.residuals x) (out : Vector α b) :
    box.writeResiduals x out = values := by
  refine vector_ext fun i => ?_
  simp [writeResiduals, ← found, get_eq_getElem, List.getD_eq_getElem?_getD]

/-- The sample is the same if the residuals of the bounds are found as constraints. -/
theorem Evaluator.sampleAt_append (motion : Motion α n) (box : Box α n) (x : Vector α n)
    (constraints : Vector α u) {values : Vector α b} (found : values.toList = box.residuals x)
    (objective : α) (last : Sample α (u + b)) (last' : Sample α (u + b + 0)) :
    sampleAt (b := 0) (Box.unbounded n box.positive) (motion.move x) (constraints ++ values)
      objective last' = sampleAt box x constraints objective last := by
  have same : ∀ (v : Vector α (u + b)) (w : Vector α 0), v ++ w = v := by
    intro v w
    rw [← Vector.toList_inj, Vector.toList_append]
    simp
  simp only [sampleAt, Box.writeResiduals_eq found, same]

namespace Search

variable {motion : Motion α n} {box : Box α n} {oracle : Oracle Id α n u}
  {oracle' : Oracle Id α n (u + b)} {record : Record α n u} {record' : Record α n (u + b)}

/-- Questions spelt out lead to the step recast. -/
theorem recast_asked (values : Vector α b) (search : Search α n u b) (pending : Pending α n)
    (point : Array α) {inquiry : Inquiry α n u} {inquiry' : Inquiry α n (u + b)}
    (same : inquiry.SpeltOut motion box inquiry') (here : inquiry.point = search.point) :
    Recast motion (search.asked box pending point inquiry)
      ((search.recast motion values).asked (Box.unbounded n box.positive) pending
        (motion.moveArray point) inquiry') := by
  obtain ⟨x, constraints, answer⟩ := inquiry
  obtain ⟨x', constraints', answer'⟩ := inquiry'
  obtain ⟨moved, entries, same⟩ := same
  simp only at moved entries same here
  subst same here
  obtain ⟨found, rfl, residuals⟩ := exists_append entries
  cases answer' with
  | ok objective =>
    have informed : (search.informed box constraints objective).recast motion found =
        (search.recast motion values).informed (Box.unbounded n box.positive)
          (constraints ++ found) objective := by
      have sample := Evaluator.sampleAt_append motion box search.point constraints residuals
        objective search.evaluator.sample search.evaluator.sample
      simp only [Search.informed, recast] at sample ⊢
      rw [sample]
    simp only [asked, ← informed, ← recast_answer]
    exact recast_handOut ..
  | error error =>
    cases error with
    | halt =>
      have halted : (search.halted constraints).recast motion found =
          (search.recast motion values).halted (constraints ++ found) := by
        rw [Search.halted, recast_finish, recast_note]
        rfl
      simp only [asked, ← halted]
      exact recast_handOut ..
    | wrongDimension | invalidValue | custom => exact ⟨⟨found, rfl⟩, rfl, rfl⟩

/-- What has been asked by a search, and by the search recast. -/
def SpeltOut (motion : Motion α n) (box : Box α n) (record : Record α n u)
    (record' : Record α n (u + b)) : Prop :=
  List.Forall₂ (Inquiry.SpeltOut motion box) record.toList record'.toList

theorem speltOut_empty (motion : Motion α n) (box : Box α n) (u b : Nat) :
    SpeltOut motion box (#[] : Record α n u) (#[] : Record α n (u + b)) :=
  .nil

theorem recast_ask (spells : oracle.SpellsOut motion box oracle') (values : Vector α b)
    (search : Search α n u b) (pending : Pending α n) (point : Array α)
    (questions : SpeltOut motion box record record') :
    let called := (search.ask oracle.recorded box pending point).run record
    let called' := ((search.recast motion values).ask oracle'.recorded
      (Box.unbounded n box.positive) pending (motion.moveArray point)).run record'
    Recast motion called.1 called'.1 ∧ SpeltOut motion box called.2 called'.2 := by
  intro called called'
  simp only [called, called', run_ask]
  have limit : (search.recast motion values).evaluator.limit = search.evaluator.limit := rfl
  have count : (search.recast motion values).evaluator.evaluations =
      search.evaluator.evaluations := rfl
  simp only [limit, count]
  split
  case isTrue =>
    rw [← recast_finish]
    exact ⟨recast_handOut .., questions⟩
  case isFalse =>
    obtain ⟨entries, answer⟩ := spells search.point search.evaluator.buffer values
    have asked : (oracle.inquire search.point search.evaluator.buffer).SpeltOut motion box
        (oracle'.inquire (search.recast motion values).point
          (search.recast motion values).evaluator.buffer) := ⟨rfl, entries, answer⟩
    refine ⟨recast_asked values search pending point asked rfl, ?_⟩
    simp only [SpeltOut, Array.toList_push]
    exact List.rel_append questions (.cons asked .nil)

/-! ## Calls -/

/-- **A call leads to the call recast.** -/
theorem recast_next (spells : oracle.SpellsOut motion box oracle') (values : Vector α b)
    (search : Search α n u b) (fuel : Nat) (point : Array α)
    (questions : SpeltOut motion box record record') :
    let called := (search.next fuel oracle.recorded box point).run record
    let called' := ((search.recast motion values).next fuel oracle'.recorded
      (Box.unbounded n box.positive) (motion.moveArray point)).run record'
    Recast motion called.1 called'.1 ∧ SpeltOut motion box called.2 called'.2 := by
  unfold next
  rw [recast_enter]
  cases search.enter point with
  | error failure => exact ⟨⟨⟨values, rfl⟩, rfl, rfl⟩, questions⟩
  | ok entered =>
    simp only [Except.map, recast_settle]
    cases entered.settle fuel fuel with
    | none => exact ⟨⟨⟨values, rfl⟩, rfl, rfl⟩, questions⟩
    | some settled =>
      have phase : (settled.recast motion values).phase = settled.phase := rfl
      simp only [Option.map_some, phase]
      cases settled.phase with
      | evaluate pending => exact recast_ask spells values settled pending point questions
      | start | iterate | reduce | done =>
        exact ⟨recast_handOut .., questions⟩

/-- **A run leads to the run recast.** -/
theorem transcript_recast (spells : oracle.SpellsOut motion box oracle') (values : Vector α b)
    (search : Search α n u b) (fuel calls : Nat) (point : Array α)
    (questions : SpeltOut motion box record record') :
    List.Forall₂ (fun called called' => Recast motion called.1 called'.1 ∧
        SpeltOut motion box called.2 called'.2)
      (search.transcript fuel oracle box calls point record)
      ((search.recast motion values).transcript fuel oracle' (Box.unbounded n box.positive) calls
        (motion.moveArray point) record') := by
  induction calls generalizing search values point record record' with
  | zero => exact .nil
  | succ calls ih =>
    obtain ⟨⟨⟨values', next⟩, handed, -⟩, asked⟩ :=
      recast_next spells values search fuel point questions
    refine .cons (recast_next spells values search fuel point questions) ?_
    rw [next, handed]
    exact ih values' _ _ asked

end Search

end DerivativeFree
