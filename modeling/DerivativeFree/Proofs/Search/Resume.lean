import DerivativeFree.Proofs.Search.Calls
import DerivativeFree.Proofs.Search.Course

/-!
# Going on after a question that has failed

A question that fails with another error than a halt leaves the search waiting for the same
values, with a greater count of evaluations (`Failures.delayed`).  The next call asks it again.

Once the initial simplex is complete, only the limit depends on the count any more, and the
search goes on as if no question had failed (`Failures.resumes`).  While the initial simplex is
set up, the count also says which vertex comes next.  A failed question counts as if it had
given the values of a vertex, so that each one makes the search skip a vertex
(`Failures.skips`).
-/

namespace DerivativeFree

set_option autoImplicit false

/-- The evaluator after some more questions, none of which has given values. -/
def Evaluator.delayed {α : Type} {u b : Nat} (evaluator : Evaluator α u b) (extra : Nat)
    (buffer : Vector α u) : Evaluator α u b :=
  { evaluator with buffer, evaluations := evaluator.evaluations + extra }

namespace Search

variable {α : Type} [Scalar α] {n u b : Nat} {fuel : Nat} {search other : Search α n u b}

/-! ## A greater count -/

/-- The other search has counted more questions, and has nothing else to show for them. -/
structure Follows (extra : Nat) (search other : Search α n u b) : Prop where
  evaluator : ∃ buffer, other.evaluator = search.evaluator.delayed extra buffer
  options : other.options = search.options
  same : other.course = search.course
  best : other.best = search.best

variable {extra count : Nat} {box : Box α n}

theorem Follows.finish (follows : Follows extra search other) (status : Status) :
    Follows extra (search.finish status) (other.finish status) where
  evaluator := by
    rw [(alike_finish search status).evaluator, (alike_finish other status).evaluator]
    exact follows.evaluator
  options := by
    rw [(alike_finish search status).frame.1, (alike_finish other status).frame.1]
    exact follows.options
  same := by rw [finish_course, finish_course, follows.same]
  best := by
    have finished : (other.finish status).course = (search.finish status).course := by
      rw [finish_course, finish_course, follows.same]
    rw [finish_best, finish_best]
    exact (congrArg (fun state => state.simplex.pole) finished :)

theorem Follows.counted (follows : Follows extra search other) (constraints : Vector α u) :
    Follows extra (search.counted constraints) (other.counted constraints) where
  evaluator := by
    obtain ⟨buffer, delayed⟩ := follows.evaluator
    refine ⟨constraints, ?_⟩
    simp only [Search.counted, delayed, Evaluator.delayed, Nat.add_right_comm]
  options := follows.options
  same := follows.same
  best := follows.best

/-- The other search has counted more questions, and the initial simplex is complete. -/
structure Delayed (extra : Nat) (search other : Search α n u b) : Prop where
  started : search.Started
  complete : n < search.evaluations
  published : search.Published
  follows : Follows extra search other

theorem Delayed.phase (delayed : Delayed extra search other) : other.phase = search.phase :=
  (congrArg Search.phase delayed.follows.same :)

/-- The loop does not read the count. -/
theorem Delayed.settle (delayed : Delayed extra search other) (fuel : Nat) :
    (search.settle fuel fuel = none ∧ other.settle fuel fuel = none) ∨
      ∃ settled settled', search.settle fuel fuel = some settled ∧
        other.settle fuel fuel = some settled' ∧ Delayed extra settled settled' := by
  obtain ⟨started, complete, published, ⟨buffer, evaluator⟩, options, same, best⟩ := delayed
  have strict : other.options.roundingCheck = .abort → search.options.roundingCheck = .abort := by
    rw [options]
    exact id
  rcases settle_course same strict fuel fuel with together | ⟨⟨strict, lax⟩, -⟩
  case inr =>
    rw [options] at lax
    exact absurd strict lax
  rcases sameCourse_iff.mp together with stuck | ⟨settled, settled', here, there, same'⟩
  · exact .inl stuck
  have phase : other.phase = search.phase := (congrArg Search.phase same :)
  have phase' : settled'.phase = settled.phase := (congrArg Search.phase same' :)
  have pole : other.simplex.pole = search.simplex.pole :=
    (congrArg (fun state => state.simplex.pole) same :)
  have pole' : settled'.simplex.pole = settled.simplex.pole :=
    (congrArg (fun state => state.simplex.pole) same' :)
  have published' : other.Published := fun status due =>
    best.trans ((published status (phase.symm.trans due)).trans pole.symm)
  -- The best point is what it was before a question, and the pole at the end.
  have best' : settled'.best = settled.best := by
    rcases settle_outcome started here with ⟨pending, due⟩ | ⟨status, due⟩
    · have kept : settled.best = search.best := settle_best here due
      have kept' : settled'.best = other.best := settle_best there (phase'.trans due)
      exact kept'.trans (best.trans kept.symm)
    · rw [published.settle here status due, published'.settle there status (phase'.trans due)]
      exact pole'
  exact .inr ⟨settled, settled', here, there, {
    started := started.settle here
    complete := by
      rw [evaluations, settle_evaluator here]
      exact complete
    published := published.settle here
    follows := {
      evaluator := ⟨buffer, by rw [settle_evaluator here, settle_evaluator there, evaluator]⟩
      options := (settle_options there).trans (options.trans (settle_options here).symm)
      same := same'
      best := best' } }⟩

theorem Delayed.answer (delayed : Delayed extra search other) (box : Box α n)
    (pending : Pending α n) (constraints : Vector α u) (objective : α) :
    Delayed extra ((search.informed box constraints objective).answer pending)
      ((other.informed box constraints objective).answer pending) := by
  obtain ⟨started, complete, published, ⟨buffer, evaluator⟩, options, same, best⟩ := delayed
  have point : other.point = search.point := (congrArg Search.point same :)
  have informed : (other.informed box constraints objective).evaluator =
      (search.informed box constraints objective).evaluator.delayed extra constraints := by
    simp only [Search.informed, evaluator, Evaluator.delayed, point, Nat.add_right_comm]
  have late : n + 1 < (search.informed box constraints objective).evaluations :=
    Nat.succ_lt_succ complete
  have later : n + 1 < (other.informed box constraints objective).evaluations := by
    rw [evaluations, informed]
    exact Nat.lt_of_lt_of_le late (Nat.le_add_right _ extra)
  have answered : ((other.informed box constraints objective).answer pending).course =
      ((search.informed box constraints objective).answer pending).course := by
    refine answer_course ?_ ?_ (.inr ⟨late, later⟩) pending
    · exact same
    · rw [informed]
      rfl
  exact {
    started := (answer_underway _ _).1
    complete := by
      rw [evaluations, answer_evaluator]
      exact Nat.lt_of_succ_lt late
    published := fun _ _ => rfl
    follows := {
      evaluator := ⟨constraints, by rw [answer_evaluator, answer_evaluator, informed]⟩
      options := by
        rw [(answer_frame _ pending).1, (answer_frame _ pending).1]
        exact options
      same := answered
      best := (congrArg (fun state => state.simplex.pole) answered :) } }

/-! ## Steps -/

/-- The other step has the same result and the same point, after the same questions. -/
structure Resumes (extra : Nat) (record before : Record α n u)
    (run other : Step α n u b × Record α n u) : Prop where
  result : other.1.result = run.1.result
  point : other.1.point = run.1.point
  asked : ∃ inquiries, run.2 = record ++ inquiries ∧ other.2 = before ++ inquiries
  follows : Follows extra run.1.search other.1.search
  further : run.1.result = .ok none → Delayed extra run.1.search other.1.search

variable {record before inquiries : Record α n u} {point : Array α} {oracle : Oracle Id α n u}

theorem Follows.handOut (follows : Follows extra search other) (sized : point.size = n)
    (result : Option Status) (further : result = none → Delayed extra search other) :
    Resumes extra record before (search.handOut point result, record ++ inquiries)
      (other.handOut point result, before ++ inquiries) := by
  rw [handOut_sized sized, handOut_sized sized]
  exact ⟨rfl, congrArg Vector.toArray follows.best, ⟨inquiries, rfl, rfl⟩, follows,
    fun same => further (Except.ok.inj same)⟩

theorem Delayed.asked (delayed : Delayed extra search other) (sized : point.size = n)
    (pending : Pending α n) (inquiry : Inquiry α n u) :
    Resumes extra record before (search.asked box pending point inquiry, record.push inquiry)
      (other.asked box pending point inquiry, before.push inquiry) := by
  obtain ⟨x, constraints, answer⟩ := inquiry
  rw [Array.push_eq_append, Array.push_eq_append]
  cases answer with
  | ok objective =>
    have answered := delayed.answer box pending constraints objective
    exact answered.follows.handOut sized none fun _ => answered
  | error error =>
    have counted := delayed.follows.counted constraints
    cases error with
    | halt =>
      have noted : Follows extra ((search.counted constraints).note .debug .halted)
          ((other.counted constraints).note .debug .halted) :=
        ⟨counted.evaluator, counted.options, counted.same, counted.best⟩
      exact (noted.finish .exhausted).handOut sized (some .exhausted) (by simp)
    | wrongDimension | invalidValue | custom =>
      exact ⟨rfl, rfl, ⟨_, rfl, rfl⟩, counted, fun goes => by cases goes⟩

theorem Delayed.ask (delayed : Delayed extra search other) (sized : point.size = n)
    (same : ∀ x first second, oracle x first = oracle x second)
    (allowed : search.evaluations + extra < search.evaluator.limit) (pending : Pending α n) :
    Resumes extra record before ((search.ask oracle.recorded box pending point).run record)
      ((other.ask oracle.recorded box pending point).run before) := by
  obtain ⟨buffer, evaluator⟩ := delayed.follows.evaluator
  have point : other.point = search.point := (congrArg Search.point delayed.follows.same :)
  have inquiry : oracle.inquire other.point other.evaluator.buffer =
      oracle.inquire search.point search.evaluator.buffer := by
    simp only [Oracle.inquire, point,
      same search.point other.evaluator.buffer search.evaluator.buffer]
  have within : other.evaluator.evaluations < other.evaluator.limit := by
    rw [evaluator]
    exact allowed
  have fewer : search.evaluator.evaluations < search.evaluator.limit :=
    Nat.lt_of_le_of_lt (Nat.le_add_right _ extra) allowed
  rw [run_ask, run_ask, if_neg (Nat.not_le_of_lt fewer), if_neg (Nat.not_le_of_lt within), inquiry]
  exact delayed.asked sized pending _

/-- **A step does not depend on the count**, as long as the question is allowed. -/
theorem Delayed.next (delayed : Delayed extra search other) (sized : point.size = n)
    (same : ∀ x first second, oracle x first = oracle x second)
    (allowed : search.evaluations + extra < search.evaluator.limit) (fuel : Nat) :
    Resumes extra record before ((search.next fuel oracle.recorded box point).run record)
      ((other.next fuel oracle.recorded box point).run before) := by
  have started : other.Started := by
    rw [Started, delayed.phase]
    exact delayed.started
  simp only [Search.next, delayed.started.enter, started.enter]
  rcases delayed.settle fuel with
    ⟨here, there⟩ | ⟨settled, last, here, there, related⟩
  · simp only [here, there]
    exact ⟨rfl, rfl, ⟨#[], Array.append_empty.symm, Array.append_empty.symm⟩, delayed.follows,
      fun goes => by cases goes⟩
  · simp only [here, there, related.phase]
    have nothing : ∀ result : Option Status, (result = none → Delayed extra settled last) →
        Resumes extra record before (settled.handOut point result, record)
          (last.handOut point result, before) := by
      intro result further
      have handed : Resumes extra record before
          (settled.handOut point result, record ++ #[])
          (last.handOut point result, before ++ #[]) :=
        related.follows.handOut sized result further
      simpa only [Array.append_empty] using handed
    cases due : settled.phase with
    | evaluate pending =>
      refine related.ask sized same ?_ pending
      rw [evaluations, settle_evaluator here]
      exact allowed
    | done status => exact nothing (some status) (by simp)
    | start | iterate | reduce => exact nothing none fun _ => related

/-! ## Runs -/

theorem Resumes.trans {run other : Step α n u b × Record α n u}
    {first second : Step α n u b × Record α n u} (earlier : Resumes extra record before run other)
    (later : Resumes extra run.2 other.2 first second) :
    Resumes extra record before first second := by
  obtain ⟨asked, runs, others⟩ := earlier.asked
  obtain ⟨more, longer, longest⟩ := later.asked
  refine ⟨later.result, later.point, ⟨asked ++ more, ?_, ?_⟩, later.follows, later.further⟩
  · rw [longer, runs, Array.append_assoc]
  · rw [longest, others, Array.append_assoc]

/-- **A run does not depend on the count**, as long as its questions are allowed. -/
theorem Delayed.runFor (delayed : Delayed extra search other) (sized : point.size = n)
    (same : ∀ x first second, oracle x first = oracle x second) (fuel : Nat) {steps : Nat}
    (allowed : search.evaluations + extra + steps ≤ search.evaluator.limit) :
    Resumes extra record before ((search.runFor fuel oracle.recorded box steps point).run record)
      ((other.runFor fuel oracle.recorded box steps point).run before) := by
  induction steps generalizing search other record before point with
  | zero =>
    exact ⟨rfl, rfl, ⟨#[], Array.append_empty.symm, Array.append_empty.symm⟩, delayed.follows,
      fun _ => delayed⟩
  | succ steps ih =>
    have next : Resumes extra record before
        ((search.next fuel oracle.recorded box point).run record)
        ((other.next fuel oracle.recorded box point).run before) :=
      delayed.next sized same (by omega) fuel
    rw [run_runFor_succ, run_runFor_succ, next.result]
    split
    case h_1 further =>
      have returned : ((search.next fuel oracle.recorded box point).run record).1.result ≠
          .error .outOfFuel := by
        rw [further]
        simp
      have called : Called fuel oracle box search point record _ _ :=
        next_called sized (Prod.mk.eta).symm returned
      obtain ⟨count, limit, size⟩ := called.counted sized further
      rw [next.point]
      refine next.trans (ih (next.further further) size ?_)
      rw [evaluations, count, limit]
      rw [evaluations] at allowed
      omega
    case h_2 => exact next
    case h_3 => exact next

/-! ## Failed questions -/

/-- The search after the given number of calls that ask its question and fail. -/
inductive Failures (box : Box α n) (search : Search α n u b) : Nat → Search α n u b → Prop
  /-- No call at all. -/
  | none : Failures box search 0 search
  /-- Another call. -/
  | call {count : Nat} {other : Search α n u b} {step : Step α n u b}
      {record after : Record α n u} {error : EvalError}
      (failures : Failures box search count other) (fuel : Nat) (oracle : Oracle Id α n u)
      (point : Array α) (sized : point.size = n)
      (called : (other.next fuel oracle.recorded box point).run record = (step, after))
      (failed : step.result = .error (.evaluation error)) :
      Failures box search (count + 1) step.search

theorem Called.failed {pending : Pending α n} {step : Step α n u b} {after : Record α n u}
    {error : EvalError} (called : Called fuel oracle box search point record step after)
    (due : search.phase = .evaluate pending) (sized : point.size = n)
    (failed : step.result = .error (.evaluation error)) :
    ∃ constraints, step.search = search.counted constraints := by
  have started := started_of_phase due (by simp)
  cases called with
  | refused entry =>
    rw [started.enter] at entry
    cases entry
  | closed | spent => cases failed
  | @asked settled pending inquiry settles =>
    obtain rfl := settles.of_rest started (by simp [due])
    simp only [Search.asked] at failed ⊢
    split at failed
    case h_1 | h_2 =>
      rw [handOut_sized sized] at failed
      cases failed
    case h_3 => exact ⟨inquiry.constraints, rfl⟩

/-- Failed questions leave nothing but a greater count, and what they have written. -/
theorem Failures.delayed {pending : Pending α n} (failures : Failures box search count other)
    (due : search.phase = .evaluate pending) :
    ∃ buffer, other = { search with evaluator := search.evaluator.delayed count buffer } := by
  induction failures with
  | none => exact ⟨search.evaluator.buffer, rfl⟩
  | call _ fuel oracle point sized called failed ih =>
    obtain ⟨buffer, rfl⟩ := ih
    have outcome := next_called sized called (by simp [failed])
    obtain ⟨constraints, counted⟩ := outcome.failed (by exact due) sized failed
    exact ⟨constraints, counted⟩

/-- **Going on after failed questions.**  Once the initial simplex is complete, a run goes on
after failed questions as it would have gone on without them.  It asks the same questions and
gives the same result at the same point, with the same simplex, radius and penalty.  Only
the evaluations are more, by the failed questions. -/
theorem Failures.resumes {pending : Pending α n} (failures : Failures box search count other)
    (due : search.phase = .evaluate pending) (complete : n < search.evaluations)
    (same : ∀ x first second, oracle x first = oracle x second) (sized : point.size = n)
    (fuel : Nat) {steps : Nat}
    (allowed : search.evaluations + count + steps ≤ search.evaluator.limit)
    {step later : Step α n u b} {after ended : Record α n u}
    (run : (search.runFor fuel oracle.recorded box steps point).run record = (step, after))
    (resumed : (other.runFor fuel oracle.recorded box steps point).run before = (later, ended)) :
    (∃ inquiries, after = record ++ inquiries ∧ ended = before ++ inquiries) ∧
      later.result = step.result ∧ later.point = step.point ∧
      later.search.simplex = step.search.simplex ∧ later.search.radius = step.search.radius ∧
      later.search.penalty = step.search.penalty ∧
      later.search.evaluations = step.search.evaluations + count := by
  obtain ⟨buffer, rfl⟩ := failures.delayed due
  have delayed : Delayed count search
      { search with evaluator := search.evaluator.delayed count buffer } :=
    { started := started_of_phase due (by simp)
      complete := complete
      published := fun status ended => by
        rw [due] at ended
        cases ended
      follows := ⟨⟨buffer, rfl⟩, rfl, rfl, rfl⟩ }
  have related : Resumes count record before (step, after) (later, ended) := by
    rw [← run, ← resumed]
    exact delayed.runFor sized same fuel allowed
  obtain ⟨result, handed, asked, ⟨⟨buffer, evaluator⟩, -, follows, -⟩, -⟩ := related
  refine ⟨asked, result, handed, ?_, ?_, ?_, ?_⟩
  · exact (congrArg (fun state => state.simplex) follows :)
  · exact (congrArg (fun state => state.radius) follows :)
  · exact (congrArg (fun state => state.penalty) follows :)
  · exact (congrArg (fun counter => counter.evaluations) evaluator :)

/-! ## The initial simplex -/

/-- The vertex after the values at one is chosen by the count of the questions. -/
theorem phase_answer_vertex (vertex : Vertex n) (counted : search.evaluations = count + 1) :
    (search.answer (.vertex vertex)).phase =
      if inside : count < n then .evaluate (.vertex (.edge ⟨count, inside⟩)) else .iterate := by
  have questions := (search.recordVertex_evaluations vertex).trans counted
  have outcome := answer_vertex_outcome search vertex
  generalize search.answer (.vertex vertex) = next at outcome ⊢
  cases outcome with
  | vertex j early alike =>
    obtain ⟨journal, rfl⟩ := alike
    have place : j.val = count := by omega
    rw [dif_pos (place ▸ j.isLt)]
    exact congrArg (fun j => Phase.evaluate (.vertex (.edge j))) (Fin.ext place)
  | complete late alike =>
    obtain ⟨journal, rfl⟩ := alike
    rw [dif_neg (by omega)]

/-- **A failed question makes the initial simplex skip a vertex.**  The vertices are taken in
the order of all questions, those that have failed included. -/
theorem Failures.skips {vertex : Vertex n} (failures : Failures box search count other)
    (due : search.phase = .evaluate (.vertex vertex)) (constraints : Vector α u)
    (objective : α) :
    ((other.informed box constraints objective).answer (.vertex vertex)).phase =
      if inside : search.evaluations + count < n
      then .evaluate (.vertex (.edge ⟨search.evaluations + count, inside⟩))
      else .iterate := by
  obtain ⟨buffer, rfl⟩ := failures.delayed due
  exact phase_answer_vertex vertex rfl

end Search

end DerivativeFree
