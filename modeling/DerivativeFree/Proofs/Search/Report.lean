import DerivativeFree.Proofs.Search.Bounds
import DerivativeFree.Proofs.Search.Observers
import DerivativeFree.Minimize

/-!
# The report of a minimization

A minimization runs a new search to its end and reports what the search shows then.  The
oracle may have a state of its own, so that its answers need not be those of a function; a
single call sees only one of its states (`run_next_watched`), and what is known of calls to
functions carries over.

The number of evaluations is the number of questions.  If the first question has been answered
with values, then some question has been asked about the final point, and its answer is what
is reported.  If the oracle wants the search to stop at once, no values are known, and the
zeros that a new search begins with are reported (`minimize_reports`,
`unfounded_on_line`).
-/

namespace DerivativeFree

set_option autoImplicit false

/-! ## The greatest violation -/

/-- The greatest of zero and the negated constraints. -/
def GreatestViolation {α : Type} [EuclideanField α] (constraints : List α) (violation : α) :
    Prop :=
  IsGreatest (insert 0 {a | ∃ c ∈ constraints, a = -c}) violation

section Violation

variable {α : Type} [EuclideanField α] {n m : Nat}

theorem largestFrom_eq_or (start : α) (term : Fin n → α) :
    largestFrom start term = start ∨ ∃ i, largestFrom start term = term i := by
  induction n with
  | zero => exact .inl (largestFrom_zero start term)
  | succ n ih =>
    rw [largestFrom_succ, larger_eq_max]
    rcases max_choice (largestFrom start fun i : Fin n => term i.castSucc)
      (term (Fin.last n)) with earlier | last
    · rw [earlier]
      exact (ih fun i => term i.castSucc).imp_right fun ⟨i, same⟩ => ⟨i.castSucc, same⟩
    · exact .inr ⟨Fin.last n, last⟩

theorem greatestViolation_worstViolation (constraints : Vector α m) :
    GreatestViolation constraints.toList (Sample.worstViolation constraints) := by
  have entries : ∀ k : Fin m, constraints.get k ∈ constraints.toList := fun k => by
    simp [get_eq_getElem]
  constructor
  · rcases largestFrom_eq_or 0 fun k : Fin m => -constraints.get k with none | ⟨k, some⟩
    · exact .inl none
    · exact .inr ⟨constraints.get k, entries k, some⟩
  · have bound : 0 ≤ Sample.worstViolation constraints ∧
        ∀ k, -constraints.get k ≤ Sample.worstViolation constraints :=
      largestFrom_le_iff.mp le_rfl
    rintro a (rfl | ⟨c, among, rfl⟩)
    · exact bound.1
    · obtain ⟨k, inside, rfl⟩ := Vector.mem_iff_getElem.mp (Vector.mem_toList_iff.mp among)
      exact bound.2 ⟨k, inside⟩

end Violation

/-! ## Oracles with a state -/

namespace Oracle

variable {α σ : Type} {n m : Nat}

/-- The oracle with each question and its answer added to a record beside its state. -/
def watched (oracle : Oracle (StateM σ) α n m) : Oracle (StateM (σ × Record α n m)) α n m :=
  fun x constraints watch =>
    let ((constraints, answer), state) := oracle x constraints watch.1
    ((constraints, answer), state, watch.2.push ⟨x, constraints, answer⟩)

/-- The answers of an oracle in one of its states. -/
def frozen (oracle : Oracle (StateM σ) α n m) (state : σ) : Oracle Id α n m :=
  fun x constraints => (oracle x constraints state).1

end Oracle

namespace Search

section Watched

variable {α σ : Type} [Scalar α] {n u b : Nat} {options : Options α} {box : Box α n}
  {record : Record α n u}

theorem run_ask_watched (oracle : Oracle (StateM σ) α n u) (box : Box α n)
    (search : Search α n u b) (pending : Pending α n) (point : Array α) (state : σ)
    (record : Record α n u) :
    let called := (search.ask (oracle.frozen state).recorded box pending point).run record
    ∃ later, (search.ask oracle.watched box pending point).run (state, record) =
      (called.1, later, called.2) := by
  intro called
  simp only [called, run_ask]
  unfold ask Evaluator.evaluate
  split
  case isTrue => exact ⟨state, rfl⟩
  case isFalse =>
    rcases answered : oracle search.point search.evaluator.buffer state with
      ⟨⟨constraints, answer⟩, later⟩
    have asks : (oracle.watched search.point search.evaluator.buffer).run (state, record) =
        ((constraints, answer), later, record.push ⟨search.point, constraints, answer⟩) := by
      simp only [Oracle.watched, StateT.run, answered]
    refine ⟨later, ?_⟩
    cases answer with
    | ok objective =>
      simp only [bind_assoc, StateT.run_bind, asks, Oracle.inquire, Oracle.frozen, asked, answered]
      rfl
    | error error =>
      simp only [bind_assoc, StateT.run_bind, asks, Oracle.inquire, Oracle.frozen, asked, answered]
      cases error <;> rfl

/-- A call sees only one state of an oracle, since it asks at most one question. -/
theorem run_next_watched (oracle : Oracle (StateM σ) α n u) (box : Box α n)
    (search : Search α n u b) (fuel : Nat) (point : Array α) (state : σ)
    (record : Record α n u) :
    let called := (search.next fuel (oracle.frozen state).recorded box point).run record
    ∃ later, (search.next fuel oracle.watched box point).run (state, record) =
      (called.1, later, called.2) := by
  intro called
  simp only [called]
  unfold next
  cases search.enter point with
  | error failure => exact ⟨state, rfl⟩
  | ok entered =>
    cases found : entered.settle fuel fuel with
    | none =>
      simp only [found]
      exact ⟨state, rfl⟩
    | some settled =>
      simp only [found]
      cases settled.phase with
      | evaluate pending => exact run_ask_watched oracle box settled pending point state record
      | start | iterate | reduce | done => exact ⟨state, rfl⟩

/-! ## Runs -/

/-- All questions have been answered with values. -/
def Answered (record : Record α n u) : Prop :=
  ∀ inquiry ∈ record, ∃ objective, inquiry.answer = .ok objective

omit [Scalar α] in
theorem Answered.push {inquiry : Inquiry α n u} (answered : Answered record) {objective : α}
    (known : inquiry.answer = .ok objective) : Answered (record.push inquiry) := by
  intro other asked
  rcases Array.mem_push.mp asked with before | rfl
  · exact answered other before
  · exact ⟨objective, known⟩

/-- All questions have been answered with values, but for a last one that may have been answered
with a halt. -/
def Halted (record : Record α n u) : Prop :=
  Answered record ∨
    ∃ earlier inquiry, record = earlier.push inquiry ∧ Answered earlier ∧
      inquiry.answer = .error .halt

omit [Scalar α] in
theorem Halted.clean (halted : Halted record) :
    ∀ inquiry ∈ record, ∀ error, inquiry.answer = .error error → error = .halt := by
  intro inquiry asked error failed
  rcases halted with answered | ⟨earlier, last, rfl, answered, halt⟩
  · obtain ⟨objective, known⟩ := answered inquiry asked
    rw [known] at failed
    cases failed
  · rcases Array.mem_push.mp asked with before | rfl
    · obtain ⟨objective, known⟩ := answered inquiry before
      rw [known] at failed
      cases failed
    · rw [halt] at failed
      exact (Except.error.inj failed).symm

omit [Scalar α] in
/-- The first question has been answered with values, or it is the only one. -/
theorem Halted.first (halted : Halted record) {inquiry : Inquiry α n u}
    (found : record[0]? = some inquiry) :
    (∃ objective, inquiry.answer = .ok objective) ∨
      inquiry.answer = .error .halt ∧ record = #[inquiry] := by
  rcases halted with answered | ⟨earlier, last, rfl, answered, halt⟩
  · exact .inl (answered inquiry (Array.mem_of_getElem? found))
  · rcases Nat.eq_zero_or_pos earlier.size with none | some
    · obtain rfl := Array.eq_empty_of_size_eq_zero none
      obtain rfl : last = inquiry := by simpa using found
      exact .inr ⟨halt, rfl⟩
    · rw [Array.getElem?_push, if_neg some.ne] at found
      exact .inl (answered inquiry (Array.mem_of_getElem? found))

/-- What is left when a run has ended with a status. -/
structure RunEnded (options : Options α) (box : Box α n) (step : Step α n u b)
    (record : Record α n u) : Prop where
  reached : Reached options box record step.search
  phase : ∃ status, step.search.phase = .done status
  point : step.point = step.search.best.toArray
  halted : Halted record

variable {search : Search α n u b} {step : Step α n u b} {after : Record α n u}
  {point : Array α} {fuel : Nat} {status : Status}

/-- The question of a call that ends a search is answered with a halt. -/
theorem Called.halted {oracle : Oracle Id α n u}
    (called : Called fuel oracle box search point record step after)
    (result : step.result = .ok (some status)) (answered : Answered record) : Halted after := by
  cases called with
  | refused | closed | spent => exact .inl answered
  | @asked settled pending inquiry =>
    simp only [Search.asked] at result
    split at result
    case h_1 => cases (result_handOut result).1
    case h_2 halt => exact .inr ⟨record, inquiry, rfl, answered, halt⟩
    case h_3 => cases result

/-- A run in a state makes its first step, and goes on if that says so. -/
theorem run_runFor_of_next {made : Step α n u b} {before middle : σ}
    (oracle : Oracle (StateM σ) α n u) (box : Box α n) (steps : Nat)
    (next : (search.next fuel oracle box point).run before = (made, middle)) :
    (search.runFor fuel oracle box (steps + 1) point).run before =
      match made.result with
      | .ok none => (made.search.runFor fuel oracle box steps made.point).run middle
      | .ok (some _) | .error _ => (made, middle) := by
  simp only [runFor, StateT.run_bind, next]
  change (match made.result with
    | .ok none => _
    | .ok (some _) | .error _ => _ : StateM σ (Step α n u b)).run _ = _
  split <;> rfl

/-- **A run that ends with a status** has had answers to all its questions but the last. -/
theorem runFor_ended (oracle : Oracle (StateM σ) α n u) (steps : Nat)
    (reached : Reached options box record search) (answered : Answered record)
    (sized : point.size = n) (state : σ) {later : σ}
    (called : (search.runFor fuel oracle.watched box steps point).run (state, record) =
      (step, later, after))
    (result : step.result = .ok (some status)) : RunEnded options box step after := by
  induction steps generalizing search point record state with
  | zero =>
    cases called
    cases result
  | succ steps ih =>
    obtain ⟨middle, next⟩ := run_next_watched oracle box search fuel point state record
    have onwards := reached.next fuel (oracle.frozen state) point
    rw [run_runFor_of_next oracle.watched box steps next] at called
    rcases outcome : (search.next fuel (oracle.frozen state).recorded box point).run record with
      ⟨made, asked⟩
    rw [outcome] at called onwards
    cases found : made.result with
    | error failure =>
      simp only [found] at called
      cases called
      rw [found] at result
      cases result
    | ok some =>
      have call := next_called sized outcome (by simp [found])
      cases some with
      | some status =>
        simp only [found] at called
        cases called
        obtain ⟨ended, best⟩ := call.ended found sized
        exact ⟨onwards, ⟨status, ended⟩, best, call.halted found answered⟩
      | none =>
        simp only [found] at called
        obtain ⟨inquiry, rfl, objective, known⟩ := call.found found
        exact ih onwards (answered.push known) (call.counted sized found).2.2 middle called

theorem run_minimize_of_run {m : Nat} {x : Array α} {parameters : Parameters α}
    {oracle : Oracle (StateM σ) α n m} {before later : σ} {step : Step α n m 0}
    (positive : 0 < n) (sized : x.size = n)
    (run : ((create n m 0 parameters.options).run fuel oracle (Box.unbounded n positive) x).run
      before = (step, later)) :
    (minimize fuel n m x parameters oracle).run before = (.ofStep x step, later) := by
  simp only [minimize, positive, sized, dif_pos, if_pos, StateT.run_bind, run]
  rfl

/-- A minimization with a report has run a new search to its end. -/
theorem run_minimize {m : Nat} {x : Array α} {parameters : Parameters α}
    {oracle : Oracle (StateM σ) α n m} {before : σ} {report : Report α}
    (returned : ((minimize fuel n m x parameters oracle).run before).1.result = .ok report) :
    ∃ (positive : 0 < n) (step : Step α n m 0) (later : σ) (status : Status), x.size = n ∧
      ((create n m 0 parameters.options).run fuel oracle (Box.unbounded n positive) x).run before =
        (step, later) ∧
      step.result = .ok (some status) ∧
      (minimize fuel n m x parameters oracle).run before =
        (⟨step.point, .ok report, step.search.journal⟩, later) ∧
      report = {
        status := status
        objective := step.search.objective
        violation := step.search.violation
        evaluations := step.search.evaluations } := by
  by_cases positive : 0 < n
  case neg =>
    simp only [minimize, positive, dif_neg, not_false_eq_true] at returned
    cases returned
  by_cases sized : x.size = n
  case neg =>
    simp only [minimize, positive, dif_pos, sized, if_neg, not_false_eq_true] at returned
    cases returned
  rcases run : ((create n m 0 parameters.options).run fuel oracle (Box.unbounded n positive)
    x).run before with ⟨step, later⟩
  rw [run_minimize_of_run positive sized run] at returned ⊢
  refine ⟨positive, step, later, ?_⟩
  simp only [Minimization.ofStep] at returned ⊢
  split at returned
  case h_1 status ended =>
    cases returned
    exact ⟨status, sized, run, ended, rfl, rfl⟩
  case h_2 | h_3 => cases returned

/-- A search that has started may ask for all vertices of a simplex. -/
theorem Reached.provided (reached : Reached options box record search)
    (started : search.Started) : n + 1 ≤ options.maxEvaluations := by
  induction reached with
  | create => exact absurd rfl started
  | @enter _ search _ point reached entry ih =>
    rcases enter_eq entry with ⟨started, rfl⟩ | ⟨-, clear, rfl⟩
    · exact ih started
    · rw [← reached.options]
      exact ((search.options.obstacle?_eq_none_iff n point).mp clear).2.2.2
  | iterate _ _ due _ ih => exact ih (started_of_phase due (by simp))
  | reduce _ due ih => exact ih (started_of_phase due (by simp))
  | exhaust _ due _ ih => exact ih (started_of_phase due (by simp))
  | answer _ _ _ due _ ih => exact ih (started_of_phase due (by simp))
  | halt _ _ due _ ih => exact ih (started_of_phase due (by simp))
  | fail _ _ _ _ due _ ih => exact ih (started_of_phase due (by simp))
  | reset => exact absurd rfl started

end Watched

/-! ## Reports -/

section Reports

variable {α σ : Type} [EuclideanField α] {n u b : Nat} {options : Options α} {box : Box α n}
  {record : Record α n u} {search : Search α n u b}

/-- The pole has been asked about, and the values that are shown have been the answer. -/
theorem Reached.reported (sized : box.boundCount = b)
    (reached : Reached options box record search) (opens : OpensWell n record)
    (informed : Informed record) :
    ∃ inquiry ∈ record, inquiry.point = search.simplex.pole ∧
      inquiry.answer = .ok search.objective ∧
      GreatestViolation (inquiry.constraints.toList ++ box.residuals search.simplex.pole)
        search.violation := by
  subst sized
  obtain ⟨inquiry, asked, explains⟩ := reached.anchored opens informed
  refine ⟨inquiry, asked, explains.point, explains.objective, ?_⟩
  have greatest := greatestViolation_worstViolation search.simplex.poleSample.constraints
  have violation : search.violation =
      Sample.worstViolation search.simplex.poleSample.constraints := explains.violation
  have constraints : search.simplex.poleSample.constraints.toList =
      inquiry.constraints.toList ++ box.residuals search.simplex.pole := explains.constraints
  rwa [violation, ← constraints]

/-- A search does not end before it has asked anything. -/
theorem Reached.size_pos (reached : Reached options box record search) {status : Status}
    (ended : search.phase = .done status) : 0 < record.size := by
  induction reached with
  | create => cases ended
  | enter _ _ entry ih =>
    rcases enter_eq entry with ⟨-, rfl⟩ | ⟨-, -, rfl⟩
    · exact ih ended
    · exact absurd ended ((startAt_underway ..).2 status)
  | iterate _ reached due =>
    have ready := reached.sound.ready
    simp only [Ready, due] at ready
    rw [reached.size_record]
    exact Nat.zero_lt_of_lt ready.2
  | reduce reached due =>
    have ready := reached.sound.ready
    simp only [Ready, due] at ready
    rw [reached.size_record]
    exact Nat.zero_lt_of_lt ready.2
  | @exhaust _ search _ reached due spent =>
    have provided := reached.provided (started_of_phase due (by simp))
    have limit := reached.frugal.limit
    rw [reached.size_record, evaluations]
    omega
  | answer | halt | fail => simp
  | reset => cases ended

/-- The questions of a run that has ended have found values, unless the first one has been
answered with a halt. -/
theorem RunEnded.informed_iff {step : Step α n u b} (ended : RunEnded options box step record) :
    Informed record ↔ ∀ first, record[0]? = some first → first.answer ≠ .error .halt := by
  obtain ⟨status, phase⟩ := ended.phase
  have inside := ended.reached.size_pos phase
  have found : record[0]? = some record[0] := Array.getElem?_eq_getElem inside
  rcases ended.halted.first found with ⟨objective, known⟩ | ⟨halt, only⟩
  · constructor
    · intro _ first same failed
      obtain rfl := Option.some.inj (found.symm.trans same)
      rw [known] at failed
      cases failed
    · exact fun _ => ⟨record[0], Array.getElem_mem inside, objective, known⟩
  · constructor
    · rintro ⟨inquiry, asked, objective, known⟩
      rw [only, Array.mem_singleton] at asked
      rw [asked, halt] at known
      cases known
    · exact fun first => absurd halt (first record[0] found)

/-- **A minimization reports what it has found.**  If there is a report, then its number of
evaluations is the number of questions.  Unless the oracle has wanted the search to stop at the
first question, one of the questions has been asked about the final point; it has been answered
with the objective in the report, and with constraints whose greatest violation is the one in
the report.  After a halt at the first question there is no such question. -/
theorem minimize_reports (fuel n m : Nat) (x : Array α) (parameters : Parameters α)
    (oracle : Oracle (StateM σ) α n m) (state : σ) {report : Report α}
    (returned : ((minimize fuel n m x parameters oracle.watched).run (state, #[])).1.result =
      .ok report) :
    let ended := (minimize fuel n m x parameters oracle.watched).run (state, #[])
    report.evaluations = ended.2.2.size ∧
      ((∃ inquiry ∈ ended.2.2, inquiry.point.toArray = ended.1.point ∧
          inquiry.answer = .ok report.objective ∧
          GreatestViolation inquiry.constraints.toList report.violation) ↔
        ∀ first, ended.2.2[0]? = some first → first.answer ≠ .error .halt) := by
  intro ended
  obtain ⟨positive, step, ⟨later, record⟩, status, sized, run, result, made, shown⟩ :=
    run_minimize returned
  have final := runFor_ended oracle _ .create (fun _ none => absurd none (Array.not_mem_empty _))
    sized state run result
  obtain ⟨status, phase⟩ := final.phase
  have best : step.search.best = step.search.simplex.pole := final.reached.published status phase
  simp only [ended, made, shown, ← final.informed_iff]
  refine ⟨final.reached.size_record.symm, fun ⟨inquiry, asked, _, known, _⟩ =>
    ⟨inquiry, asked, _, known⟩, fun informed => ?_⟩
  obtain ⟨inquiry, asked, point, known, greatest⟩ := final.reached.reported
    (Box.boundCount_unbounded positive) (opensWell_of_clean final.halted.clean) informed
  refine ⟨inquiry, asked, ?_, known, ?_⟩
  · rw [final.point, point, best]
  · rwa [Box.residuals_unbounded, List.append_nil] at greatest

end Reports

/-! ## Reports on the line -/

/-- The parameters of the options on the line. -/
noncomputable def lineParameters : Parameters ℝ where
  radiusBegin := lineOptions.radiusBegin
  radiusEnd := lineOptions.radiusEnd
  maxEvaluations := 1000
  printLevel := 0
  strict := false

/-- The oracle of a function on the line, with a state that does not matter. -/
noncomputable def lineClosure (function : ℝ → Except EvalError ℝ) : Oracle (StateM Unit) ℝ 1 0 :=
  fun x constraints state => (lineOracle function x constraints, state)

/-- A call on the line comes to the same if its oracle has a state. -/
theorem run_next_lineClosure (function : ℝ → Except EvalError ℝ) (search : Search ℝ 1 0 0)
    (point : Array ℝ) {record after : Record ℝ 1 0} {step : Step ℝ 1 0 0}
    (called : (search.next 2 (lineOracle function).recorded realLine point).run record =
      (step, after)) :
    (search.next 2 (lineClosure function).watched realLine point).run ((), record) =
      (step, (), after) := by
  obtain ⟨later, next⟩ :=
    run_next_watched (lineClosure function) realLine search 2 point () record
  have same : (lineClosure function).frozen () = lineOracle function := rfl
  rw [next, same, called]

theorem ask_halted_on_line {function : ℝ → Except EvalError ℝ} {search : Search ℝ 1 0 0}
    {pending : Pending ℝ 1} {point : Array ℝ} {record : Record ℝ 1 0}
    (allowed : search.evaluator.evaluations < search.evaluator.limit) (sized : point.size = 1)
    (halts : function (search.point.get 0) = .error .halt) :
    (search.ask (lineOracle function).recorded realLine pending point).run record =
      (⟨search.halted #v[], (search.halted #v[]).best.toArray, .ok (some .exhausted)⟩,
        record.push ⟨search.point, #v[], .error .halt⟩) := by
  have answered := lineOracle_eq halts search.evaluator.buffer
  rw [run_ask, if_neg (Nat.not_le_of_lt allowed)]
  simp only [Oracle.inquire, answered, asked, handOut_sized sized]

/-- **A halt at the first question is reported with values that nobody has found.**  The report
says that the objective is zero at the final point. -/
theorem unfounded_on_line :
    let oracle : Oracle (StateM Unit) ℝ 1 0 := lineClosure fun _ => .error .halt
    let ended := (minimize 2 1 0 #[0] lineParameters oracle.watched).run ((), #[])
    ended.1.point = #[0] ∧ ended.1.result = .ok ⟨.exhausted, 0, 0, 1⟩ ∧
      ¬ ∃ inquiry ∈ ended.2.2, inquiry.point.toArray = ended.1.point ∧
        inquiry.answer = .ok 0 ∧ GreatestViolation inquiry.constraints.toList 0 := by
  intro oracle ended
  have due : lineStart.phase = .evaluate (.vertex .pole) := rfl
  have called : ((create 1 0 0 lineOptions).next 2
      (lineOracle fun _ => .error .halt).recorded realLine #[0]).run #[] =
        (⟨lineStart.halted #v[], #[0], .ok (some .exhausted)⟩,
          #[].push ⟨#v[0], #v[], .error .halt⟩) := by
    rw [next_enter enter_line, next_evaluate due, ask_halted_on_line (by decide) rfl rfl]
    rfl
  have run : ((create 1 0 0 lineParameters.options).run 2 oracle.watched
      (Box.unbounded 1 one_pos) #[0]).run ((), #[]) =
        (⟨lineStart.halted #v[], #[0], .ok (some .exhausted)⟩, (),
          #[].push ⟨#v[0], #v[], .error .halt⟩) :=
    run_runFor_of_next oracle.watched realLine 1001 (run_next_lineClosure _ _ _ called)
  have made := run_minimize_of_run one_pos rfl run
  simp only [ended, made]
  refine ⟨rfl, rfl, ?_⟩
  rintro ⟨inquiry, asked, -, known, -⟩
  obtain rfl : inquiry = ⟨#v[0], #v[], .error .halt⟩ := by simpa using asked
  cases known

/-- A function on the line that halts beyond one half. -/
noncomputable def lineHalt (x : ℝ) : Except EvalError ℝ :=
  if x ≤ 0.5 then .ok 1 else .error .halt

/-- A halt at the second question leaves the value of the first one. -/
theorem minimize_reports_on_line :
    let ended := (minimize 2 1 0 #[0] lineParameters (lineClosure lineHalt).watched).run ((), #[])
    ended.1.result = .ok ⟨.exhausted, 1, 0, 2⟩ ∧ ended.2.2.size = 2 ∧
      ∃ inquiry ∈ ended.2.2, inquiry.point.toArray = ended.1.point ∧
        inquiry.answer = .ok 1 ∧ GreatestViolation inquiry.constraints.toList 0 := by
  intro ended
  have first := next_create_on_line lineHalt (if_pos (by norm_num))
  have waits : lineOpened.phase = .evaluate (.vertex (.edge 0)) := rfl
  have second : (lineOpened.next 2 (lineOracle lineHalt).recorded realLine #[0]).run
      #[⟨#v[0], #v[], .ok 1⟩] =
        (⟨lineOpened.halted #v[], #[0], .ok (some .exhausted)⟩,
          #[⟨#v[0], #v[], .ok 1⟩, ⟨lineOpened.point, #v[], .error .halt⟩]) := by
    rw [next_evaluate waits, ask_halted_on_line (by decide) rfl ?halts]
    case halts =>
      rw [point_lineOpened]
      exact if_neg (by norm_num [get_eq_getElem])
    rfl
  have run : ((create 1 0 0 lineParameters.options).run 2 (lineClosure lineHalt).watched
      (Box.unbounded 1 one_pos) #[0]).run ((), #[]) =
        (⟨lineOpened.halted #v[], #[0], .ok (some .exhausted)⟩, (),
          #[⟨#v[0], #v[], .ok 1⟩, ⟨lineOpened.point, #v[], .error .halt⟩]) :=
    (run_runFor_of_next _ realLine 1001 (run_next_lineClosure _ _ _ first)).trans
      (run_runFor_of_next _ realLine 1000 (run_next_lineClosure _ _ _ second))
  have made := run_minimize_of_run one_pos rfl run
  have result : ended.1.result = .ok ⟨.exhausted, 1, 0, 2⟩ := by
    simp only [ended, made]
    change Except.ok (Report.mk Status.exhausted
      (lineStart.informed realLine #v[] 1).evaluator.sample.objective
      (lineStart.informed realLine #v[] 1).evaluator.sample.violation 2) = _
    rw [informed_on_line]
  obtain ⟨count, found⟩ := minimize_reports 2 1 0 #[0] lineParameters (lineClosure lineHalt) ()
    result
  refine ⟨result, count.symm, found.mpr fun first known halt => ?_⟩
  simp only [made] at known
  obtain rfl : ⟨#v[0], #v[], .ok 1⟩ = first := by simpa using known
  cases halt

end Search

end DerivativeFree
