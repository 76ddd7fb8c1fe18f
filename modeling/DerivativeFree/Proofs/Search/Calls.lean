import DerivativeFree.Proofs.Search.Inverse
import DerivativeFree.Proofs.Search.Turns

/-!
# The budget of a search

A caller makes one call after the other since the search was created or last reset, each
with an oracle and a point of its own (`Calls`).  The questions are counted, there is at most
one in a call, and there are never more than the options allow.  A search that has ended
stays as it is.  So a search that neither ends nor fails would ask a question in each call,
and there cannot be more calls than questions (`Calls.budget`).
-/

namespace DerivativeFree.Search

set_option autoImplicit false

variable {α : Type} [Scalar α] {n u b : Nat} {fuel : Nat} {options : Options α} {box : Box α n}
  {record after : Record α n u} {search next settled : Search α n u b} {point : Array α}
  {oracle : Oracle Id α n u} {step : Step α n u b}

/-! ## The count of the questions -/

/-- The search has ended because it may not ask any more questions. -/
def Exhausted (search : Search α n u b) : Prop :=
  search.phase = .done .exhausted

/-- The questions are within the limit, and a search is exhausted only when they have
reached it or the oracle wanted it to stop. -/
structure Frugal (options : Options α) (record : Record α n u) (search : Search α n u b) :
    Prop where
  limit : search.evaluator.limit = options.maxEvaluations
  within : search.evaluator.evaluations ≤ search.evaluator.limit
  reason : search.Exhausted → search.evaluator.limit ≤ search.evaluator.evaluations ∨
    ∃ inquiry ∈ record, inquiry.answer = .error .halt

theorem Alike.not_exhausted {other : Search α n u b} (alike : search.Alike other)
    (further : ¬ other.Exhausted) : ¬ search.Exhausted := by
  obtain ⟨journal, rfl⟩ := alike
  exact further

theorem Turned.not_exhausted (turned : Turned fuel search next) : ¬ next.Exhausted := by
  cases turned.left with
  | further underway => exact underway.2 .exhausted
  | ended due own =>
    rw [Exhausted, due]
    exact fun same => own (Phase.done.inj same)

/-- The questions of a search that is not exhausted are the ones of its evaluator. -/
theorem Frugal.later (frugal : Frugal options record search)
    (same : next.evaluator = search.evaluator) (further : ¬ next.Exhausted) :
    Frugal options record next where
  limit := same ▸ frugal.limit
  within := same ▸ frugal.within
  reason ended := absurd ended further

theorem Reached.frugal (reached : Reached options box record search) :
    Frugal options record search := by
  induction reached with
  | create => exact ⟨rfl, Nat.zero_le _, fun ended => by cases ended⟩
  | @enter _ search _ point _ entry ih =>
    rcases enter_eq entry with ⟨-, rfl⟩ | ⟨-, -, rfl⟩
    · exact ih
    · have alike := search.alike_startAt (Vector.ofFn fun i => point[i.val]?.getD 0)
      exact ih.later alike.evaluator (alike.not_exhausted (by simp [Exhausted]))
  | iterate fuel _ due found ih =>
    have turned : Turned fuel _ _ := .iterate due found
    exact ih.later turned.evaluator turned.not_exhausted
  | reduce _ due ih =>
    have turned : Turned 0 _ _ := .reduce due
    exact ih.later turned.evaluator turned.not_exhausted
  | @exhaust _ search _ _ _ spent ih =>
    have kept := (search.alike_finish .exhausted).evaluator
    exact ⟨kept ▸ ih.limit, kept ▸ ih.within, fun _ => .inl (kept ▸ spent)⟩
  | @answer _ search pending constraints objective _ _ allowed ih =>
    have kept := (search.informed box constraints objective).answer_evaluator pending
    exact ⟨kept ▸ ih.limit, kept ▸ allowed, fun ended =>
      absurd ended ((answer_underway _ _).2 _)⟩
  | @halt _ search _ constraints _ _ allowed ih =>
    have kept := (search.alike_halted constraints).evaluator
    exact ⟨kept ▸ ih.limit, kept ▸ allowed, fun _ => .inr ⟨_, Array.mem_push_self, rfl⟩⟩
  | @fail _ search _ constraints _ _ _ due allowed ih =>
    refine ⟨ih.limit, allowed, fun ended => ?_⟩
    rw [Exhausted, counted, due] at ended
    cases ended
  | reset _ ih => exact ⟨ih.limit, Nat.zero_le _, fun ended => by cases ended⟩

/-! ## Searches that have ended -/

theorem Settles.of_rest (started : search.Started)
    (rests : search.phase ≠ .iterate ∧ search.phase ≠ .reduce)
    (settles : search.Settles fuel point settled) : settled = search := by
  obtain ⟨entered, entry, found⟩ := settles
  rw [started.enter] at entry
  cases entry
  cases fuel with
  | zero => cases found
  | succ fuel =>
    rw [settle_of_rest rests] at found
    exact (Option.some.inj found).symm

theorem Settles.of_done {status : Status} (ended : search.phase = .done status)
    (settles : search.Settles fuel point settled) : settled = search :=
  settles.of_rest (started_of_phase ended (by simp)) (by simp [ended])

/-- **A search that has ended stays as it is**, and gives its status and its best point again. -/
theorem Called.of_done {status : Status} (ended : search.phase = .done status)
    (called : Called fuel oracle box search point record step after) :
    step = ⟨search, search.best.toArray, .ok (some status)⟩ ∧ after = record := by
  have started := started_of_phase ended (by simp)
  cases called with
  | refused entry =>
    rw [started.enter] at entry
    cases entry
  | closed settles due =>
    obtain rfl := settles.of_done ended
    rw [ended] at due
    cases due
    exact ⟨rfl, rfl⟩
  | spent settles due =>
    obtain rfl := settles.of_done ended
    rw [ended] at due
    cases due
  | asked settles due =>
    obtain rfl := settles.of_done ended
    rw [ended] at due
    cases due

/-! ## The questions of a call -/

theorem Settles.evaluator (settles : search.Settles fuel point settled) :
    settled.evaluator = search.evaluator := by
  obtain ⟨entered, entry, found⟩ := settles
  rw [settle_evaluator found]
  rcases enter_eq entry with ⟨-, rfl⟩ | ⟨-, -, rfl⟩
  · rfl
  · exact (alike_startAt ..).evaluator

/-- A search that goes on has counted one question, and hands out a point. -/
theorem Called.counted (called : Called fuel oracle box search point record step after)
    (sized : point.size = n) (further : step.result = .ok none) :
    step.search.evaluator.evaluations = search.evaluator.evaluations + 1 ∧
      step.search.evaluator.limit = search.evaluator.limit ∧ step.point.size = n := by
  cases called with
  | refused | closed | spent => cases further
  | @asked settled pending inquiry settles =>
    simp only [Search.asked] at further ⊢
    split at further
    case h_1 objective answered =>
      rw [handOut_sized sized]
      have kept := answer_evaluator (settled.informed box inquiry.constraints objective) pending
      rw [kept, ← settles.evaluator]
      exact ⟨rfl, rfl, Vector.size_toArray _⟩
    case h_2 => cases result_handOut_none further
    case h_3 => cases further

theorem Called.questions (called : Called fuel oracle box search point record step after) :
    after = record ∨ ∃ inquiry, after = record.push inquiry := by
  cases called with
  | refused | closed | spent => exact .inl rfl
  | asked => exact .inr ⟨_, rfl⟩

/-- A search that goes on has been given values. -/
theorem Called.found (called : Called fuel oracle box search point record step after)
    (further : step.result = .ok none) :
    ∃ inquiry, after = record.push inquiry ∧ ∃ objective, inquiry.answer = .ok objective := by
  cases called with
  | refused | closed | spent => cases further
  | @asked settled pending inquiry =>
    refine ⟨inquiry, rfl, ?_⟩
    simp only [Search.asked] at further
    split at further
    case h_1 objective answered => exact ⟨objective, answered⟩
    case h_2 => cases result_handOut_none further
    case h_3 => cases further

/-- A step with a status has ended the search. -/
theorem Called.ended {status : Status}
    (called : Called fuel oracle box search point record step after)
    (result : step.result = .ok (some status)) (sized : point.size = n) :
    step.search.phase = .done status ∧ step.point = step.search.best.toArray := by
  cases called with
  | refused => cases result
  | closed settles due =>
    cases result
    exact ⟨due, rfl⟩
  | spent =>
    cases result
    exact ⟨(alike_finish ..).phase, rfl⟩
  | @asked settled pending inquiry =>
    simp only [Search.asked] at result ⊢
    split at result
    case h_1 => cases (result_handOut result).1
    case h_2 =>
      rw [handOut_sized sized] at result ⊢
      cases result
      exact ⟨(alike_halted ..).phase, rfl⟩
    case h_3 => cases result

/-! ## Sequences of calls -/

/-- The steps that the calls since the search was created or last reset have led to, the
latest one first, with the questions that were asked. -/
inductive Calls (options : Options α) (box : Box α n) :
    List (Step α n u b) → Record α n u → Search α n u b → Prop
  /-- The search has been created. -/
  | create : Calls options box [] #[] (create n u b options)
  /-- The search has been reset. -/
  | reset {record : Record α n u} {search : Search α n u b}
      (reached : Reached options box record search) : Calls options box [] #[] search.reset
  /-- Another call. -/
  | call {steps : List (Step α n u b)} {record after : Record α n u} {search : Search α n u b}
      {step : Step α n u b} (calls : Calls options box steps record search) (fuel : Nat)
      (oracle : Oracle Id α n u) (point : Array α) (sized : point.size = n)
      (called : (search.next fuel oracle.recorded box point).run record = (step, after))
      (returned : step.result ≠ .error .outOfFuel) :
      Calls options box (step :: steps) after step.search

namespace Calls

variable {steps : List (Step α n u b)}

theorem reached (calls : Calls options box steps record search) :
    Reached options box record search := by
  induction calls with
  | create => exact .create
  | reset reached => exact reached.reset
  | call _ fuel oracle point _ called _ ih =>
    have next := ih.next fuel oracle point
    rwa [called] at next

/-- A status stays. -/
theorem ended (calls : Calls options box steps record search) {earlier : Step α n u b}
    (among : earlier ∈ steps) {status : Status} (result : earlier.result = .ok (some status)) :
    search.phase = .done status ∧ search.best = earlier.search.best ∧
      earlier.point = earlier.search.best.toArray := by
  induction calls with
  | create | reset => cases among
  | call _ fuel oracle point sized called returned ih =>
    have outcome := next_called sized called returned
    rcases List.mem_cons.mp among with rfl | before
    · obtain ⟨due, point⟩ := outcome.ended result sized
      exact ⟨due, rfl, point⟩
    · obtain ⟨due, best, point⟩ := ih before
      obtain ⟨rfl, -⟩ := outcome.of_done due
      exact ⟨due, best, point⟩

/-- As long as the search goes on, there is a question for each call. -/
theorem length_eq (calls : Calls options box steps record search)
    (further : ∀ step ∈ steps, step.result = .ok none) : steps.length = record.size := by
  induction calls with
  | create | reset => rfl
  | call _ fuel oracle point sized called returned ih =>
    obtain ⟨inquiry, rfl, -⟩ :=
      (next_called sized called returned).found (further _ List.mem_cons_self)
    rw [List.length_cons, Array.size_push,
      ih fun step among => further step (List.mem_cons_of_mem _ among)]

/-- **The budget of a search.**  In a sequence of calls, the evaluations are the questions to
the oracle.  A call asks at most one, and one that goes on has been given values.  There are
no more questions than the options allow, and the search is exhausted only if they have
reached this number or the oracle wanted it to stop.  A search that has ended gives the same
status and the same point in each further call, without a question.  So a call with the
number after the last allowed question, if not an earlier one, ends or fails. -/
theorem budget (calls : Calls options box steps record search) (fuel : Nat)
    (oracle : Oracle Id α n u) (sized : point.size = n)
    (called : (search.next fuel oracle.recorded box point).run record = (step, after))
    (returned : step.result ≠ .error .outOfFuel) :
    (search.evaluations = record.size ∧ step.search.evaluations = after.size) ∧
      (after = record ∨ ∃ inquiry, after = record.push inquiry) ∧
      (step.result = .ok none → ∃ inquiry, after = record.push inquiry ∧
        ∃ objective, inquiry.answer = .ok objective) ∧
      after.size ≤ options.maxEvaluations ∧
      (step.result = .ok (some .exhausted) → after.size = options.maxEvaluations ∨
        ∃ inquiry ∈ after, inquiry.answer = .error .halt) ∧
      (∀ earlier ∈ steps, ∀ status, earlier.result = .ok (some status) →
        step.result = .ok (some status) ∧ step.point = earlier.point ∧
          step.search.best = earlier.search.best ∧ after = record) ∧
      (options.maxEvaluations ≤ steps.length →
        ∃ made ∈ step :: steps, made.result ≠ .ok none) := by
  have outcome := next_called sized called returned
  have longer := calls.call fuel oracle point sized called returned
  have frugal := longer.reached.frugal
  have size : after.size = step.search.evaluations := longer.reached.size_record
  have within : after.size ≤ options.maxEvaluations := by
    rw [size, ← frugal.limit]
    exact frugal.within
  refine ⟨⟨calls.reached.size_record.symm, size.symm⟩, outcome.questions, outcome.found, within,
    ?exhausted, ?ended, ?late⟩
  case exhausted =>
    intro result
    refine (frugal.reason (outcome.ended result sized).1).imp_left fun spent => ?_
    rw [frugal.limit] at spent
    exact le_antisymm within (size ▸ spent)
  case ended =>
    intro earlier among status result
    obtain ⟨due, best, point⟩ := calls.ended among result
    obtain ⟨rfl, same⟩ := outcome.of_done due
    exact ⟨rfl, by rw [point, best], best, same⟩
  case late =>
    intro late
    by_contra all
    have further : ∀ made ∈ step :: steps, made.result = .ok none := by
      intro made among
      by_contra other
      exact all ⟨made, among, other⟩
    have length := longer.length_eq further
    rw [List.length_cons] at length
    omega

end Calls

/-! ## Calls on the line -/

/-- Options that allow no more evaluations than the initial simplex of a search on the line has
vertices. -/
def scantOptions : Options Float where
  radiusBegin := 1
  radiusEnd := 0.5
  maxEvaluations := 2

/-- The line in double precision, without bounds. -/
def scantLine : Box Float 1 :=
  Box.unbounded 1 Nat.one_pos

/-- The objective is the variable itself. -/
def scantOracle : Oracle Id Float 1 0 :=
  fun x constraints => (constraints, .ok (x.get (Fin.last 0)))

/-- The last step and the record of a number of calls. -/
def scantRun : Nat → Step Float 1 0 0 × Record Float 1 0
  | 0 => (⟨create 1 0 0 scantOptions, #[0], .ok none⟩, #[])
  | calls + 1 =>
    ((scantRun calls).1.search.next 9 scantOracle.recorded scantLine (scantRun calls).1.point).run
      (scantRun calls).2

theorem calls_scantRun {steps : List (Step Float 1 0 0)} {k : Nat}
    (calls : Calls scantOptions scantLine steps (scantRun k).2 (scantRun k).1.search)
    (sized : (scantRun k).1.point.size = 1) {status : Option Status}
    (result : (scantRun (k + 1)).1.result = .ok status) :
    Calls scantOptions scantLine ((scantRun (k + 1)).1 :: steps) (scantRun (k + 1)).2
      (scantRun (k + 1)).1.search := by
  have returned : (scantRun (k + 1)).1.result ≠ .error .outOfFuel := by simp [result]
  exact calls.call 9 scantOracle (scantRun k).1.point sized rfl returned

/-- Two calls ask for the values at the vertices, for a third one there is no evaluation left, and
a fourth one gives its status and its point again. -/
theorem budget_on_line :
    Calls scantOptions scantLine [(scantRun 3).1, (scantRun 2).1, (scantRun 1).1] (scantRun 3).2
        (scantRun 3).1.search ∧
      ((scantRun 2).1.result = .ok none ∧ ∃ inquiry, (scantRun 2).2 =
        (scantRun 1).2.push inquiry ∧ ∃ objective, inquiry.answer = .ok objective) ∧
      ((scantRun 3).1.result = .ok (some .exhausted) ∧
        (scantRun 3).2.size = scantOptions.maxEvaluations) ∧
      ((scantRun 4).1.result = .ok (some .exhausted) ∧
        (scantRun 4).1.point = (scantRun 3).1.point ∧ (scantRun 4).2 = (scantRun 3).2) ∧
      (scantRun 4).1.search.evaluations = scantOptions.maxEvaluations := by
  have sized : ∀ k < 4, (scantRun k).1.point.size = 1 := by decide +kernel
  have first : (scantRun 1).1.result = .ok none := result_of_toOption (by decide +kernel)
  have second : (scantRun 2).1.result = .ok none := result_of_toOption (by decide +kernel)
  have third : (scantRun 3).1.result = .ok (some .exhausted) :=
    result_of_toOption (by decide +kernel)
  have onwards : (scantRun 2).1.result ≠ .error .outOfFuel := by simp [second]
  have fourth : (scantRun 4).1.result ≠ .error .outOfFuel := by
    have found : (scantRun 4).1.result.toOption.isSome := by decide +kernel
    intro failed
    rw [failed] at found
    cases found
  have full : (scantRun 3).2.size = 2 := by decide +kernel
  have one : Calls scantOptions scantLine [(scantRun 1).1] (scantRun 1).2 (scantRun 1).1.search :=
    calls_scantRun .create (sized 0 (by decide)) first
  have two := calls_scantRun one (sized 1 (by decide)) second
  have three := calls_scantRun two (sized 2 (by decide)) third
  obtain ⟨-, -, found, -⟩ := one.budget 9 scantOracle (sized 1 (by decide)) rfl onwards
  obtain ⟨⟨-, counted⟩, -, -, -, -, repeats, -⟩ :=
    three.budget 9 scantOracle (sized 3 (by decide)) rfl fourth
  obtain ⟨again, point, -, same⟩ := repeats _ List.mem_cons_self .exhausted third
  exact ⟨three, ⟨second, found second⟩, ⟨third, full⟩, ⟨again, point, same⟩,
    counted.trans ((congrArg Array.size same).trans full)⟩

end DerivativeFree.Search
