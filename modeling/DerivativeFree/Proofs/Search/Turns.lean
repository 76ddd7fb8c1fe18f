import DerivativeFree.Proofs.Search.Moves

/-!
# Turns and calls

A turn of the loop between two questions lets the search go on, or ends it with its pole
published (`Turned.left`).  The loop ends before the next question or with a status
(`settle_outcome`).

`Called` describes a call as a whole.  The search cannot be started at the given point, or
it settles; then it has ended, its evaluations are used up, or it asks one question.  A call
that does not run out of fuel has no other outcome (`next_called`).  A run goes on after a
question that is answered with values, and stops after one that fails.
-/

namespace DerivativeFree.Search

set_option autoImplicit false

variable {α : Type} [Scalar α] {n u b : Nat} {fuel turns : Nat}
  {search other next settled : Search α n u b}

/-! ## Searches that have started -/

/-- The search has begun, and nothing but a reset makes it begin again. -/
def Started (search : Search α n u b) : Prop :=
  search.phase ≠ .start

theorem started_of_phase {phase : Phase α n} (due : search.phase = phase)
    (begun : phase ≠ .start) : search.Started := by
  rw [Started, due]
  exact begun

theorem Alike.started (alike : search.Alike other) (started : other.Started) :
    search.Started := by
  obtain ⟨journal, rfl⟩ := alike
  exact started

/-- The search has begun and has not ended. -/
def Underway (search : Search α n u b) : Prop :=
  search.Started ∧ ∀ status, search.phase ≠ .done status

theorem Alike.underway (alike : search.Alike other) (underway : other.Underway) :
    search.Underway := by
  obtain ⟨journal, rfl⟩ := alike
  exact underway

theorem startAt_underway (search : Search α n u b) (x : Vector α n) :
    (search.startAt x).Underway :=
  (alike_startAt ..).underway ⟨nofun, nofun⟩

/-! ## Turns -/

/-- What a turn leaves. -/
inductive Turned.Left (search : Search α n u b) (next : Search α n u b) : Prop
  /-- The search goes on, and nothing has been published. -/
  | further (underway : next.Underway) (best : next.best = search.best)
  /-- The search has ended by itself, and its pole has been published. -/
  | ended {status : Status} (due : next.phase = .done status) (own : status ≠ .exhausted)
      (best : next.best = next.simplex.pole)

/-- **A turn goes on or ends the search.** -/
theorem Turned.left (turned : Turned fuel search next) : Turned.Left search next := by
  have goes : ∀ {other : Search α n u b}, next.Alike other → other.Underway →
      other.best = search.best → Turned.Left search next := by
    rintro other ⟨journal, rfl⟩ underway best
    exact .further underway best
  have ends : ∀ {other : Search α n u b} {status : Status}, next.Alike other →
      other.phase = .done status → status ≠ .exhausted → other.best = other.simplex.pole →
      Turned.Left search next := by
    rintro other status ⟨journal, rfl⟩ due own best
    exact .ended due own best
  cases turned with
  | iterate _ found =>
    cases iterate_outcome found with
    | spoilt _ _ alike => exact ends alike rfl (by simp) rfl
    | move _ alike => exact goes alike ⟨nofun, nofun⟩ rfl
    | short _ _ _ alike => exact goes alike ⟨nofun, nofun⟩ rfl
    | weigh _ _ _ weighed =>
      cases weighed with
      | trial _ alike => exact goes alike ⟨nofun, nofun⟩ rfl
      | raised _ _ alike => exact goes alike ⟨nofun, nofun⟩ rfl
      | dethroned _ _ alike => exact goes alike ⟨nofun, nofun⟩ rfl
  | reduce =>
    cases search.reduce_outcome with
    | spared _ alike => exact goes alike ⟨nofun, nofun⟩ rfl
    | converged _ _ alike => exact ends alike rfl (by simp) rfl
    | shrunk _ _ alike => exact goes alike ⟨nofun, nofun⟩ rfl

theorem Turned.started (turned : Turned fuel search next) : next.Started := by
  cases turned.left with
  | further underway => exact underway.1
  | ended due => exact started_of_phase due (by simp)

theorem Turned.options (turned : Turned fuel search next) : next.options = search.options := by
  cases turned with
  | iterate _ found => exact iterate_options found
  | reduce => exact reduce_options search

theorem Turned.evaluator (turned : Turned fuel search next) :
    next.evaluator = search.evaluator := by
  cases turned with
  | iterate _ found => exact iterate_evaluator found
  | reduce => exact reduce_evaluator search

/-! ## Answers -/

/-- Values never end a search. -/
theorem answer_underway (search : Search α n u b) (pending : Pending α n) :
    (search.answer pending).Underway := by
  cases pending with
  | vertex vertex =>
    cases answer_vertex_outcome search vertex with
    | vertex _ _ alike => exact alike.underway ⟨nofun, nofun⟩
    | complete _ alike => exact alike.underway ⟨nofun, nofun⟩
  | trial plan =>
    cases answer_trial_outcome search plan with
    | dropped _ alike => exact alike.underway ⟨nofun, nofun⟩
    | taken _ alike =>
      refine alike.underway ?_
      simp only [Underway, Started]
      split <;> exact ⟨nofun, nofun⟩

/-! ## The loop -/

theorem Started.settle (started : search.Started)
    (found : search.settle fuel turns = some settled) : settled.Started :=
  settle_keeps (fun turned _ => turned.started) started found

theorem settle_options (found : search.settle fuel turns = some settled) :
    settled.options = search.options :=
  settle_keeps (fun turned same => turned.options.trans same) rfl found

theorem settle_evaluator (found : search.settle fuel turns = some settled) :
    settled.evaluator = search.evaluator :=
  settle_keeps (fun turned same => turned.evaluator.trans same) rfl found

theorem Started.enter (started : search.Started) (point : Array α) :
    search.enter point = .ok search := by
  unfold Search.enter
  split
  case h_1 fresh => exact absurd fresh started
  all_goals rfl

theorem started_enter {entered : Search α n u b} {point : Array α}
    (entry : search.enter point = .ok entered) : entered.Started := by
  rcases enter_eq entry with ⟨started, rfl⟩ | ⟨-, -, rfl⟩
  · exact started
  · exact (startAt_underway ..).1

/-- The loop ends before a question or with a status. -/
theorem settle_outcome (started : search.Started)
    (found : search.settle fuel turns = some settled) :
    (∃ pending, settled.phase = .evaluate pending) ∨ ∃ status, settled.phase = .done status := by
  have rests := settle_rests found
  cases due : settled.phase with
  | start => exact absurd due (started.settle found)
  | iterate => exact absurd due rests.1
  | reduce => exact absurd due rests.2
  | evaluate pending => exact .inl ⟨pending, rfl⟩
  | done status => exact .inr ⟨status, rfl⟩

/-! ## Calls -/

/-- The search is started at the point if this is due, and comes to rest. -/
def Settles (fuel : Nat) (search : Search α n u b) (point : Array α)
    (settled : Search α n u b) : Prop :=
  ∃ entered, search.enter point = .ok entered ∧ entered.settle fuel fuel = some settled

/-- The outcomes of a call: the step, and the record of the questions afterwards. -/
inductive Called (fuel : Nat) (oracle : Oracle Id α n u) (box : Box α n)
    (search : Search α n u b) (point : Array α) (record : Record α n u) :
    Step α n u b → Record α n u → Prop
  /-- The search cannot be started at the point. -/
  | refused {failure : Failure} (entry : search.enter point = .error failure) :
      Called fuel oracle box search point record ⟨search, point, .error failure⟩ record
  /-- The search has ended. -/
  | closed {settled : Search α n u b} {status : Status}
      (settles : search.Settles fuel point settled) (due : settled.phase = .done status) :
      Called fuel oracle box search point record
        ⟨settled, settled.best.toArray, .ok (some status)⟩ record
  /-- The evaluations are used up. -/
  | spent {settled : Search α n u b} {pending : Pending α n}
      (settles : search.Settles fuel point settled) (due : settled.phase = .evaluate pending)
      (spent : settled.evaluator.limit ≤ settled.evaluator.evaluations) :
      Called fuel oracle box search point record
        ⟨settled.finish .exhausted, (settled.finish .exhausted).best.toArray,
          .ok (some .exhausted)⟩ record
  /-- A question is asked. -/
  | asked {settled : Search α n u b} {pending : Pending α n} {inquiry : Inquiry α n u}
      (settles : search.Settles fuel point settled) (due : settled.phase = .evaluate pending)
      (allowed : settled.evaluator.evaluations < settled.evaluator.limit)
      (inquired : oracle.inquire settled.point settled.evaluator.buffer = inquiry) :
      Called fuel oracle box search point record (settled.asked box pending point inquiry)
        (record.push inquiry)

variable {oracle : Oracle Id α n u} {box : Box α n} {point : Array α}
  {record after : Record α n u} {step : Step α n u b} {options : Options α}

theorem handOut_sized (sized : point.size = n) (result : Option Status) :
    search.handOut point result = ⟨search, search.best.toArray, .ok result⟩ := by
  simp only [handOut, sized, if_true]

/-- **A call that does not run out of fuel has no other outcomes.** -/
theorem next_called (sized : point.size = n)
    (called : (search.next fuel oracle.recorded box point).run record = (step, after))
    (returned : step.result ≠ .error .outOfFuel) :
    Called fuel oracle box search point record step after := by
  unfold Search.next at called
  cases entry : search.enter point with
  | error failure =>
    rw [entry] at called
    cases called
    exact .refused entry
  | ok entered =>
    cases found : entered.settle fuel fuel with
    | none =>
      simp only [entry, found] at called
      cases called
      exact absurd rfl returned
    | some settled =>
      have settles : search.Settles fuel point settled := ⟨entered, entry, found⟩
      simp only [entry, found] at called
      rcases settle_outcome (started_enter entry) found with ⟨pending, due⟩ | ⟨status, due⟩
      · simp only [due, run_ask] at called
        split at called
        case isTrue used =>
          rw [handOut_sized sized] at called
          cases called
          exact .spent settles due used
        case isFalse allowed =>
          cases called
          exact .asked settles due (Nat.lt_of_not_le allowed) rfl
      · simp only [due, handOut_sized sized] at called
        cases called
        exact .closed settles due

/-- A call after which the search has still not started leaves it as it was. -/
theorem next_unstarted (called : (search.next fuel oracle.recorded box point).run record =
      (step, after)) (fresh : step.search.phase = .start) : step.search = search := by
  unfold Search.next at called
  cases entry : search.enter point with
  | error failure =>
    rw [entry] at called
    cases called
    rfl
  | ok entered =>
    refine absurd fresh ?_
    have started := started_enter entry
    cases found : entered.settle fuel fuel with
    | none =>
      simp only [entry, found] at called
      cases called
      exact started
    | some settled =>
      have settling := started.settle found
      simp only [entry, found] at called
      rcases settle_outcome started found with ⟨pending, due⟩ | ⟨status, due⟩
      · simp only [due, run_ask] at called
        split at called
        case isTrue =>
          obtain ⟨rfl, rfl⟩ := Prod.mk.inj called
          rw [search_handOut]
          exact (alike_finish ..).started (started_of_phase rfl (by simp))
        case isFalse =>
          obtain ⟨rfl, rfl⟩ := Prod.mk.inj called
          simp only [asked]
          split
          case h_1 =>
            rw [search_handOut]
            exact (answer_underway ..).1
          case h_2 =>
            rw [search_handOut]
            exact (alike_halted ..).started (started_of_phase rfl (by simp))
          case h_3 => exact settling
      · simp only [due] at called
        obtain ⟨rfl, rfl⟩ := Prod.mk.inj called
        rw [search_handOut]
        exact settling

/-! ## The published point -/

theorem finish_best (search : Search α n u b) (status : Status) :
    (search.finish status).best = (search.finish status).simplex.pole := by
  obtain ⟨journal, finished⟩ := search.alike_finish status
  rw [finished]

/-- The best point is the pole, once the search has ended. -/
def Published (search : Search α n u b) : Prop :=
  ∀ status, search.phase = .done status → search.best = search.simplex.pole

theorem Alike.published (alike : search.Alike other)
    (published : other.Published) : search.Published := by
  obtain ⟨journal, rfl⟩ := alike
  exact published

theorem Turned.published (turned : Turned fuel search next) : next.Published := by
  cases turned.left with
  | further underway => exact fun status due => absurd due (underway.2 status)
  | ended _ _ best => exact fun _ _ => best

theorem Published.settle (published : search.Published)
    (found : search.settle fuel turns = some settled) : settled.Published :=
  settle_keeps (fun turned _ => turned.published) published found

theorem Ended.published {status : Status} {ended : Search α n u b}
    (finished : Ended settled status ended) (published : settled.Published) :
    ended.best = ended.simplex.pole := by
  cases finished with
  | settled due => exact published _ due
  | exhausted => exact finish_best ..
  | halted => exact finish_best ..

theorem Reached.published (reached : Reached options box record search) : search.Published := by
  induction reached with
  | create => exact fun _ ended => by cases ended
  | enter _ _ entry ih =>
    rcases enter_eq entry with ⟨-, rfl⟩ | ⟨-, -, rfl⟩
    · exact ih
    · exact (alike_startAt ..).published fun _ ended => by cases ended
  | iterate fuel _ due found =>
    have turned : Turned fuel _ _ := .iterate due found
    exact turned.published
  | reduce _ due =>
    have turned : Turned 0 _ _ := .reduce due
    exact turned.published
  | exhaust => exact fun _ _ => finish_best ..
  | answer => exact fun _ _ => rfl
  | halt => exact fun _ _ => finish_best ..
  | fail _ _ _ _ due =>
    intro status ended
    rw [counted, due] at ended
    cases ended
  | reset => exact fun _ ended => by cases ended

/-- Between two questions nothing is published. -/
theorem Turned.best (turned : Turned fuel search next) :
    next.best = search.best ∨ ∃ status, next.phase = .done status := by
  cases turned.left with
  | further _ best => exact .inl best
  | ended due => exact .inr ⟨_, due⟩

theorem settle_best (found : search.settle fuel turns = some settled) {pending : Pending α n}
    (due : settled.phase = .evaluate pending) : settled.best = search.best := by
  let Kept (state : Search α n u b) : Prop :=
    state.best = search.best ∨ ∃ status, state.phase = .done status
  have keeps {state next : Search α n u b} (turned : Turned fuel state next)
      (before : Kept state) : Kept next := by
    rcases before with before | ⟨status, ended⟩
    · exact turned.best.imp_left fun same => same.trans before
    · cases turned with
      | iterate waits =>
        rw [ended] at waits
        cases waits
      | reduce waits =>
        rw [ended] at waits
        cases waits
  have kept : Kept settled := settle_keeps keeps (.inl rfl) found
  refine kept.resolve_right ?_
  rintro ⟨status, ended⟩
  rw [due] at ended
  cases ended

theorem Settles.best (settles : search.Settles fuel point settled) {pending : Pending α n}
    (due : settled.phase = .evaluate pending) : settled.best = search.best := by
  obtain ⟨entered, entry, found⟩ := settles
  rw [settle_best found due]
  rcases enter_eq entry with ⟨-, rfl⟩ | ⟨-, -, rfl⟩
  · rfl
  · obtain ⟨journal, started⟩ := search.alike_startAt (Vector.ofFn fun i => point[i.val]?.getD 0)
    rw [started]

/-! ## Calls with a known outcome -/

/-- A result without a failure is known once its status is. -/
theorem result_of_toOption {result : Except Failure (Option Status)} {status : Option Status}
    (known : result.toOption = some status) : result = .ok status := by
  cases result with
  | error => cases known
  | ok => exact congrArg Except.ok (Option.some.inj known)

/-- A search that is started at the point goes on as one that has been. -/
theorem next_enter {entered : Search α n u b} (entry : search.enter point = .ok entered) :
    search.next fuel oracle.recorded box point = entered.next fuel oracle.recorded box point := by
  simp only [Search.next, entry, (started_enter entry).enter]

theorem next_evaluate {pending : Pending α n} (due : search.phase = .evaluate pending) :
    search.next (fuel + 1) oracle.recorded box point =
      search.ask oracle.recorded box pending point := by
  have started := started_of_phase due (by simp)
  simp only [Search.next, started.enter, Search.settle, due]

theorem next_iterate {pending : Pending α n} (due : search.phase = .iterate)
    (found : search.iterate (fuel + 2) = some next) (waits : next.phase = .evaluate pending) :
    search.next (fuel + 2) oracle.recorded box point =
      next.ask oracle.recorded box pending point := by
  have started := started_of_phase due (by simp)
  simp only [Search.next, started.enter, Search.settle, due, found, waits]

theorem ask_answered {pending : Pending α n} {constraints : Vector α u} {objective : α}
    (allowed : search.evaluator.evaluations < search.evaluator.limit) (sized : point.size = n)
    (answered : oracle search.point search.evaluator.buffer = (constraints, .ok objective)) :
    (search.ask oracle.recorded box pending point).run record =
      (⟨(search.informed box constraints objective).answer pending,
        ((search.informed box constraints objective).answer pending).best.toArray, .ok none⟩,
        record.push ⟨search.point, constraints, .ok objective⟩) := by
  rw [run_ask, if_neg (Nat.not_le_of_lt allowed)]
  simp only [Oracle.inquire, answered, asked, handOut_sized sized]

theorem ask_failed {pending : Pending α n} {constraints : Vector α u} {error : EvalError}
    (allowed : search.evaluator.evaluations < search.evaluator.limit) (other : error ≠ .halt)
    (answered : oracle search.point search.evaluator.buffer = (constraints, .error error)) :
    (search.ask oracle.recorded box pending point).run record =
      (⟨search.counted constraints, point, .error (.evaluation error)⟩,
        record.push ⟨search.point, constraints, .error error⟩) := by
  rw [run_ask, if_neg (Nat.not_le_of_lt allowed)]
  cases error with
  | halt => exact absurd rfl other
  | wrongDimension | invalidValue | custom => simp only [Oracle.inquire, answered, asked]

theorem run_runFor_succ (search : Search α n u b) (fuel : Nat) (oracle : Oracle Id α n u)
    (box : Box α n) (steps : Nat) (point : Array α) (record : Record α n u) :
    (search.runFor fuel oracle.recorded box (steps + 1) point).run record =
      match ((search.next fuel oracle.recorded box point).run record).1.result with
      | .ok none =>
        (((search.next fuel oracle.recorded box point).run record).1.search.runFor fuel
          oracle.recorded box steps
          ((search.next fuel oracle.recorded box point).run record).1.point).run
            ((search.next fuel oracle.recorded box point).run record).2
      | .ok (some _) | .error _ => (search.next fuel oracle.recorded box point).run record := by
  simp only [Search.runFor, StateT.run_bind]
  change (match ((search.next fuel oracle.recorded box point).run record).1.result with
    | .ok none => _
    | .ok (some _) | .error _ => _ : StateM (Record α n u) (Step α n u b)).run _ = _
  split <;> rfl

theorem runFor_further {steps : Nat} {caller : Array α}
    (called : (search.next fuel oracle.recorded box point).run record =
      (⟨next, caller, .ok none⟩, after)) :
    (search.runFor fuel oracle.recorded box (steps + 1) point).run record =
      (next.runFor fuel oracle.recorded box steps caller).run after := by
  rw [run_runFor_succ, called]

/-- A run goes on after a question that is answered with values. -/
theorem runFor_answered {steps : Nat} {pending : Pending α n} {constraints : Vector α u}
    {objective : α}
    (asks : search.next fuel oracle.recorded box point =
      settled.ask oracle.recorded box pending point)
    (allowed : settled.evaluator.evaluations < settled.evaluator.limit) (sized : point.size = n)
    (answered : oracle settled.point settled.evaluator.buffer = (constraints, .ok objective)) :
    (search.runFor fuel oracle.recorded box (steps + 1) point).run record =
      (((settled.informed box constraints objective).answer pending).runFor fuel oracle.recorded
        box steps ((settled.informed box constraints objective).answer pending).best.toArray).run
          (record.push ⟨settled.point, constraints, .ok objective⟩) :=
  runFor_further ((congrArg (StateT.run · record) asks).trans
    (ask_answered allowed sized answered))

theorem runFor_failed {steps : Nat} {caller : Array α} {failure : Failure}
    (called : (search.next fuel oracle.recorded box point).run record =
      (⟨next, caller, .error failure⟩, after)) :
    (search.runFor fuel oracle.recorded box (steps + 1) point).run record =
      (⟨next, caller, .error failure⟩, after) := by
  rw [run_runFor_succ, called]

end DerivativeFree.Search
