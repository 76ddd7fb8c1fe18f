import DerivativeFree.Proofs.Search.Calls
import DerivativeFree.Proofs.Search.Course

/-!
# Two searches side by side

Two searches are asked for one step after the other, by callers that know nothing of each
other but start from the same point with the same oracle.  The searches are `Poised` if
neither has started yet or both are on the same course.  Their options may differ, as long
as those of the second search allow for at least as much (`Options.Tighter`).

One call keeps poised searches in step, or the first search ends in it because its options
are tighter (`Poised.next`).  `Poised.transcript` says the same of any number of calls.  The
values that an oracle leaves among the constraints of a failed question need not be the same
in both runs, so that the relation between the two buffers is a parameter.
-/

namespace DerivativeFree

set_option autoImplicit false

variable {α : Type} {n u b : Nat}

/-! ## Questions -/

/-- What a question shows: the point, and the values unless it has failed. -/
def Inquiry.shown (inquiry : Inquiry α n u) : Vector α n × Except EvalError (α × Vector α u) :=
  (inquiry.point, inquiry.answer.map fun objective => (objective, inquiry.constraints))

/-- The answers do not depend on which of two related vectors the values of the constraints
are written into, and leave related vectors behind. -/
def Oracle.Respects (Related : Vector α u → Vector α u → Prop) (oracle : Oracle Id α n u) :
    Prop :=
  ∀ x constraints constraints', Related constraints constraints' →
    (oracle.inquire x constraints').shown = (oracle.inquire x constraints).shown ∧
      Related (oracle x constraints).1 (oracle x constraints').1

theorem Oracle.respects_eq (oracle : Oracle Id α n u) : oracle.Respects Eq := by
  rintro x constraints _ rfl
  exact ⟨rfl, rfl⟩

variable [Scalar α]

/-- The residuals of all bounds are written anew, so that nothing of the last sample stays. -/
theorem Evaluator.sampleAt_congr (box : Box α n) (x : Vector α n) (constraints : Vector α u)
    (objective : α) (last last' : Sample α (u + box.boundCount)) :
    Evaluator.sampleAt box x constraints objective last =
      Evaluator.sampleAt box x constraints objective last' := by
  have written : ∀ out out' : Vector α box.boundCount,
      box.writeResiduals x out = box.writeResiduals x out' := by
    intro out out'
    ext i inside
    have found : i < (box.residuals x).length := box.length_residuals x ▸ inside
    simp [Box.writeResiduals, List.getD_eq_getElem?_getD, found]
  simp only [Evaluator.sampleAt, written _ 0]

/-! ## Options -/

/-- Searches with the first options end no later than with the second ones, which do not
differ in anything else that matters. -/
structure Options.Tighter (n : Nat) (tight loose : Options α) : Prop where
  radiusBegin : loose.radiusBegin = tight.radiusBegin
  radiusEnd : loose.radiusEnd = tight.radiusEnd
  budget : loose.maxEvaluations = tight.maxEvaluations ∨
    n + 1 ≤ tight.maxEvaluations ∧ tight.maxEvaluations ≤ loose.maxEvaluations
  check : loose.roundingCheck = .abort → tight.roundingCheck = .abort

section Options

variable {tight loose : Options α}

theorem Options.Tighter.refl (options : Options α) : options.Tighter n options :=
  ⟨rfl, rfl, .inl rfl, id⟩

theorem Options.Tighter.le (tighter : tight.Tighter n loose) :
    tight.maxEvaluations ≤ loose.maxEvaluations := by
  rcases tighter.budget with same | ⟨-, less⟩
  · exact same.ge
  · exact less

theorem Options.Tighter.obstacle? (tighter : tight.Tighter n loose) (x : Array α) :
    loose.obstacle? n x = tight.obstacle? n x := by
  have budget : loose.maxEvaluations < n + 1 ↔ tight.maxEvaluations < n + 1 := by
    rcases tighter.budget with same | ⟨enough, less⟩ <;> omega
  have radii : loose.ValidRadii ↔ tight.ValidRadii := by
    simp only [Options.ValidRadii, tighter.radiusBegin, tighter.radiusEnd]
  simp only [Options.obstacle?, radii, budget]

end Options

/-! ## What is seen of a search -/

/-- What an observer is shown of a search. -/
structure View (α : Type) (n : Nat) where
  /-- The best point that has been published. -/
  best : Vector α n
  /-- The objective at the pole. -/
  objective : α
  /-- The violation at the pole. -/
  violation : α
  /-- The radius of the trust region. -/
  radius : α
  /-- The penalty. -/
  penalty : α
  /-- The number of evaluations. -/
  evaluations : Nat
  /-- The status, if the search has ended. -/
  status : Option Status

/-- The outcome of a call is the same in two runs: its result, the point of the caller, and
what has been asked and found until then. -/
structure SameOutcome (called called' : Step α n u b × Record α n u) : Prop where
  result : called'.1.result = called.1.result
  point : called'.1.point = called.1.point
  questions : called'.2.map Inquiry.shown = called.2.map Inquiry.shown

/-- Two lists agree entry by entry, and only an entry of the first one can put an end to it. -/
inductive AgreesUntil {σ : Type} (Agrees : σ → σ → Prop) (Ends : σ → Prop) :
    List σ → List σ → Prop
  | nil : AgreesUntil Agrees Ends [] []
  | cons {entry entry' : σ} {rest rest' : List σ} (agrees : Agrees entry entry')
      (onwards : AgreesUntil Agrees Ends rest rest') :
      AgreesUntil Agrees Ends (entry :: rest) (entry' :: rest')
  | ends {entry entry' : σ} {rest rest' : List σ} (ends : Ends entry) :
      AgreesUntil Agrees Ends (entry :: rest) (entry' :: rest')

theorem AgreesUntil.forall₂ {σ : Type} {Agrees : σ → σ → Prop} {Ends : σ → Prop}
    {list list' : List σ} (agreement : AgreesUntil Agrees Ends list list')
    (never : ∀ entry, ¬ Ends entry) : List.Forall₂ Agrees list list' := by
  induction agreement with
  | nil => exact .nil
  | cons agrees _ ih => exact .cons agrees ih
  | ends ends => exact absurd ends (never _)

theorem AgreesUntil.imp {σ : Type} {Agrees Agrees' : σ → σ → Prop} {Ends Ends' : σ → Prop}
    {list list' : List σ} (agreement : AgreesUntil Agrees Ends list list')
    (agrees : ∀ entry entry', Agrees entry entry' → Agrees' entry entry')
    (ends : ∀ entry, Ends entry → Ends' entry) : AgreesUntil Agrees' Ends' list list' := by
  induction agreement with
  | nil => exact .nil
  | cons same _ ih => exact .cons (agrees _ _ same) ih
  | ends parts => exact .ends (ends _ parts)

namespace Search

variable {search other : Search α n u b}

/-- The view of an observer. -/
def view (search : Search α n u b) : View α n where
  best := search.best
  objective := search.objective
  violation := search.violation
  radius := search.radius
  penalty := search.penalty
  evaluations := search.evaluations
  status := search.status?

theorem view_eq (same : other.course = search.course)
    (count : other.evaluations = search.evaluations) (best : other.best = search.best) :
    other.view = search.view := by
  have shown : (course other).view = (course search).view := congrArg view same
  injection shown with _ objective violation radius penalty _ status
  change other.objective = search.objective at objective
  change other.violation = search.violation at violation
  change other.radius = search.radius at radius
  change other.penalty = search.penalty at penalty
  change other.status? = search.status? at status
  simp only [view, best, objective, violation, radius, penalty, count, status]

theorem view_eq_of_pole (same : other.course = search.course)
    (count : other.evaluations = search.evaluations) (best : search.best = search.simplex.pole)
    (best' : other.best = other.simplex.pole) : other.view = search.view := by
  have pole : other.simplex.pole = search.simplex.pole :=
    (congrArg (fun state => state.simplex.pole) same :)
  exact view_eq same count (best'.trans (pole.trans best.symm))

/-! ## Pairs of searches -/

section Pairs

variable {Related : Vector α u → Vector α u → Prop} {tight loose : Options α} {point : Array α}
  {next next' : Search α n u b}

/-- Two searches with their options, which have asked equally many questions. -/
structure Paired (Related : Vector α u → Vector α u → Prop) (tight loose : Options α)
    (search other : Search α n u b) : Prop where
  given : search.options = tight
  given' : other.options = loose
  limit : search.evaluator.limit = tight.maxEvaluations
  limit' : other.evaluator.limit = loose.maxEvaluations
  count : other.evaluations = search.evaluations
  within : search.evaluations ≤ tight.maxEvaluations
  buffers : Related search.evaluator.buffer other.evaluator.buffer
  published : search.Published
  published' : other.Published

/-- What leaves the options and the evaluators alone keeps a pair. -/
theorem Paired.later (paired : Paired Related tight loose search other)
    (options : next.options = search.options) (options' : next'.options = other.options)
    (evaluator : next.evaluator = search.evaluator)
    (evaluator' : next'.evaluator = other.evaluator) (published : next.Published)
    (published' : next'.Published) : Paired Related tight loose next next' where
  given := options.trans paired.given
  given' := options'.trans paired.given'
  limit := evaluator ▸ paired.limit
  limit' := evaluator' ▸ paired.limit'
  count := by
    rw [evaluations, evaluations, evaluator, evaluator']
    exact paired.count
  within := by
    rw [evaluations, evaluator]
    exact paired.within
  buffers := evaluator ▸ evaluator' ▸ paired.buffers
  published := published
  published' := published'

/-- Two searches that have started and are on the same course. -/
structure Abreast (Related : Vector α u → Vector α u → Prop) (tight loose : Options α)
    (search other : Search α n u b) : Prop where
  paired : Paired Related tight loose search other
  begun : search.Started
  same : other.course = search.course

theorem Abreast.begun' (abreast : Abreast Related tight loose search other) : other.Started := by
  have phase : other.phase = search.phase := (congrArg Search.phase abreast.same :)
  rw [Started, phase]
  exact abreast.begun

/-- Two searches that are called with the same point. -/
inductive Poised (Related : Vector α u → Vector α u → Prop) (tight loose : Options α)
    (point : Array α) (search other : Search α n u b) : Prop
  /-- They have not started. -/
  | fresh (paired : Paired Related tight loose search other) (due : search.phase = .start)
      (due' : other.phase = .start) (acceptable : other.acceptable = search.acceptable)
  /-- They have started, and the point has their dimension. -/
  | underway (abreast : Abreast Related tight loose search other) (sized : point.size = n)

/-- The first search ends in a step, because its options are tighter. -/
inductive Parted (tight loose : Options α) (step : Step α n u b) : Prop
  /-- It does not put up with rounding errors. -/
  | inaccurate (strict : tight.roundingCheck = .abort) (lax : loose.roundingCheck ≠ .abort)
      (result : step.result = .ok (some .inaccurate))
  /-- Its evaluations are used up. -/
  | exhausted (less : tight.maxEvaluations < loose.maxEvaluations)
      (result : step.result = .ok (some .exhausted))
      (spent : step.search.evaluations = tight.maxEvaluations)

/-- Two calls with the same outcome, after which the next ones can be made.  What is seen of
the searches is the same if the calls succeed, or if it was the same before. -/
structure InStep (Related : Vector α u → Vector α u → Prop) (tight loose : Options α)
    (before : Prop) (called called' : Step α n u b × Record α n u) : Prop where
  outcome : SameOutcome called called'
  poised : Poised Related tight loose called.1.point called.1.search called'.1.search
  succeeded : ∀ status, called.1.result = .ok status →
    called'.1.search.view = called.1.search.view
  kept : before → called'.1.search.view = called.1.search.view

theorem InStep.of_imp {before before' : Prop} {called called' : Step α n u b × Record α n u}
    (instep : InStep Related tight loose before called called') (imp : before' → before) :
    InStep Related tight loose before' called called' :=
  ⟨instep.outcome, instep.poised, instep.succeeded, fun held => instep.kept (imp held)⟩

/-! ## The parts of a call -/

/-- Poised searches enter a step together, or are refused for the same reason. -/
theorem Poised.enter (poised : Poised Related tight loose point search other)
    (tighter : tight.Tighter n loose) :
    (∃ failure, search.enter point = .error failure ∧ other.enter point = .error failure) ∨
      point.size = n ∧ ∃ entered entered', search.enter point = .ok entered ∧
        other.enter point = .ok entered' ∧ Abreast Related tight loose entered entered' ∧
        entered.best = search.best ∧ entered'.best = other.best := by
  cases poised with
  | underway abreast sized =>
    exact .inr ⟨sized, search, other, abreast.begun.enter point, abreast.begun'.enter point,
      abreast, rfl, rfl⟩
  | fresh paired due due' acceptable =>
    have radius : other.options.radiusBegin = search.options.radiusBegin := by
      rw [paired.given, paired.given', tighter.radiusBegin]
    have final : other.options.radiusEnd = search.options.radiusEnd := by
      rw [paired.given, paired.given', tighter.radiusEnd]
    have obstacle : other.options.obstacle? n point = search.options.obstacle? n point := by
      rw [paired.given, paired.given', tighter.obstacle?]
    simp only [Search.enter, due, due', obstacle]
    cases found : search.options.obstacle? n point with
    | some failure => exact .inl ⟨failure, rfl, rfl⟩
    | none =>
      have sized := ((search.options.obstacle?_eq_none_iff n point).mp found).2.1.1
      generalize (Vector.ofFn fun i => point[i.val]?.getD 0 : Vector α n) = x
      have best : ∀ state : Search α n u b, (state.startAt x).best = state.best := by
        intro state
        obtain ⟨journal, started⟩ := state.alike_startAt x
        rw [started]
      have published : ∀ state : Search α n u b, (state.startAt x).Published :=
        fun state status ended => absurd ended ((startAt_underway state x).2 status)
      refine .inr ⟨sized, _, _, rfl, rfl, ⟨?_, (startAt_underway search x).1, ?_⟩, best search,
        best other⟩
      · exact paired.later (alike_startAt ..).frame.1 (alike_startAt ..).frame.1
          (alike_startAt ..).evaluator (alike_startAt ..).evaluator (published search)
          (published other)
      · exact startAt_course radius final acceptable x

/-- Searches on the same course settle together, unless the first one ends because of
rounding errors. -/
theorem Abreast.settle (abreast : Abreast Related tight loose search other)
    (tighter : tight.Tighter n loose) (fuel turns : Nat) :
    (search.settle fuel turns = none ∧ other.settle fuel turns = none) ∨
      (∃ settled settled', search.settle fuel turns = some settled ∧
        other.settle fuel turns = some settled' ∧
        Abreast Related tight loose settled settled') ∨
      (tight.roundingCheck = .abort ∧ loose.roundingCheck ≠ .abort) ∧
        ∃ ended, search.settle fuel turns = some ended ∧ ended.phase = .done .inaccurate := by
  obtain ⟨paired, begun, same⟩ := abreast
  have strict : other.options.roundingCheck = .abort → search.options.roundingCheck = .abort := by
    rw [paired.given, paired.given']
    exact tighter.check
  rcases settle_course same strict fuel turns with together | ⟨stricter, ended⟩
  · rcases sameCourse_iff.mp together with stuck | ⟨settled, settled', here, there, same⟩
    · exact .inl stuck
    · refine .inr (.inl ⟨settled, settled', here, there, ?_, begun.settle here, same⟩)
      exact paired.later (settle_options here) (settle_options there) (settle_evaluator here)
        (settle_evaluator there) (paired.published.settle here) (paired.published'.settle there)
  · rw [Stricter, paired.given, paired.given'] at stricter
    exact .inr (.inr ⟨stricter, ended⟩)

variable {record record' : Record α n u}

/-- Searches that hand out their poles stay in step. -/
theorem Abreast.handOut (abreast : Abreast Related tight loose next next')
    (sized : point.size = n) (result : Option Status)
    (questions : record'.map Inquiry.shown = record.map Inquiry.shown)
    (best : next.best = next.simplex.pole) (best' : next'.best = next'.simplex.pole)
    (before : Prop) :
    InStep Related tight loose before (next.handOut point result, record)
      (next'.handOut point result, record') := by
  have view : next'.view = next.view :=
    view_eq_of_pole abreast.same abreast.paired.count best best'
  have same : next'.best = next.best := congrArg View.best view
  rw [handOut_sized sized, handOut_sized sized]
  exact {
    outcome := ⟨rfl, congrArg Vector.toArray same, questions⟩
    poised := .underway abreast next.best.size_toArray
    succeeded := fun _ _ => view
    kept := fun _ => view }

theorem Abreast.finish (abreast : Abreast Related tight loose search other) (status : Status) :
    Abreast Related tight loose (search.finish status) (other.finish status) where
  paired := abreast.paired.later (alike_finish ..).frame.1 (alike_finish ..).frame.1
    (alike_finish ..).evaluator (alike_finish ..).evaluator (fun _ _ => finish_best ..)
    (fun _ _ => finish_best ..)
  begun := (alike_finish ..).started nofun
  same := by rw [finish_course, finish_course, abreast.same]

end Pairs

/-! ## Questions -/

section Questions

variable {Related : Vector α u → Vector α u → Prop} {tight loose : Options α} {point : Array α}
  {box : Box α n} {record record' : Record α n u} {oracle : Oracle Id α n u}
  {search other : Search α n u box.boundCount} {pending : Pending α n}
  {constraints constraints' : Vector α u}

theorem Abreast.counted (abreast : Abreast Related tight loose search other)
    (due : search.phase = .evaluate pending)
    (allowed : search.evaluations < tight.maxEvaluations)
    (related : Related constraints constraints') :
    Abreast Related tight loose (search.counted constraints) (other.counted constraints') := by
  have due' : other.phase = .evaluate pending :=
    (congrArg Search.phase abreast.same :).trans due
  have waits : ∀ state : Search α n u box.boundCount, state.phase = .evaluate pending →
      state.Published := by
    intro state due status ended
    rw [due] at ended
    cases ended
  exact {
    paired := { abreast.paired with
      count := congrArg (· + 1) abreast.paired.count
      within := allowed
      buffers := related
      published := waits (search.counted constraints) due
      published' := waits (other.counted constraints') due' }
    begun := abreast.begun
    same := abreast.same }

/-- Values that are found by both searches keep them abreast. -/
theorem Abreast.answer (abreast : Abreast Related tight loose search other)
    (allowed : search.evaluations < tight.maxEvaluations) (pending : Pending α n)
    (constraints : Vector α u) (objective : α) (related : Related constraints constraints) :
    Abreast Related tight loose ((search.informed box constraints objective).answer pending)
      ((other.informed box constraints objective).answer pending) := by
  have point : other.point = search.point := (congrArg Search.point abreast.same :)
  have informed : Paired Related tight loose (search.informed box constraints objective)
      (other.informed box constraints objective) := { abreast.paired with
    count := congrArg (· + 1) abreast.paired.count
    within := allowed
    buffers := related }
  exact {
    paired := informed.later (answer_frame ..).1 (answer_frame ..).1 (answer_evaluator ..)
      (answer_evaluator ..) (fun _ _ => rfl) (fun _ _ => rfl)
    begun := (answer_underway ..).1
    same := by
      refine answer_course ?_ ?_ (.inl informed.count) pending
      · exact abreast.same
      · simp only [Search.informed, point]
        exact Evaluator.sampleAt_congr .. }

theorem Abreast.halted (abreast : Abreast Related tight loose search other)
    (due : search.phase = .evaluate pending)
    (allowed : search.evaluations < tight.maxEvaluations)
    (related : Related constraints constraints') :
    Abreast Related tight loose (search.halted constraints) (other.halted constraints') := by
  have counted := abreast.counted due allowed related
  have noted : Abreast Related tight loose ((search.counted constraints).note .debug .halted)
      ((other.counted constraints').note .debug .halted) := {
    paired := counted.paired.later rfl rfl rfl rfl counted.paired.published
      counted.paired.published'
    begun := counted.begun
    same := counted.same }
  exact noted.finish .exhausted

/-- A question that fails publishes nothing. -/
theorem Abreast.failed (abreast : Abreast Related tight loose search other)
    (due : search.phase = .evaluate pending)
    (allowed : search.evaluations < tight.maxEvaluations) (sized : point.size = n)
    (related : Related constraints constraints') (failure : Failure)
    (questions : record'.map Inquiry.shown = record.map Inquiry.shown) :
    InStep Related tight loose (other.best = search.best)
      (⟨search.counted constraints, point, .error failure⟩, record)
      (⟨other.counted constraints', point, .error failure⟩, record') :=
  have counted := abreast.counted due allowed related
  { outcome := ⟨rfl, rfl, questions⟩
    poised := .underway counted sized
    succeeded := nofun
    kept := fun best => view_eq counted.same counted.paired.count best }

/-- Questions that show the same keep searches in step. -/
theorem Abreast.asked (abreast : Abreast Related tight loose search other)
    (due : search.phase = .evaluate pending)
    (allowed : search.evaluations < tight.maxEvaluations) (sized : point.size = n)
    {inquiry inquiry' : Inquiry α n u} (shown : inquiry'.shown = inquiry.shown)
    (related : Related inquiry.constraints inquiry'.constraints)
    (questions : record'.map Inquiry.shown = record.map Inquiry.shown) :
    InStep Related tight loose (other.best = search.best)
      (search.asked box pending point inquiry, record)
      (other.asked box pending point inquiry', record') := by
  obtain ⟨x, constraints, answer⟩ := inquiry
  obtain ⟨x', constraints', answer'⟩ := inquiry'
  obtain ⟨-, values⟩ := Prod.mk.inj shown
  cases answer with
  | ok objective =>
    cases answer' with
    | error => cases values
    | ok objective' =>
      obtain ⟨rfl, rfl⟩ := Prod.mk.inj (Except.ok.inj values)
      exact (abreast.answer allowed pending constraints' objective' related).handOut sized none
        questions rfl rfl _
  | error error =>
    cases answer' with
    | ok => cases values
    | error error' =>
      obtain rfl := Except.error.inj values
      cases error' with
      | halt =>
        exact (abreast.halted due allowed related).handOut sized _ questions (finish_best ..)
          (finish_best ..) _
      | wrongDimension | invalidValue | custom =>
        exact abreast.failed due allowed sized related (.evaluation _) questions

/-- A question keeps searches in step, unless only the second one may ask it. -/
theorem Abreast.ask (abreast : Abreast Related tight loose search other)
    (tighter : tight.Tighter n loose) (respects : oracle.Respects Related)
    (due : search.phase = .evaluate pending) (sized : point.size = n)
    (questions : record'.map Inquiry.shown = record.map Inquiry.shown) :
    InStep Related tight loose (other.best = search.best)
        ((search.ask oracle.recorded box pending point).run record)
        ((other.ask oracle.recorded box pending point).run record') ∨
      Parted tight loose ((search.ask oracle.recorded box pending point).run record).1 := by
  obtain ⟨paired, begun, same⟩ := abreast
  have abreast : Abreast Related tight loose search other := ⟨paired, begun, same⟩
  have count : other.evaluator.evaluations = search.evaluator.evaluations := paired.count
  have within : search.evaluator.evaluations ≤ tight.maxEvaluations := paired.within
  have le := tighter.le
  rw [run_ask, run_ask, paired.limit, paired.limit', count]
  by_cases spent : tight.maxEvaluations ≤ search.evaluator.evaluations
  case pos =>
    by_cases spent' : loose.maxEvaluations ≤ search.evaluator.evaluations
    case pos =>
      rw [if_pos spent, if_pos spent']
      exact .inl ((abreast.finish .exhausted).handOut sized _ questions (finish_best ..)
        (finish_best ..) _)
    case neg =>
      rw [if_pos spent, handOut_sized sized]
      refine .inr (.exhausted (by omega) rfl ?_)
      change (search.finish .exhausted).evaluations = _
      rw [evaluations, (alike_finish ..).evaluator]
      exact le_antisymm within spent
  case neg =>
    have allowed : search.evaluations < tight.maxEvaluations := Nat.lt_of_not_le spent
    rw [if_neg spent, if_neg (by omega)]
    left
    have point : other.point = search.point := (congrArg Search.point same :)
    obtain ⟨shown, related⟩ := respects search.point _ _ paired.buffers
    have asked : (record'.push (oracle.inquire search.point other.evaluator.buffer)).map
        Inquiry.shown =
        (record.push (oracle.inquire search.point search.evaluator.buffer)).map
          Inquiry.shown := by
      rw [Array.map_push, Array.map_push, questions, shown]
    rw [point]
    exact abreast.asked due allowed sized shown related asked

/-! ## Calls -/

/-- **A call keeps poised searches in step**, unless the first one ends in it because its
options are tighter. -/
theorem Poised.next (poised : Poised Related tight loose point search other)
    (tighter : tight.Tighter n loose) (respects : oracle.Respects Related) (fuel : Nat)
    (questions : record'.map Inquiry.shown = record.map Inquiry.shown) :
    InStep Related tight loose (other.view = search.view)
        ((search.next fuel oracle.recorded box point).run record)
        ((other.next fuel oracle.recorded box point).run record') ∨
      Parted tight loose ((search.next fuel oracle.recorded box point).run record).1 := by
  unfold Search.next
  rcases poised.enter tighter with
    ⟨failure, entry, entry'⟩ | ⟨sized, entered, entered', entry, entry', abreast, best, best'⟩
  · simp only [entry, entry']
    exact .inl {
      outcome := ⟨rfl, rfl, questions⟩
      poised := poised
      succeeded := nofun
      kept := id }
  have same : other.view = search.view → entered'.best = entered.best := fun view =>
    best'.trans ((congrArg View.best view).trans best.symm)
  simp only [entry, entry']
  rcases abreast.settle tighter fuel fuel with
    ⟨here, there⟩ | ⟨settled, settled', here, there, settling⟩ | ⟨⟨strict, lax⟩, ended, here, due⟩
  · simp only [here, there]
    exact .inl {
      outcome := ⟨rfl, rfl, questions⟩
      poised := .underway abreast sized
      succeeded := nofun
      kept := fun view => view_eq abreast.same abreast.paired.count (same view) }
  · have phase : settled'.phase = settled.phase := (congrArg Search.phase settling.same :)
    simp only [here, there, phase]
    rcases settle_outcome abreast.begun here with ⟨pending, due⟩ | ⟨status, due⟩
    · have kept : settled.best = entered.best := settle_best here due
      have kept' : settled'.best = entered'.best := settle_best there (phase.trans due)
      simp only [due]
      exact (settling.ask tighter respects due sized questions).imp_left fun instep =>
        instep.of_imp fun view => kept'.trans ((same view).trans kept.symm)
    · simp only [due]
      exact .inl (settling.handOut sized _ questions (settling.paired.published status due)
        (settling.paired.published' status (phase.trans due)) _)
  · simp only [here, due]
    rw [handOut_sized sized]
    exact .inr (.inaccurate strict lax rfl)

/-! ## Runs -/

/-- The calls that a caller makes one after the other with the point that has been handed out
before, each with the questions up to then.  The caller goes on after failures, and after the
search has ended. -/
def transcript (fuel : Nat) (oracle : Oracle Id α n u) (box : Box α n) :
    Nat → Search α n u b → Array α → Record α n u → List (Step α n u b × Record α n u)
  | 0, _, _, _ => []
  | calls + 1, search, point, record =>
    let called := (search.next fuel oracle.recorded box point).run record
    called :: transcript fuel oracle box calls called.1.search called.1.point called.2

/-- **Poised searches stay in step** until the first one ends because its options are
tighter. -/
theorem Poised.transcript (poised : Poised Related tight loose point search other)
    (tighter : tight.Tighter n loose) (respects : oracle.Respects Related) (fuel calls : Nat)
    (questions : record'.map Inquiry.shown = record.map Inquiry.shown) {before : Prop}
    (held : before → other.view = search.view) :
    AgreesUntil
      (fun called called' => SameOutcome called called' ∧
        (∀ status, called.1.result = .ok status →
          called'.1.search.view = called.1.search.view) ∧
        (before → called'.1.search.view = called.1.search.view))
      (fun called => Parted tight loose called.1)
      (search.transcript fuel oracle box calls point record)
      (other.transcript fuel oracle box calls point record') := by
  induction calls generalizing search other point record record' with
  | zero => exact .nil
  | succ calls ih =>
    rcases poised.next tighter respects fuel questions with
      ⟨outcome, onward, succeeded, kept⟩ | parted
    · refine .cons ⟨outcome, succeeded, fun first => kept (held first)⟩ ?_
      rw [outcome.point]
      exact ih onward outcome.questions fun first => kept (held first)
    · exact .ends parted

end Questions

end Search

end DerivativeFree
