import DerivativeFree.Proofs.Search.Promise
import DerivativeFree.Proofs.Search.Raised
import DerivativeFree.Proofs.Search.Turns
import DerivativeFree.Proofs.TrustRegion.Objective

/-!
# The level of the objective

The run of an oracle and the run with the objective raised by a level go side by side:
they ask for the values at the same points, and their searches are related by `Raises`,
as long as the condition `HoldsObjective` is met by all states that the run of the oracle
passes through (`runFor_raised`).  Before the first value is found, the two runs are the
same.

The condition is not always met.  It is if there is at most one constraint, a bound counting as
one (`holdsObjective_of_few`).
-/

namespace DerivativeFree.Search

set_option autoImplicit false

variable {α : Type} [EuclideanField α] {n u b : Nat}

/-! ## The run of an oracle -/

/-- The states that the run of an oracle passes through, when it starts at the given point. -/
inductive Passed (fuel : Nat) (oracle : Oracle Id α n u) (options : Options α) (box : Box α n)
    (point : Array α) : Search α n u b → Prop
  /-- The search as it is created. -/
  | create : Passed fuel oracle options box point (create n u b options)
  /-- A step begins. -/
  | enter {search entered : Search α n u b}
      (passed : Passed fuel oracle options box point search)
      (entry : search.enter point = .ok entered) :
      Passed fuel oracle options box point entered
  /-- An iteration. -/
  | iterate {search next : Search α n u b}
      (passed : Passed fuel oracle options box point search) (due : search.phase = .iterate)
      (found : search.iterate fuel = some next) : Passed fuel oracle options box point next
  /-- A reduction of the radius. -/
  | reduce {search : Search α n u b} (passed : Passed fuel oracle options box point search)
      (due : search.phase = .reduce) : Passed fuel oracle options box point search.reduce
  /-- The oracle answers with values. -/
  | answer {search : Search α n u b} {pending : Pending α n} {objective : α}
      (passed : Passed fuel oracle options box point search)
      (due : search.phase = .evaluate pending)
      (answered : (oracle search.point search.evaluator.buffer).2 = .ok objective) :
      Passed fuel oracle options box point
        ((search.informed box (oracle search.point search.evaluator.buffer).1 objective).answer
          pending)

variable {fuel : Nat} {oracle : Oracle Id α n u} {options : Options α} {box : Box α n}
  {point : Array α} {search other settled : Search α n u b} {lift : α}

theorem Passed.settle (passed : Passed fuel oracle options box point search) {turns : Nat}
    (found : search.settle fuel turns = some settled) :
    Passed fuel oracle options box point settled := by
  refine settle_keeps (fun turned passed => ?_) passed found
  cases turned with
  | iterate due found => exact passed.iterate due found
  | reduce due => exact passed.reduce due

theorem lifted_settle
    (holds : ∀ search : Search α n u b, Passed fuel oracle options box point search →
      search.HoldsObjective)
    (passed : Passed fuel oracle options box point search) (turns : Nat) :
    (search.lifted lift).settle fuel turns =
      (search.settle fuel turns).map fun settled => settled.lifted lift := by
  induction turns generalizing search with
  | zero => rfl
  | succ turns ih =>
    have phase : (search.lifted lift).phase = search.phase := rfl
    simp only [Search.settle, phase]
    cases due : search.phase with
    | iterate =>
      simp only [search.lifted_iterate lift (holds search passed) due fuel]
      cases found : search.iterate fuel with
      | none => rfl
      | some next => exact ih (passed.iterate due found)
    | reduce =>
      simp only [← lifted_reduce]
      exact ih (passed.reduce due)
    | start | evaluate | done => rfl

/-! ## The relation of the two runs -/

/-- The other search is the same with the objective raised, where it is known. -/
inductive Raises (lift : α) (search : Search α n u b) : Search α n u b → Prop
  /-- The objective is known at all vertices. -/
  | complete (started : search.Started) : Raises lift search (search.lifted lift)
  /-- The initial simplex has samples at the pole and at the vertices before the next one. -/
  | opening {j : Fin n} {level : Vertex n → α}
      (due : search.phase = .evaluate (.vertex (.edge j)))
      (count : j.val + 1 = search.evaluations) (pole : level .pole = lift)
      (known : ∀ k < j, level (.edge k) = lift) : Raises lift search (search.raised lift level)

/-- The other search is the same with the objective raised in the pole. -/
def RaisesPole (lift : α) (search other : Search α n u b) : Prop :=
  ∃ level : Vertex n → α, level .pole = lift ∧ other = search.raised lift level

theorem Raises.pole (raises : search.Raises lift other) : search.RaisesPole lift other := by
  cases raises with
  | complete => exact ⟨_, rfl, rfl⟩
  | opening _ _ pole => exact ⟨_, pole, rfl⟩

theorem Raises.settle
    (holds : ∀ search : Search α n u b, Passed fuel oracle options box point search →
      search.HoldsObjective)
    (raises : search.Raises lift other) (passed : Passed fuel oracle options box point search)
    (turns : Nat) :
    Option.Rel (Raises lift) (search.settle fuel turns) (other.settle fuel turns) := by
  cases raises with
  | complete started =>
    rw [lifted_settle holds passed]
    cases found : search.settle fuel turns with
    | none => exact .none
    | some settled => exact .some (.complete (started.settle found))
  | @opening j level due count pole known =>
    have waiting : (search.raised lift level).phase = .evaluate (.vertex (.edge j)) := due
    cases turns with
    | zero => exact .none
    | succ turns =>
      simp only [Search.settle, due, waiting]
      exact .some (.opening due count pole known)

/-- After the values at a vertex, the two searches are related if the objective is raised at
all vertices before the next one. -/
theorem raises_answer_vertex {answered : Search α n u b} {level : Vertex n → α}
    (vertex : Vertex n) (counted : 0 < answered.evaluations) (pole : level .pole = lift)
    (known : ∀ k : Fin n, k.val + 1 < answered.evaluations → level (.edge k) = lift) :
    (answered.answer (.vertex vertex)).Raises lift
      ((answered.answer (.vertex vertex)).raised lift level) := by
  have evaluations := answered.recordVertex_evaluations vertex
  have started := (answer_underway answered (.vertex vertex)).1
  have outcome := answer_vertex_outcome answered vertex
  generalize answered.answer (.vertex vertex) = next at started outcome ⊢
  cases outcome with
  | vertex i early alike =>
    obtain ⟨journal, rfl⟩ := alike
    refine .opening rfl early pole fun k earlier => known k ?_
    rw [Fin.lt_def] at earlier
    omega
  | complete late =>
    have everywhere : level = fun _ => lift := by
      funext vertex
      cases vertex with
      | pole => exact pole
      | edge k =>
        have inside := k.isLt
        exact known k (by omega)
    rw [everywhere]
    exact .complete started

/-- Values lead to related searches. -/
theorem Raises.answer {pending : Pending α n} (raises : search.Raises lift other)
    (due : search.phase = .evaluate pending) (constraints : Vector α u) (objective : α) :
    ((search.informed box constraints objective).answer pending).Raises lift
      ((other.informed box constraints (objective + lift)).answer pending) := by
  cases raises with
  | complete =>
    have informed : (search.lifted lift).informed box constraints (objective + lift) =
        (search.informed box constraints objective).lifted lift := rfl
    rw [informed]
    cases pending with
    | vertex vertex =>
      have everywhere : Function.update (fun _ : Vertex n => lift) vertex lift = fun _ => lift :=
        Function.update_eq_self vertex _
      rw [lifted, answerVertex_raised _ lift (fun _ => lift) vertex fun _ => rfl, everywhere]
      exact .complete (answer_underway _ _).1
    | trial plan =>
      rw [answer_trial_raised]
      exact .complete (answer_underway _ _).1
  | @opening j level asked count pole known =>
    have informed : (search.raised lift level).informed box constraints (objective + lift) =
        (search.informed box constraints objective).raised lift level := rfl
    obtain rfl : pending = .vertex (.edge j) := Phase.evaluate.inj (due.symm.trans asked)
    rw [informed, answerVertex_raised _ _ _ _ fun _ => pole]
    have evaluations : (search.informed box constraints objective).evaluations = j.val + 2 :=
      congrArg (· + 1) count.symm
    refine raises_answer_vertex (.edge j) (by omega) ?_ fun k upTo => ?_
    · rw [Function.update_of_ne (by simp)]
      exact pole
    · by_cases own : k = j
      · rw [own, Function.update_self]
      · rw [Function.update_of_ne (by simpa using own)]
        refine known k (lt_of_le_of_ne ?_ own)
        rw [Fin.le_def]
        omega

/-! ## Steps of the two runs -/

/-- The other step leads to the same point and result, and to a related search. -/
structure StepRaises (lift : α) (step other : Step α n u b) : Prop where
  point : other.point = step.point
  result : other.result = step.result
  pole : step.search.RaisesPole lift other.search
  further : step.result = .ok none → step.search.Raises lift other.search

theorem RaisesPole.handOut (raises : search.RaisesPole lift other) (caller : Array α)
    (result : Option Status)
    (further : result = none → search.Raises lift other) :
    StepRaises lift (search.handOut caller result) (other.handOut caller result) := by
  obtain ⟨level, known, rfl⟩ := raises
  unfold Search.handOut
  split
  · refine ⟨rfl, rfl, ⟨level, known, rfl⟩, fun same => further ?_⟩
    simpa using same
  · exact ⟨rfl, rfl, ⟨level, known, rfl⟩, nofun⟩

theorem RaisesPole.finish (raises : search.RaisesPole lift other) (status : Status) :
    (search.finish status).RaisesPole lift (other.finish status) := by
  obtain ⟨level, known, rfl⟩ := raises
  exact ⟨level, known, (raised_finish search lift level known status).symm⟩

theorem RaisesPole.halted (raises : search.RaisesPole lift other) (constraints : Vector α u) :
    (search.halted constraints).RaisesPole lift (other.halted constraints) := by
  obtain ⟨level, known, rfl⟩ := raises
  have noted : ((search.counted constraints).note .debug .halted).RaisesPole lift
      (((search.raised lift level).counted constraints).note .debug .halted) :=
    ⟨level, known, (raised_note (search.counted constraints) lift level .debug .halted).symm⟩
  exact noted.finish .exhausted

theorem Raises.asked {pending : Pending α n} (raises : search.Raises lift other)
    (due : search.phase = .evaluate pending) (caller : Array α) (inquiry : Inquiry α n u) :
    StepRaises lift (search.asked box pending caller inquiry)
      (other.asked box pending caller (inquiry.raised lift)) := by
  obtain ⟨x, constraints, answer⟩ := inquiry
  cases answer with
  | ok objective =>
    have next : ((search.informed box constraints objective).answer pending).Raises lift
        ((other.informed box constraints (objective + lift)).answer pending) :=
      raises.answer due constraints objective
    exact next.pole.handOut caller none fun _ => next
  | error error =>
    cases error with
    | halt => exact (raises.pole.halted constraints).handOut caller (some .exhausted) nofun
    | wrongDimension | invalidValue | custom =>
      obtain ⟨level, known, rfl⟩ := raises.pole
      exact ⟨rfl, rfl, ⟨level, known, rfl⟩, nofun⟩

/-- The two runs have made related steps, and the record of the other one is the raised record. -/
def RunRaises (lift : α) (run other : Step α n u b × Record α n u) : Prop :=
  StepRaises lift run.1 other.1 ∧ other.2 = run.2.map (Inquiry.raised lift)

theorem Raises.ask {pending : Pending α n} (raises : search.Raises lift other)
    (due : search.phase = .evaluate pending) (oracle : Oracle Id α n u) (caller : Array α)
    (record : Record α n u) :
    RunRaises lift ((search.ask oracle.recorded box pending caller).run record)
      ((other.ask (oracle.raised lift).recorded box pending caller).run
        (record.map (Inquiry.raised lift))) := by
  have same : other.evaluator.limit = search.evaluator.limit ∧
      other.evaluator.evaluations = search.evaluator.evaluations ∧
      other.evaluator.buffer = search.evaluator.buffer ∧ other.point = search.point := by
    obtain ⟨level, -, rfl⟩ := raises.pole
    exact ⟨rfl, rfl, rfl, rfl⟩
  obtain ⟨limit, evaluations, buffer, point⟩ := same
  rw [run_ask, run_ask, limit, evaluations, buffer, point, Oracle.inquire_raised]
  split
  · exact ⟨(raises.pole.finish .exhausted).handOut caller (some .exhausted) nofun, rfl⟩
  · exact ⟨raises.asked due caller _, by simp⟩

theorem Raises.started (raises : search.Raises lift other) : search.Started ∧ other.Started := by
  cases raises with
  | complete started => exact ⟨started, started⟩
  | opening due =>
    have waiting := started_of_phase due (by simp)
    exact ⟨waiting, waiting⟩

/-- **A step keeps the relation of the two runs.** -/
theorem Raises.next
    (holds : ∀ search : Search α n u b, Passed fuel oracle options box point search →
      search.HoldsObjective)
    (raises : search.Raises lift other) (passed : Passed fuel oracle options box point search)
    (caller : Array α) (record : Record α n u) :
    RunRaises lift ((search.next fuel oracle.recorded box caller).run record)
      ((other.next fuel (oracle.raised lift).recorded box caller).run
        (record.map (Inquiry.raised lift))) := by
  have related := raises.settle holds passed fuel
  simp only [Search.next, raises.started.1.enter, raises.started.2.enter]
  cases found : search.settle fuel fuel with
  | none =>
    rw [found] at related
    generalize other.settle fuel fuel = ended at related
    cases related
    exact ⟨⟨rfl, rfl, raises.pole, fun goes => by cases goes⟩, rfl⟩
  | some settled =>
    rw [found] at related
    generalize other.settle fuel fuel = ended at related
    cases related with
    | @some _ after related =>
      have phase : after.phase = settled.phase := by
        obtain ⟨level, -, rfl⟩ := related.pole
        rfl
      simp only [phase]
      cases due : settled.phase with
      | evaluate pending => exact related.ask due oracle caller record
      | done status =>
        exact ⟨related.pole.handOut caller (some status) (fun goes => by cases goes), rfl⟩
      | start | iterate | reduce =>
        exact ⟨related.pole.handOut caller none fun _ => related, rfl⟩

/-- A step that goes on leads to a state that the run passes through. -/
theorem Passed.next {entered : Search α n u b} {caller : Array α}
    (entry : search.enter caller = .ok entered)
    (passed : Passed fuel oracle options box point entered) (record : Record α n u)
    (further : ((search.next fuel oracle.recorded box caller).run record).1.result = .ok none) :
    Passed fuel oracle options box point
      ((search.next fuel oracle.recorded box caller).run record).1.search := by
  simp only [Search.next, entry] at further ⊢
  cases found : entered.settle fuel fuel with
  | none =>
    simp only [found] at further
    cases further
  | some settled =>
    have settling := passed.settle found
    simp only [found] at further ⊢
    cases due : settled.phase with
    | evaluate pending =>
      simp only [due, run_ask] at further ⊢
      split at further
      case isTrue => cases result_handOut_none further
      case isFalse allowed =>
        rw [if_neg allowed]
        simp only [asked] at further ⊢
        split at further
        case h_1 objective answered =>
          rw [search_handOut]
          exact settling.answer due answered
        case h_2 => cases result_handOut_none further
        case h_3 => cases further
    | done status =>
      simp only [due] at further
      cases result_handOut_none further
    | start | iterate | reduce =>
      change Passed fuel oracle options box point (settled.handOut caller none).search
      rw [search_handOut]
      exact settling

/-! ## The first step -/

theorem informed_startAt (x : Vector α n) (constraints : Vector α u) (objective : α) :
    ((create n u b options).startAt x).informed box constraints (objective + lift) =
      (((create n u b options).startAt x).informed box constraints objective).raised lift 0 := by
  have journal : ((create n u b options).startAt x).journal.map (Event.raised lift) =
      ((create n u b options).startAt x).journal := by
    simp only [startAt, reportAt, create]
    by_cases told : options.verbosity.includes .radius = true
    · simp [told, note, Event.raised, Notice.raised]
    · simp [told]
  simp only [informed, raised, Simplex.raised_zero, journal]
  rfl

/-- The two runs are the same, and they end before any value is found. -/
def RunSame (run other : Step α n u b × Record α n u) : Prop :=
  other = run ∧ run.1.result ≠ .ok none ∧
    ∀ inquiry ∈ run.2, ∀ value, inquiry.answer ≠ .ok value

/-- The first values set the pole, and the next vertex waits for its own. -/
theorem raises_first (options : Options α) (box : Box α n) (x : Vector α n)
    (constraints : Vector α u) (objective lift : α) :
    ((((create n u b options).startAt x).informed box constraints objective).answer
        (.vertex .pole)).Raises lift
      ((((create n u b options).startAt x).informed box constraints
        (objective + lift)).answer (.vertex .pole)) := by
  rw [informed_startAt, answerVertex_raised _ _ _ _ fun other => absurd rfl other]
  have evaluations : (((create n u b options).startAt x).informed box constraints
      objective).evaluations = 1 := by
    have zero : ((create n u b options).startAt x).evaluator.evaluations = 0 := by
      rw [(alike_startAt ..).evaluator]
      rfl
    exact congrArg (· + 1) zero
  exact raises_answer_vertex .pole (by omega) (Function.update_self ..) fun k earlier => by omega

theorem first_ask (oracle : Oracle Id α n u) (options : Options α) (box : Box α n)
    (x : Vector α n) (caller : Array α) (lift : α) :
    let started : Search α n u b := (create n u b options).startAt x
    RunSame ((started.ask oracle.recorded box (.vertex .pole) caller).run #[])
        ((started.ask (oracle.raised lift).recorded box (.vertex .pole) caller).run #[]) ∨
      RunRaises lift ((started.ask oracle.recorded box (.vertex .pole) caller).run #[])
        ((started.ask (oracle.raised lift).recorded box (.vertex .pole) caller).run #[]) := by
  intro started
  rw [run_ask, run_ask, Oracle.inquire_raised]
  split
  case isTrue =>
    refine .inl ⟨rfl, fun goes => ?_, fun _ none => absurd none (Array.not_mem_empty _)⟩
    cases result_handOut_none goes
  case isFalse =>
    generalize oracle.inquire started.point started.evaluator.buffer = inquiry
    obtain ⟨asked, constraints, answer⟩ := inquiry
    cases answer with
    | ok objective =>
      have raises : ((started.informed box constraints objective).answer
          (.vertex .pole)).Raises lift ((started.informed box constraints
            (objective + lift)).answer (.vertex .pole)) := raises_first ..
      exact .inr ⟨raises.pole.handOut caller none fun _ => raises, by simp⟩
    | error error =>
      refine .inl ⟨rfl, fun goes => ?_, fun inquiry among value found => ?_⟩
      · cases error with
        | halt => cases result_handOut_none goes
        | wrongDimension | invalidValue | custom => cases goes
      · rcases Array.mem_push.mp among with none | rfl
        · exact absurd none (Array.not_mem_empty _)
        · cases found

theorem first_step (fuel : Nat) (oracle : Oracle Id α n u) (options : Options α) (box : Box α n)
    (point : Array α) (lift : α) :
    RunSame (((create n u b options).next fuel oracle.recorded box point).run #[])
        (((create n u b options).next fuel (oracle.raised lift).recorded box point).run #[]) ∨
      RunRaises lift (((create n u b options).next fuel oracle.recorded box point).run #[])
        (((create n u b options).next fuel (oracle.raised lift).recorded box point).run #[]) := by
  cases clear : options.obstacle? n point with
  | some failure =>
    have entry : (create n u b options).enter point = .error failure := by
      simp only [Search.enter, create, clear]
    simp only [Search.next, entry]
    exact .inl ⟨rfl, (fun goes => by cases goes),
      fun _ none => absurd none (Array.not_mem_empty _)⟩
  | none =>
    obtain ⟨x, entry⟩ : ∃ x, (create n u b options).enter point =
        .ok ((create n u b options).startAt x) := by
      simp only [Search.enter, create, clear]
      exact ⟨_, rfl⟩
    have due : ((create n u b options).startAt x).phase = .evaluate (.vertex .pole) := by
      obtain ⟨journal, frame⟩ := (create n u b options).alike_startAt x
      rw [frame]
    simp only [Search.next, entry]
    cases fuel with
    | zero =>
      exact .inl ⟨rfl, (fun goes => by cases goes),
        fun _ none => absurd none (Array.not_mem_empty _)⟩
    | succ fuel =>
      simp only [Search.settle, due]
      exact first_ask ..

theorem Raises.runFor
    (holds : ∀ search : Search α n u b, Passed fuel oracle options box point search →
      search.HoldsObjective)
    (raises : search.Raises lift other) (passed : Passed fuel oracle options box point search)
    (steps : Nat) (caller : Array α) (record : Record α n u) :
    RunRaises lift ((search.runFor fuel oracle.recorded box steps caller).run record)
      ((other.runFor fuel (oracle.raised lift).recorded box steps caller).run
        (record.map (Inquiry.raised lift))) := by
  induction steps generalizing search other caller record with
  | zero => exact ⟨⟨rfl, rfl, raises.pole, fun _ => raises⟩, rfl⟩
  | succ steps ih =>
    have related := raises.next holds passed caller record
    have onwards := Passed.next (raises.started.1.enter caller) passed record
    rw [run_runFor_succ, run_runFor_succ, related.1.result]
    split
    case h_1 further =>
      rw [related.2, related.1.point]
      exact ih (related.1.further further) (onwards further) _ _
    case h_2 => exact related
    case h_3 => exact related

/-- The two runs are related from the first value on. -/
theorem runFor_related
    (holds : ∀ search : Search α n u b, Passed fuel oracle options box point search →
      search.HoldsObjective) (lift : α) (steps : Nat) :
    let run := ((create n u b options).runFor fuel oracle.recorded box steps point).run #[]
    let other :=
      ((create n u b options).runFor fuel (oracle.raised lift).recorded box steps point).run #[]
    (other = run ∧ ∀ inquiry ∈ run.2, ∀ value, inquiry.answer ≠ .ok value) ∨
      RunRaises lift run other := by
  intro run other
  cases steps with
  | zero => exact .inl ⟨rfl, fun _ none => absurd none (Array.not_mem_empty _)⟩
  | succ steps =>
    simp only [run, other, run_runFor_succ]
    rcases first_step fuel oracle options box point lift with ⟨same, ends, nothing⟩ | related
    · rw [same]
      split
      case h_1 further => exact absurd further ends
      case h_2 => exact .inl ⟨rfl, nothing⟩
      case h_3 => exact .inl ⟨rfl, nothing⟩
    · rw [related.1.result]
      split
      case h_1 further =>
        refine .inr ?_
        rw [related.2, related.1.point]
        refine (related.1.further further).runFor holds ?_ steps _ _
        cases entry : (create n u b options).enter point with
        | error failure =>
          simp only [Search.next, entry] at further
          cases further
        | ok entered => exact Passed.next entry (.enter .create entry) #[] further
      case h_2 => exact .inr related
      case h_3 => exact .inr related

/-- With at most one constraint the condition is met. -/
theorem holdsObjective_of_few (few : u + b ≤ 1) (search : Search α n u b) :
    search.HoldsObjective :=
  fun _ _ => search.workspace.holdsThroughout_of_few few search.surveyed.modelled search.radius

theorem map_raised_of_nothing (lift : α) {record : Record α n u}
    (nothing : ∀ inquiry ∈ record, ∀ value, inquiry.answer ≠ .ok value) :
    record.map (Inquiry.raised lift) = record := by
  have kept : ∀ inquiry ∈ record, inquiry.raised lift = inquiry := by
    rintro ⟨x, constraints, answer⟩ among
    cases answer with
    | ok value => exact absurd rfl (nothing _ among value)
    | error error => rfl
  exact (Array.map_congr_left kept).trans (Array.map_id' record)

/-- **The level of the objective does not matter** as long as every walk of a second stage is
made while the objective is active: the run with the objective raised asks for the values
at the same points and has the same radii, penalties, violations and results, and its
objective is greater by the level once a value has been found. -/
theorem runFor_raised
    (holds : ∀ search : Search α n u b, Passed fuel oracle options box point search →
      search.HoldsObjective) (lift : α) (steps : Nat) {step other : Step α n u b}
    {record raised : Record α n u}
    (run : ((create n u b options).runFor fuel oracle.recorded box steps point).run #[] =
      (step, record))
    (otherRun : ((create n u b options).runFor fuel (oracle.raised lift).recorded box steps
      point).run #[] = (other, raised)) :
    raised.map Inquiry.point = record.map Inquiry.point ∧
      raised = record.map (Inquiry.raised lift) ∧
      other.point = step.point ∧ other.result = step.result ∧
      other.search.radius = step.search.radius ∧
      other.search.penalty = step.search.penalty ∧
      other.search.violation = step.search.violation ∧
      other.search.status? = step.search.status? ∧
      ((∃ inquiry ∈ record, ∃ value, inquiry.answer = .ok value) →
        other.search.objective = step.search.objective + lift) := by
  have related := runFor_related holds lift steps
  rw [run, otherRun] at related
  rcases related with ⟨same, nothing⟩ | ⟨steps, records⟩
  · cases same
    have unchanged : record.map (Inquiry.raised lift) = record :=
      map_raised_of_nothing lift nothing
    refine ⟨rfl, unchanged.symm, rfl, rfl, rfl, rfl, rfl, rfl, ?_⟩
    rintro ⟨inquiry, among, value, found⟩
    exact absurd found (nothing inquiry among value)
  · obtain ⟨point, result, ⟨level, known, search⟩, -⟩ := steps
    change raised = record.map (Inquiry.raised lift) at records
    change other.search = step.search.raised lift level at search
    refine ⟨?_, records, point, result, ?_⟩
    · rw [records, Array.map_map]
      rfl
    · rw [search]
      exact ⟨rfl, rfl, rfl, rfl, fun _ => congrArg (_ + ·) known⟩

/-! ## A constraint on the line -/

/-- Options for the real line with twice the radius. -/
noncomputable def wideOptions : Options ℝ :=
  { lineOptions with radiusBegin := 1 + 1 }

/-- The objective `1 - x` under the constraint `x ≥ 3`. -/
noncomputable def wideOracle : Oracle Id ℝ 1 1 :=
  fun x _ => (x - rationals ![3], .ok (1 - x.get (Fin.last 0)))

/-- The search that has been started at zero. -/
noncomputable def wideBegun : Search ℝ 1 1 0 :=
  (create 1 1 0 wideOptions).startAt (rationals ![0])

/-- The search after the value one has been found at zero, where the constraint is violated by
three. -/
noncomputable def wideOpened : Search ℝ 1 1 0 :=
  (wideBegun.informed realLine (rationals ![-3]) 1).answer (.vertex .pole)

/-- The search after the value minus one has been found at two, where the constraint is violated by
one. -/
noncomputable def wideComplete : Search ℝ 1 1 0 :=
  (wideOpened.informed realLine (rationals ![-1]) (-1)).answer (.vertex (.edge (.last 0)))

/-- The pole lies at two, and the other vertex at zero. -/
noncomputable def wideSimplex : Simplex ℝ 1 (1 + 0) where
  edges := .ofFn ![rationals ![-2]]
  pole := rationals ![2]
  inverse := .ofFn ![rationals ![-1 / 2]]
  samples := .ofFn ![⟨rationals ![-3], 1, (3 : ℚ)⟩]
  poleSample := ⟨rationals ![-1], -1, 1⟩

theorem point_wideBegun : wideBegun.point = #v[0] := by
  change rationals ![0] = #v[0]
  rw [rationals_one, Rat.cast_zero]

theorem point_wideOpened : wideOpened.point = #v[2] := by
  have moved : wideOpened.point = wideBegun.point.set 0 (wideBegun.point.get 0 + (1 + 1)) := rfl
  rw [moved, point_wideBegun]
  refine vector_ext fun i => ?_
  norm_num [get_eq_getElem]

theorem passed_wide : Passed 9 wideOracle wideOptions realLine #[0] wideComplete := by
  have radii : wideOptions.ValidRadii := by
    norm_num [Options.ValidRadii, wideOptions, lineOptions]
  have entry : (create 1 1 0 wideOptions).enter #[0] = .ok wideBegun := by
    rw [wideBegun, rationals_one, Rat.cast_zero]
    exact enter_at_zero radii (by decide) 1 0
  have begun : Passed 9 wideOracle wideOptions realLine #[0] wideBegun := .enter .create entry
  have first : wideOracle wideBegun.point wideBegun.evaluator.buffer =
      (rationals ![-3], .ok 1) := by
    norm_num [wideOracle, point_wideBegun, get_eq_getElem, rationals_one]
  have second : wideOracle wideOpened.point wideOpened.evaluator.buffer =
      (rationals ![-1], .ok (-1)) := by
    norm_num [wideOracle, point_wideOpened, get_eq_getElem, rationals_one]
  have waits : wideBegun.phase = .evaluate (.vertex .pole) := rfl
  have opened := begun.answer waits (congrArg Prod.snd first)
  rw [first] at opened
  have opened : Passed 9 wideOracle wideOptions realLine #[0] wideOpened := opened
  have waits : wideOpened.phase = .evaluate (.vertex (.edge (.last 0))) := rfl
  have complete := opened.answer waits (congrArg Prod.snd second)
  rw [second] at complete
  exact complete

section Wide

attribute [local simp] rationals_one ofFn_eq_mk List.ofFn_succ get_eq_getElem

theorem simplex_wide : wideComplete.simplex = wideSimplex := by
  have simplex : wideComplete.simplex =
      (((Simplex.axisAligned wideBegun.point wideOptions.radiusBegin (1 + 0)).setSample .pole
        (informed realLine wideBegun (rationals ![-3]) 1).evaluator.sample).insertInitial 0
          (informed realLine wideOpened (rationals ![-1]) (-1)).evaluator.sample
            wideOpened.point wideOptions.radiusBegin).1 := rfl
  have radius : wideOptions.radiusBegin = 2 := one_add_one_eq_two
  have three : max 0 (-((-3 : ℚ) : ℝ)) = 3 := by norm_num
  have one : max 0 (-((-1 : ℚ) : ℝ)) = 1 := by norm_num
  rw [simplex, radius, point_wideBegun, point_wideOpened]
  simp only [rationals_one]
  rw [informed_ahead _ three, informed_ahead _ one, insertInitial_better (by norm_num)]
  simp [wideSimplex]
  norm_num

theorem surveyed_wide : wideComplete.surveyed.simplex = wideSimplex := by
  have lower : wideSimplex.poleSample.objective < (wideSimplex.samples.get 0).objective := by
    simp [wideSimplex]
  change (wideComplete.simplex.selectPole 0).1 = wideSimplex
  rw [simplex_wide, selectPole_of_lower lower]

/-- The constraint rises and the objective falls ahead of the pole, each at unit rate. -/
theorem modelled_wide : wideComplete.surveyed.modelled = Workspace.aheadModel := by
  have gradients : (LinearModel.interpolate wideSimplex).gradients =
      Workspace.aheadModel.gradients := by
    simp [LinearModel.interpolate, LinearModel.gradientOf, wideSimplex, Workspace.aheadModel,
      rationals, Sample.row, column]
    norm_num
  have bounds : (LinearModel.interpolate wideSimplex).bounds = Workspace.aheadModel.bounds := by
    simp [LinearModel.interpolate, wideSimplex, Workspace.aheadModel, rationals, Sample.row]
  rw [modelled, surveyed_wide]
  exact congrArg₂ LinearModel.mk gradients bounds

end Wide

/-- The first stage removes the violation, and the second one begins while the constraint is
active. -/
theorem visits_wide : ∃ stage : Stage ℝ 1 1,
    wideComplete.workspace.Visits wideComplete.surveyed.modelled wideComplete.radius stage ∧
      stage.workspace.secondStage = true ∧ stage.workspace.active = 1 ∧
      stage.workspace.constraintAt 0 = 0 := by
  have radius : wideComplete.radius = 2 := one_add_one_eq_two
  have fresh : wideComplete.workspace = .fresh 1 1 := rfl
  rw [modelled_wide, radius, fresh]
  have first : (Workspace.fresh 1 1).Visits Workspace.aheadModel (2 : ℝ)
      (.first Workspace.aheadStart) := by
    rw [← Workspace.begin_ahead]
    refine .violated ?_
    rw [Workspace.begin_ahead]
    exact beq_eq_false_iff_ne.mpr one_ne_zero
  have turned := Workspace.turn_ahead (one_le_two : (1 : ℝ) ≤ 2)
  rw [if_neg (by norm_num)] at turned
  refine ⟨_, first.second turned (.inl rfl), rfl, rfl, ?_⟩
  simp [Stage.first, Workspace.constraintAt, Workspace.includeObjective, Workspace.advance,
    Workspace.aheadJudged, Workspace.aheadEntered, Workspace.aheadStart]

/-- The runs of `1 - x` and of `2 - x` under the constraint, which becomes active in the first
stage of a step and has to give way to the objective in the second one. -/
theorem runFor_raised_on_line :
    let start : Search ℝ 1 1 0 := create 1 1 0 wideOptions
    let run := (start.runFor 9 wideOracle.recorded realLine 9 #[0]).run #[]
    let other := (start.runFor 9 (wideOracle.raised 1).recorded realLine 9 #[0]).run #[]
    (∀ search : Search ℝ 1 1 0, Passed 9 wideOracle wideOptions realLine #[0] search →
      search.HoldsObjective) ∧
    (∃ (search : Search ℝ 1 1 0) (stage : Stage ℝ 1 1),
      Passed 9 wideOracle wideOptions realLine #[0] search ∧ search.phase = .iterate ∧
      search.surveyed.misplaced = none ∧
      search.workspace.Visits search.surveyed.modelled search.radius stage ∧
      stage.workspace.secondStage = true ∧ stage.workspace.active = 1 ∧
      stage.workspace.constraintAt 0 = 0) ∧
    other.2.map Inquiry.point = run.2.map Inquiry.point ∧ other.1.point = run.1.point ∧
      other.1.result = run.1.result ∧ other.1.search.penalty = run.1.search.penalty := by
  intro start run other
  have holds : ∀ search : Search ℝ 1 1 0,
      Passed 9 wideOracle wideOptions realLine #[0] search → search.HoldsObjective :=
    fun search _ => search.holdsObjective_of_few le_rfl
  obtain ⟨stage, visited, second, active, constraint⟩ := visits_wide
  obtain ⟨points, -, point, result, -, penalty, -⟩ := runFor_raised holds 1 9 rfl rfl
  exact ⟨holds, ⟨wideComplete, stage, passed_wide, rfl, rfl, visited, second, active, constraint⟩,
    points, point, result, penalty⟩

end DerivativeFree.Search
