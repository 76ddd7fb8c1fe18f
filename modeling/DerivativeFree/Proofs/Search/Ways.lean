import DerivativeFree.Proofs.Search.Report
import DerivativeFree.Proofs.Search.Truncation

/-!
# The ways to run a search

A search can be run in several ways: by calls of one's own, by a session, within a number of
steps, and by a minimization.  Each of them has a loop and preparations of its own.

`Concludes` says without any loop what it means that a search is called until a call does not
let it go on.  Every new search comes to such a call, at the latest the one after its last
evaluation (`exists_concludes`), and the loops find the same one (`Concludes.runFor`,
`Concludes.findFor`).  So all ways end alike for a problem without bounds (`ways_agree`), and
only a number of steps that is too small makes a difference.
-/

namespace DerivativeFree

set_option autoImplicit false

variable {α : Type} [Scalar α] {n u b : Nat}

/-! ## What is found -/

/-- What a step that ends a search shows: the point of the caller and a report, or why there is
none. -/
def Step.found (step : Step α n u b) : Except Failure (Array α × Report α) :=
  match step.result with
  | .ok (some status) => .ok (step.point, {
      status := status
      objective := step.search.objective
      violation := step.search.violation
      evaluations := step.search.evaluations })
  | .ok none => .error .outOfFuel
  | .error failure => .error failure

/-- What a minimization shows: the final point and the report, or why there is none. -/
def Minimization.found (made : Minimization α) : Except Failure (Array α × Report α) :=
  made.result.map fun report => (made.point, report)

theorem Minimization.found_ofStep (x : Array α) (step : Step α n u b) :
    (Minimization.ofStep x step).found = step.found := by
  obtain ⟨search, point, result⟩ := step
  cases result with
  | error failure => rfl
  | ok status => cases status <;> rfl

namespace Search

variable {fuel calls steps : Nat} {oracle : Oracle Id α n u} {box : Box α n}
  {search other : Search α n u b} {point x : Array α} {step step' : Step α n u b}

theorem found_congr (result : step'.result = step.result) (point : step'.point = step.point)
    (view : step'.search.view = step.search.view) : step'.found = step.found := by
  have objective : step'.search.objective = step.search.objective := congrArg View.objective view
  have violation : step'.search.violation = step.search.violation := congrArg View.violation view
  have evaluations : step'.search.evaluations = step.search.evaluations :=
    congrArg View.evaluations view
  simp only [Step.found, result, point, objective, violation, evaluations]

/-! ## Calls until the end -/

/-- The given number of calls is made, each with what the one before has left, and the last one
is the first that does not let the search go on. -/
inductive Concludes (fuel : Nat) (oracle : Oracle Id α n u) (box : Box α n) :
    Nat → Search α n u b → Array α → Step α n u b → Prop
  /-- The search ends or fails in the first call. -/
  | last {search : Search α n u b} {point : Array α}
      (ends : (search.next fuel oracle box point).run.result ≠ .ok none) :
      Concludes fuel oracle box 1 search point (search.next fuel oracle box point).run
  /-- The search goes on after the first call. -/
  | further {calls : Nat} {search : Search α n u b} {point : Array α} {step : Step α n u b}
      (goes : (search.next fuel oracle box point).run.result = .ok none)
      (later : Concludes fuel oracle box calls (search.next fuel oracle box point).run.search
        (search.next fuel oracle box point).run.point step) :
      Concludes fuel oracle box (calls + 1) search point step

/-- A record of the questions changes nothing in a call. -/
theorem next_recorded (fuel : Nat) (oracle : Oracle Id α n u) (box : Box α n)
    (search : Search α n u b) (point : Array α) (record : Record α n u) :
    ((search.next fuel oracle.recorded box point).run record).1 =
      (search.next fuel oracle box point).run := by
  unfold next
  cases search.enter point with
  | error failure => rfl
  | ok entered =>
    cases found : entered.settle fuel fuel with
    | none =>
      simp only [found]
      rfl
    | some settled =>
      simp only [found]
      cases settled.phase with
      | start | iterate | reduce | done => rfl
      | evaluate pending =>
        simp only [run_ask]
        unfold ask Evaluator.evaluate
        split
        case isTrue => rfl
        case isFalse =>
          simp only [Oracle.inquire, asked]
          rcases oracle settled.point settled.evaluator.buffer with ⟨constraints, answer⟩
          cases answer with
          | ok objective => rfl
          | error error => cases error <;> rfl

namespace Concludes

/-- The last call has not let the search go on. -/
theorem ends (concludes : Concludes fuel oracle box calls search point step) :
    step.result ≠ .ok none := by
  induction concludes with
  | last ends => exact ends
  | further _ _ ih => exact ih

theorem unique {calls' : Nat} (concludes : Concludes fuel oracle box calls search point step)
    (concludes' : Concludes fuel oracle box calls' search point step') :
    calls' = calls ∧ step' = step := by
  induction concludes generalizing calls' with
  | last ends =>
    cases concludes' with
    | last => exact ⟨rfl, rfl⟩
    | further goes => exact absurd goes ends
  | further goes _ ih =>
    cases concludes' with
    | last ends => exact absurd goes ends
    | further _ later => exact (ih later).imp_left (congrArg (· + 1))

/-- **A loop of calls** stops at the last one, or when its steps are used up. -/
theorem runFor (concludes : Concludes fuel oracle box calls search point step) (steps : Nat) :
    (calls ≤ steps → (search.runFor fuel oracle box steps point).run = step) ∧
      (steps < calls → (search.runFor fuel oracle box steps point).run.result = .ok none) := by
  induction concludes generalizing steps with
  | @last search point ends =>
    cases steps with
    | zero => exact ⟨fun enough => absurd enough (by decide), fun _ => rfl⟩
    | succ steps =>
      refine ⟨fun _ => ?_, fun few => absurd few (by omega)⟩
      simp only [Search.runFor, Id.run_bind]
      split
      case h_1 goes => exact absurd goes ends
      all_goals rfl
  | @further calls search point step goes _ ih =>
    cases steps with
    | zero => exact ⟨fun enough => absurd enough (by omega), fun _ => rfl⟩
    | succ steps =>
      have onwards : (search.runFor fuel oracle box (steps + 1) point).run =
          ((search.next fuel oracle box point).run.search.runFor fuel oracle box steps
            (search.next fuel oracle box point).run.point).run := by
        simp only [Search.runFor, Id.run_bind, goes]
      rw [onwards]
      exact ⟨fun enough => (ih steps).1 (by omega), fun few => (ih steps).2 (by omega)⟩

/-- Searches that cannot be told from each other conclude after equally many calls. -/
theorem of_transcripts (concludes : Concludes fuel oracle box calls search point step)
    (record record' : Record α n u)
    (same : ∀ calls, List.Forall₂ Indistinguishable
      (search.transcript fuel oracle box calls point record)
      (other.transcript fuel oracle box calls point record')) :
    ∃ step', Concludes fuel oracle box calls other point step' ∧ step'.found = step.found := by
  induction concludes generalizing other record record' with
  | @last search point ends =>
    obtain ⟨⟨outcome, view⟩, -⟩ := List.forall₂_cons.mp (same 1)
    have result := outcome.result
    have handed := outcome.point
    rw [next_recorded, next_recorded] at result handed view
    exact ⟨_, .last (result ▸ ends), found_congr result handed view⟩
  | @further calls search point step goes _ ih =>
    obtain ⟨⟨outcome, -⟩, -⟩ := List.forall₂_cons.mp (same 1)
    have result := outcome.result
    have handed := outcome.point
    have later := fun calls => (List.forall₂_cons.mp (same (calls + 1))).2
    rw [next_recorded, next_recorded] at result handed
    simp only [next_recorded, handed] at later
    obtain ⟨step', concludes', found⟩ := ih _ _ later
    exact ⟨step', .further (result.trans goes) (handed ▸ concludes'), found⟩

end Concludes

/-! ## The last call -/

/-- A search that goes on had an evaluation left. -/
theorem Called.within {record after : Record α n u}
    (called : Called fuel oracle box search point record step after)
    (further : step.result = .ok none) :
    search.evaluator.evaluations < search.evaluator.limit := by
  cases called with
  | refused | closed | spent => cases further
  | asked settles _ allowed =>
    rw [settles.evaluator] at allowed
    exact allowed

/-- A search with evaluations left concludes with a call after the last of them. -/
theorem exists_concludes (fuel : Nat) (oracle : Oracle Id α n u) (box : Box α n)
    (search : Search α n u b) (sized : point.size = n)
    (within : search.evaluator.evaluations ≤ search.evaluator.limit) :
    ∃ calls ≤ search.evaluator.limit - search.evaluator.evaluations + 1, ∃ step,
      Concludes fuel oracle box calls search point step := by
  obtain ⟨left, known⟩ : ∃ left, left = search.evaluator.limit - search.evaluator.evaluations :=
    ⟨_, rfl⟩
  rw [← known]
  induction left generalizing search point with
  | zero =>
    refine ⟨1, le_rfl, _, .last fun goes => ?_⟩
    have again := next_recorded fuel oracle box search point #[]
    rcases called : (search.next fuel oracle.recorded box point).run #[] with ⟨step, after⟩
    rw [called] at again
    have result : step.result = .ok none := (congrArg Step.result again).trans goes
    have spent := (next_called sized called (by simp [result])).within result
    omega
  | succ left ih =>
    by_cases goes : (search.next fuel oracle box point).run.result = .ok none
    case neg => exact ⟨1, by omega, _, .last goes⟩
    have again := next_recorded fuel oracle box search point #[]
    rcases called : (search.next fuel oracle.recorded box point).run #[] with ⟨step, after⟩
    rw [called] at again
    have result : step.result = .ok none := (congrArg Step.result again).trans goes
    obtain ⟨evaluations, limit, size⟩ := (next_called sized called (by simp [result])).counted
      sized result
    obtain ⟨calls, few, last, concludes⟩ := ih step.search size (by omega) (by omega)
    have next : step = (search.next fuel oracle box point).run := again
    rw [next] at concludes
    exact ⟨calls + 1, by omega, last, .further goes concludes⟩

/-! ## Sessions -/

/-- A step of a session that has shown no status yet. -/
theorem run_next_session (fuel : Nat) (problem : Problem Id α) (search : problem.Search)
    (point : Array α) (iterations : Nat) :
    let step := (search.next fuel problem.evaluate problem.box point).run
    ∃ iterations', ((⟨problem, search, point, none, iterations⟩ : Session Id α).next fuel).run =
      (⟨problem, step.search, step.point, step.result.toOption.join, iterations'⟩,
        step.result) := by
  intro step
  simp only [Session.next, Id.run_bind]
  cases step.result with
  | ok status => exact ⟨iterations + 1, rfl⟩
  | error failure => exact ⟨iterations, rfl⟩

/-- **A session** whose search is called until it ends has the search, the point and the result
of the last call. -/
theorem Concludes.findFor {problem : Problem Id α} {search : problem.Search}
    {step : Step α problem.dim problem.constraintCount problem.box.boundCount}
    (concludes : Concludes fuel problem.evaluate problem.box calls search point step)
    (enough : calls ≤ steps) (iterations : Nat) :
    ∃ iterations', ((⟨problem, search, point, none, iterations⟩ : Session Id α).findFor fuel
        (fun _ => return false) steps).run =
      (⟨problem, step.search, step.point, step.result.toOption.join, iterations'⟩,
        step.result) := by
  induction concludes generalizing steps iterations with
  | @last search point ends =>
    obtain ⟨steps, rfl⟩ := Nat.exists_eq_add_of_le' enough
    obtain ⟨iterations', next⟩ := run_next_session fuel problem search point iterations
    refine ⟨iterations', ?_⟩
    simp only [Session.findFor, Id.run_bind, next]
    split
    case h_1 goes => exact absurd goes ends
    all_goals rfl
  | @further calls search point step goes _ ih =>
    obtain ⟨steps, rfl⟩ := Nat.exists_eq_add_of_le' (Nat.le_trans (Nat.le_add_left 1 calls) enough)
    obtain ⟨iterations', next⟩ := run_next_session fuel problem search point iterations
    obtain ⟨last, later⟩ := ih (by omega : calls ≤ steps) iterations'
    refine ⟨last, ?_⟩
    simp only [Session.findFor, Id.run_bind, next, goes]
    exact later

/-! ## All ways -/

/-- A session without bounds starts from the point that it is given. -/
theorem initialPoint_unbounded (positive : 0 < n) (m : Nat)
    (evaluate : {k c : Nat} → Oracle Id α k c) {x : Array α} (sized : x.size = n) :
    Session.initialPoint ⟨n, Box.unbounded n positive, m, evaluate⟩ (some x) = x := by
  subst sized
  simp [Session.initialPoint, Box.project, Box.unbounded, Box.clamp, Box.isBelow, Box.isAbove,
    get_eq_getElem, Array.ofFn_getElem]

end Search

/-- The parameters of a minimization with the given options. -/
def Options.parameters (options : Options α) : Parameters α where
  radiusBegin := options.radiusBegin
  radiusEnd := options.radiusEnd
  maxEvaluations := options.maxEvaluations
  printLevel := options.verbosity.level
  strict := options.roundingCheck = .abort

namespace Search

variable {fuel calls steps m : Nat} {x : Array α}

/-- A minimization has a strict check if the options want one. -/
theorem roundingCheck_parameters (options : Options α) :
    options.parameters.options.roundingCheck = .abort ↔ options.roundingCheck = .abort := by
  simp [Parameters.options, Options.parameters]

/-- A minimization shows what the last call of its search does. -/
theorem Concludes.minimize {oracle : Oracle Id α n m} {parameters : Parameters α}
    {step : Step α n m b} (positive : 0 < n) (sized : x.size = n) (unbounded : b = 0)
    (concludes : Concludes fuel oracle (Box.unbounded n positive) calls
      (create n m b parameters.options) x step)
    (enough : calls ≤ parameters.maxEvaluations + 1) :
    (DerivativeFree.minimize fuel n m x parameters oracle).run.found = step.found := by
  subst unbounded
  have run := (concludes.runFor (create n m 0 parameters.options).stepLimit).1
    (Nat.le_succ_of_le enough)
  rw [← Minimization.found_ofStep x, ← run]
  simp only [DerivativeFree.minimize, positive, sized, dif_pos, if_pos]
  rfl

/-- A bounded number of steps suffices exactly if it is at least the number of calls. -/
theorem Concludes.minimizeWithin {problem : Problem Id α} {search : problem.Search}
    {step : Step α problem.dim problem.constraintCount problem.box.boundCount}
    (concludes : Concludes fuel problem.evaluate problem.box calls search x step) (steps : Nat) :
    let ended := (DerivativeFree.minimizeWithin fuel steps problem search x).run
    (ended.2 = .error .unfinished ↔ steps < calls) ∧
      (calls ≤ steps → ended = (step.search,
        (step.found.map fun (point, report) => (point, report.status)).mapError .search)) := by
  intro ended
  obtain ⟨reaches, stops⟩ := concludes.runFor steps
  have made : ended =
      let made := (search.runFor fuel problem.evaluate problem.box steps x).run
      match made.result with
      | .ok (some status) => (made.search, .ok (made.point, status))
      | .ok none => (made.search, .error .unfinished)
      | .error failure => (made.search, .error (.search failure)) := by
    simp only [ended, DerivativeFree.minimizeWithin, Id.run_bind]
    cases (search.runFor fuel problem.evaluate problem.box steps x).run.result with
    | error failure => rfl
    | ok status => cases status <;> rfl
  by_cases enough : calls ≤ steps
  case neg =>
    have few := Nat.lt_of_not_le enough
    simp only [stops few] at made
    exact ⟨iff_of_true (congrArg Prod.snd made) few, fun enough' => absurd enough' enough⟩
  case pos =>
    have ends := concludes.ends
    rw [reaches enough] at made
    obtain ⟨last, point, result⟩ := step
    rw [made]
    refine ⟨iff_of_false (fun unfinished => ?_) (Nat.not_lt_of_le enough), fun _ => ?_⟩
    · cases result with
      | error failure => cases unfinished
      | ok status =>
        cases status with
        | none => exact ends rfl
        | some status => cases unfinished
    · cases result with
      | error failure => rfl
      | ok status =>
        cases status with
        | none => exact absurd rfl ends
        | some status => rfl

/-- **All ways to run a search agree.**  For a problem without bounds, a new search is called a
number of times that exceeds the number of allowed evaluations by at most one, until a call ends
it or fails.  A session that is run has then the search, the point and the result of that last
call.  So has a bounded number of steps, if it is at least the number of the calls; and exactly if
it is less, there is nothing to show.  A minimization shows the same point and report, or fails for
the same reason. -/
theorem ways_agree (fuel : Nat) (positive : 0 < n) (m : Nat)
    (evaluate : {k c : Nat} → Oracle Id α k c) (options : Options α) (x : Array α)
    (sized : x.size = n) :
    let problem : Problem Id α := ⟨n, Box.unbounded n positive, m, evaluate⟩
    ∃ calls ≤ options.maxEvaluations + 1, ∃ step,
      Concludes fuel problem.evaluate problem.box calls (problem.search options) x step ∧
      (∃ iterations, ((Session.create problem options (some x)).run fuel).run =
        (⟨problem, step.search, step.point, step.result.toOption.join, iterations⟩,
          step.result)) ∧
      (∀ steps, let ended := (minimizeWithin fuel steps problem (problem.search options) x).run
        (ended.2 = .error .unfinished ↔ steps < calls) ∧
          (calls ≤ steps → ended = (step.search,
            (step.found.map fun (point, report) => (point, report.status)).mapError .search))) ∧
      (minimize fuel n m x options.parameters evaluate).run.found = step.found := by
  intro problem
  obtain ⟨calls, few, step, concludes⟩ := exists_concludes fuel problem.evaluate problem.box
    (problem.search options) sized (Nat.zero_le _)
  refine ⟨calls, few, step, concludes, ?session, concludes.minimizeWithin, ?minimization⟩
  case session =>
    have start : Session.create problem options (some x) =
        ⟨problem, problem.search options, x, none, 0⟩ := by
      simp only [Session.create, problem, initialPoint_unbounded positive m evaluate sized]
    rw [start]
    exact concludes.findFor (Nat.le_succ_of_le few) 0
  case minimization =>
    have observed (calls : Nat) := (@options_truncate _ _ n m options options.parameters.options
      rfl rfl problem.evaluate problem.box fuel calls x).1 rfl (roundingCheck_parameters options)
    obtain ⟨last, concludes', found⟩ := concludes.of_transcripts #[] #[] observed
    rw [← found]
    exact concludes'.minimize positive sized (Box.boundCount_unbounded positive) few

/-! ## All ways on the line -/

/-- A search on the line concludes with its second call, if that is answered with a halt. -/
theorem concludes_on_line :
    ∃ step, Concludes 2 (lineOracle lineHalt) realLine 2 (create 1 0 0 lineOptions) #[0] step ∧
      step.point = #[0] ∧ step.result = .ok (some .exhausted) ∧
      step.found = .ok (#[0], ⟨.exhausted, 1, 0, 2⟩) := by
  have first : ((create 1 0 0 lineOptions).next 2 (lineOracle lineHalt) realLine #[0]).run =
      ⟨lineOpened, #[0], .ok none⟩ := by
    rw [← next_recorded _ _ _ _ _ #[], next_create_on_line lineHalt (if_pos (by norm_num))]
    rfl
  have waits : lineOpened.phase = .evaluate (.vertex (.edge 0)) := rfl
  have halts : lineHalt (lineOpened.point.get 0) = .error .halt := by
    rw [point_lineOpened]
    exact if_neg (by norm_num [get_eq_getElem])
  have second : (lineOpened.next 2 (lineOracle lineHalt) realLine #[0]).run =
      ⟨lineOpened.halted #v[], #[0], .ok (some .exhausted)⟩ := by
    rw [← next_recorded _ _ _ _ _ #[], next_evaluate waits,
      ask_halted_on_line (by decide) rfl halts]
    rfl
  refine ⟨_, .further (by rw [first]) (.last (by simp [first, second])), ?_⟩
  rw [first, second]
  refine ⟨rfl, rfl, ?_⟩
  change Except.ok (#[0], Report.mk Status.exhausted
    (lineStart.informed realLine #v[] 1).evaluator.sample.objective
    (lineStart.informed realLine #v[] 1).evaluator.sample.violation 2) = _
  rw [informed_on_line]

/-- On the line all ways end with the second call, and one call is too few. -/
theorem ways_agree_on_line :
    let evaluate : {k c : Nat} → Oracle Id ℝ k c :=
      fun x constraints => (constraints, lineHalt (x[0]?.getD 0))
    let problem : Problem Id ℝ := ⟨1, realLine, 0, evaluate⟩
    let session := ((Session.create problem lineOptions (some #[0])).run 2).run
    let within (steps : Nat) :=
      (minimizeWithin 2 steps problem (problem.search lineOptions) #[0]).run.2
    session.2 = .ok (some .exhausted) ∧ session.1.point = #[0] ∧
      within 1 = .error .unfinished ∧ within 2 = .ok (#[0], .exhausted) ∧
      (minimize 2 1 0 #[0] lineOptions.parameters evaluate).run.found =
        .ok (#[0], ⟨.exhausted, 1, 0, 2⟩) := by
  intro evaluate problem session within
  obtain ⟨calls, -, step, concludes, ⟨iterations, made⟩, limited, found⟩ :=
    ways_agree 2 one_pos 0 evaluate lineOptions #[0] rfl
  obtain ⟨last, concludes', point, result, shown⟩ := concludes_on_line
  obtain ⟨rfl, rfl⟩ := concludes'.unique concludes
  have tried := congrArg (fun found : Except Failure (Array ℝ × Report ℝ) =>
    (found.map fun (point, report) => (point, report.status)).mapError TrialFailure.search) shown
  refine ⟨(congrArg Prod.snd made).trans result, ?_, (limited 1).1.mpr (by decide),
    (congrArg Prod.snd ((limited 2).2 le_rfl)).trans tried, found.trans shown⟩
  exact (congrArg (fun ended => ended.1.point) made).trans point

end Search

end DerivativeFree
