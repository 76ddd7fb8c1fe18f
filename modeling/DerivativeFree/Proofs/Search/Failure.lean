import DerivativeFree.Proofs.Search.Report

/-!
# Failures of a minimization

A minimization can fail for two kinds of reasons.  Something may be wrong with its arguments,
which is found before the oracle is asked anything; or the oracle answers a question with an
error other than a halt, which may happen after many steps (`runFor_fails`).  The two kinds can
be told apart by the number of questions, and in both cases the point of the caller stays as it
was (`minimize_fails`).

The arguments are checked in two places, by the minimization itself and by its search when it
starts, and the checks combine to one order.
-/

namespace DerivativeFree.Search

set_option autoImplicit false

variable {α σ : Type} [Scalar α] {n u b : Nat} {fuel : Nat} {box : Box α n}
  {record after : Record α n u} {search : Search α n u b} {point : Array α} {failure : Failure}

/-! ## Calls that fail -/

/-- The last question has been answered with an error that is not a halt, and those before it
with values. -/
def FailedAt (record : Record α n u) (error : EvalError) : Prop :=
  error ≠ .halt ∧ ∃ earlier inquiry, record = earlier.push inquiry ∧ Answered earlier ∧
    inquiry.answer = .error error

omit [Scalar α] in
theorem FailedAt.ne_empty {error : EvalError} (failed : FailedAt record error) :
    record ≠ #[] := by
  obtain ⟨-, earlier, inquiry, rfl, -⟩ := failed
  simp

/-- A call fails because the search cannot be started at the point, or because of an answer. -/
theorem Called.fails {oracle : Oracle Id α n u} {step : Step α n u b}
    (called : Called fuel oracle box search point record step after) (sized : point.size = n)
    (result : step.result = .error failure) (answered : Answered record) :
    search.enter point = .error failure ∧ after = record ∨
      ∃ error, failure = .evaluation error ∧ FailedAt after error := by
  cases called with
  | refused entry =>
    cases result
    exact .inl ⟨entry, rfl⟩
  | closed | spent => cases result
  | @asked settled pending inquiry =>
    simp only [Search.asked] at result
    split at result
    case h_1 =>
      rw [handOut_sized sized] at result
      cases result
    case h_2 =>
      rw [handOut_sized sized] at result
      cases result
    case h_3 error other known =>
      cases result
      exact .inr ⟨error, rfl, other, record, inquiry, rfl, answered, known⟩

/-- A search that goes on after a call has started. -/
theorem Called.started {oracle : Oracle Id α n u} {step : Step α n u b}
    (called : Called fuel oracle box search point record step after)
    (further : step.result = .ok none) : step.search.Started := by
  cases called with
  | refused | closed | spent => cases further
  | @asked settled pending inquiry =>
    simp only [Search.asked] at further ⊢
    split at further
    case h_1 =>
      rw [search_handOut]
      exact (answer_underway ..).1
    case h_2 => cases result_handOut_none further
    case h_3 => cases further

/-! ## Runs that fail -/

/-- **A run fails** because the search cannot be started at the point, and then nothing is
asked, or because of the answer to its last question. -/
theorem runFor_fails (oracle : Oracle (StateM σ) α n u) (steps : Nat) (sized : point.size = n)
    (answered : Answered record) (state : σ) {step : Step α n u b} {later : σ}
    (called : (search.runFor fuel oracle.watched box steps point).run (state, record) =
      (step, later, after))
    (result : step.result = .error failure) (returned : failure ≠ .outOfFuel) :
    search.enter point = .error failure ∧ after = record ∨
      ∃ error, failure = .evaluation error ∧ FailedAt after error := by
  induction steps generalizing search point record state with
  | zero =>
    cases called
    cases result
  | succ steps ih =>
    obtain ⟨middle, next⟩ := run_next_watched oracle box search fuel point state record
    rw [run_runFor_of_next oracle.watched box steps next] at called
    rcases outcome : (search.next fuel (oracle.frozen state).recorded box point).run record with
      ⟨made, asked⟩
    rw [outcome] at called
    cases found : made.result with
    | error reason =>
      simp only [found] at called
      cases called
      have call := next_called sized outcome fun same => by
        rw [result] at same
        exact returned (Except.error.inj same)
      exact call.fails sized result answered
    | ok status =>
      have call := next_called sized outcome (by simp [found])
      cases status with
      | some status =>
        simp only [found] at called
        cases called
        rw [found] at result
        cases result
      | none =>
        simp only [found] at called
        obtain ⟨inquiry, rfl, objective, known⟩ := call.found found
        rcases ih (call.counted sized found).2.2 (answered.push known) middle called with
          ⟨refused, -⟩ | failed
        · rw [(call.started found).enter] at refused
          cases refused
        · exact .inr failed

/-- A search that cannot be started at the point fails at once. -/
theorem run_refused (oracle : Oracle (StateM σ) α n u) (box : Box α n) (fuel : Nat) (state : σ)
    (refused : search.enter point = .error failure) :
    (search.run fuel oracle.watched box point).run (state, record) =
      (⟨search, point, .error failure⟩, state, record) := by
  have next : (search.next fuel oracle.watched box point).run (state, record) =
      (⟨search, point, .error failure⟩, state, record) := by
    simp only [Search.next, refused]
    rfl
  exact run_runFor_of_next oracle.watched box _ next

/-! ## Minimizations that fail -/

variable {m : Nat} {x : Array α} {parameters : Parameters α}

/-- A new search starts where nothing is in its way. -/
theorem enter_create (options : Options α) (n u b : Nat) (point : Array α) :
    (create n u b options).enter point = .error failure ↔
      options.obstacle? n point = some failure := by
  have fresh : (create n u b options).phase = .start := rfl
  have given : (create n u b options).options = options := rfl
  simp only [enter, fresh, given]
  cases options.obstacle? n point with
  | none => simp
  | some failure => simp

/-- What is wrong with the arguments of a minimization ends it before anything is asked. -/
theorem run_minimize_of_obstacle (oracle : Oracle (StateM σ) α n m) (fuel : Nat) (state : σ)
    (obstacle : parameters.options.obstacle? n x = some failure) :
    ∃ journal, (minimize fuel n m x parameters oracle.watched).run (state, #[]) =
      (⟨x, .error failure, journal⟩, state, #[]) := by
  by_cases positive : 0 < n
  case neg =>
    obtain rfl : n = 0 := by omega
    simp only [Options.obstacle?, if_true, Option.some.injEq] at obstacle
    subst obstacle
    simp only [minimize, positive, dif_neg, not_false_eq_true]
    exact ⟨#[], rfl⟩
  by_cases sized : x.size = n
  case neg =>
    have wrong : ¬ Options.ValidStart n x := fun valid => sized valid.1
    simp only [Options.obstacle?, if_neg positive.ne', if_pos wrong, Option.some.injEq] at obstacle
    subst obstacle
    simp only [minimize, positive, dif_pos, sized, if_neg, not_false_eq_true]
    exact ⟨#[], rfl⟩
  have refused := @run_refused _ _ _ _ _ 0 #[] _ _ _ oracle (Box.unbounded n positive) fuel state
    ((enter_create parameters.options n m 0 x).mpr obstacle)
  exact ⟨_, run_minimize_of_run positive sized refused⟩

/-- A minimization whose arguments are in order fails only because of an answer. -/
theorem run_minimize_fails (oracle : Oracle (StateM σ) α n m) (state : σ)
    (clear : parameters.options.obstacle? n x = none)
    (result : ((minimize fuel n m x parameters oracle.watched).run (state, #[])).1.result =
      .error failure) (returned : failure ≠ .outOfFuel) :
    ∃ error, failure = .evaluation error ∧
      FailedAt ((minimize fuel n m x parameters oracle.watched).run (state, #[])).2.2 error := by
  obtain ⟨some, start, -⟩ := (parameters.options.obstacle?_eq_none_iff n x).mp clear
  have positive : 0 < n := Nat.pos_of_ne_zero some
  rcases run : ((create n m 0 parameters.options).run fuel oracle.watched
    (Box.unbounded n positive) x).run (state, #[]) with ⟨step, later, after⟩
  rw [run_minimize_of_run positive start.1 run] at result ⊢
  simp only [Minimization.ofStep] at result
  split at result
  case h_1 => cases result
  case h_2 =>
    cases result
    exact absurd rfl returned
  case h_3 reason failed =>
    cases result
    have nothing : Answered (#[] : Record α n m) :=
      fun _ none => absurd none (Array.not_mem_empty _)
    rcases runFor_fails oracle _ start.1 nothing state run failed returned with
      ⟨refused, -⟩ | answered
    · rw [enter_create, clear] at refused
      cases refused
    · exact answered

/-- A minimization that fails leaves the point of the caller alone. -/
theorem point_of_failed (oracle : Oracle (StateM σ) α n m) (state : σ)
    (result : ((minimize fuel n m x parameters oracle).run state).1.result = .error failure) :
    ((minimize fuel n m x parameters oracle).run state).1.point = x := by
  by_cases positive : 0 < n
  case neg =>
    simp only [minimize, positive, dif_neg, not_false_eq_true]
    rfl
  by_cases sized : x.size = n
  case neg =>
    simp only [minimize, positive, dif_pos, sized, if_neg, not_false_eq_true]
    rfl
  rcases run : ((create n m 0 parameters.options).run fuel oracle (Box.unbounded n positive)
    x).run state with ⟨step, later⟩
  rw [run_minimize_of_run positive sized run] at result ⊢
  simp only [Minimization.ofStep] at result ⊢
  split at result
  case h_1 => cases result
  case h_2 | h_3 => rfl

/-- The failures that are due to the arguments of a minimization. -/
def argumentFailures : List Failure :=
  [.noVariables, .badStart, .badRadii, .badBudget]

theorem mem_argumentFailures {options : Options α}
    (obstacle : options.obstacle? n x = some failure) : failure ∈ argumentFailures := by
  unfold Options.obstacle? at obstacle
  split_ifs at obstacle <;> cases obstacle <;> decide

/-- The arguments are what a minimization fails for whenever they are not in order. -/
theorem result_eq_argument_iff (fuel : Nat) (oracle : Oracle (StateM σ) α n m) (state : σ)
    (argument : failure ∈ argumentFailures) :
    ((minimize fuel n m x parameters oracle.watched).run (state, #[])).1.result =
        .error failure ↔
      parameters.options.obstacle? n x = some failure := by
  cases obstacle : parameters.options.obstacle? n x with
  | some other =>
    obtain ⟨journal, run⟩ := run_minimize_of_obstacle oracle fuel state obstacle
    simp [run]
  | none =>
    refine iff_of_false (fun result => ?_) (by simp)
    have returned : failure ≠ .outOfFuel := by
      rintro rfl
      exact absurd argument (by decide)
    obtain ⟨error, rfl, -⟩ := run_minimize_fails oracle state obstacle result returned
    simp [argumentFailures] at argument

/-- **How a minimization fails.**  In every case the point of the caller stays as it was.  Unless
the turns do not suffice, either nothing has been asked and the arguments are to blame, or the
last answer was an error other than a halt.  The arguments are checked in a fixed order: the
number of variables, the point, the radii, and the number of evaluations. -/
theorem minimize_fails (fuel n m : Nat) (x : Array α) (parameters : Parameters α)
    (oracle : Oracle (StateM σ) α n m) (state : σ) :
    let ended := (minimize fuel n m x parameters oracle.watched).run (state, #[])
    let start := x.size = n ∧ ∀ a ∈ x, Scalar.isFinite a = true
    let radii := 0 < parameters.radiusEnd ∧ parameters.radiusEnd < parameters.radiusBegin ∧
      Scalar.isFinite parameters.radiusBegin = true
    (∀ failure, ended.1.result = .error failure → ended.1.point = x ∧
      (failure ≠ .outOfFuel →
        (ended.2.2.size = 0 ↔ failure ∈ argumentFailures) ∧
        (ended.2.2.size ≠ 0 →
          ∃ error, failure = .evaluation error ∧ FailedAt ended.2.2 error))) ∧
      (ended.1.result = .error .noVariables ↔ n = 0) ∧
      (ended.1.result = .error .badStart ↔ n ≠ 0 ∧ ¬ start) ∧
      (ended.1.result = .error .badRadii ↔ n ≠ 0 ∧ start ∧ ¬ radii) ∧
      (ended.1.result = .error .badBudget ↔
        n ≠ 0 ∧ start ∧ radii ∧ parameters.maxEvaluations < n + 1) := by
  intro ended start radii
  have valid : Options.ValidStart n x ↔ start := by
    simp only [Options.ValidStart, Array.all_eq_true', start]
  have sound : parameters.options.ValidRadii ↔ radii := Iff.rfl
  have due : ∀ failure ∈ argumentFailures, ended.1.result = .error failure ↔
      parameters.options.obstacle? n x = some failure :=
    fun failure => result_eq_argument_iff fuel oracle state
  refine ⟨fun failure result => ⟨point_of_failed _ _ result, fun returned => ?kinds⟩,
    ?none, ?start, ?radii, ?budget⟩
  case kinds =>
    cases obstacle : parameters.options.obstacle? n x with
    | some other =>
      obtain ⟨journal, run⟩ := run_minimize_of_obstacle oracle fuel state obstacle
      obtain rfl : other = failure := by simpa [ended, run] using result
      simp [ended, run, mem_argumentFailures obstacle]
    | none =>
      obtain ⟨error, rfl, failed⟩ := run_minimize_fails oracle state obstacle result returned
      have asked : ended.2.2.size ≠ 0 := fun none =>
        failed.ne_empty (Array.eq_empty_of_size_eq_zero none)
      exact ⟨iff_of_false asked (by simp [argumentFailures]), fun _ => ⟨error, rfl, failed⟩⟩
  case none =>
    rw [due _ (by decide), Options.obstacle?]
    split_ifs <;> simp_all
  case start =>
    rw [due _ (by decide), Options.obstacle?, ← valid]
    split_ifs <;> simp_all
  case radii =>
    rw [due _ (by decide), Options.obstacle?, ← valid, ← sound]
    split_ifs <;> simp_all
  case budget =>
    rw [due _ (by decide), Options.obstacle?, ← valid, ← sound]
    have limit : parameters.options.maxEvaluations = parameters.maxEvaluations := rfl
    split_ifs <;> simp_all

/-! ## A failure on the line -/

/-- A function on the line without values beyond one half. -/
noncomputable def lineWall (x : ℝ) : Except EvalError ℝ :=
  if x ≤ 0.5 then .ok 1 else .error .invalidValue

/-- The second question is answered with an error. -/
theorem minimize_fails_on_line :
    let ended := (minimize 2 1 0 #[0] lineParameters (lineClosure lineWall).watched).run ((), #[])
    ended.1.result = .error (.evaluation .invalidValue) ∧ ended.1.point = #[0] ∧
      ended.2.2.size = 2 ∧ FailedAt ended.2.2 .invalidValue := by
  intro ended
  have first := next_create_on_line lineWall (if_pos (by norm_num))
  have waits : lineOpened.phase = .evaluate (.vertex (.edge 0)) := rfl
  have refuses : lineOracle lineWall lineOpened.point lineOpened.evaluator.buffer =
      (#v[], .error .invalidValue) := by
    refine lineOracle_eq ?_ _
    rw [point_lineOpened]
    exact if_neg (by norm_num [get_eq_getElem])
  have second : (lineOpened.next 2 (lineOracle lineWall).recorded realLine #[0]).run
      #[⟨#v[0], #v[], .ok 1⟩] =
        (⟨lineOpened.counted #v[], #[0], .error (.evaluation .invalidValue)⟩,
          #[⟨#v[0], #v[], .ok 1⟩, ⟨lineOpened.point, #v[], .error .invalidValue⟩]) := by
    rw [next_evaluate waits, ask_failed (by decide) (by decide) refuses]
    rfl
  have run : ((create 1 0 0 lineParameters.options).run 2 (lineClosure lineWall).watched
      (Box.unbounded 1 one_pos) #[0]).run ((), #[]) =
        (⟨lineOpened.counted #v[], #[0], .error (.evaluation .invalidValue)⟩, (),
          #[⟨#v[0], #v[], .ok 1⟩, ⟨lineOpened.point, #v[], .error .invalidValue⟩]) :=
    (run_runFor_of_next _ realLine 1001 (run_next_lineClosure _ _ _ first)).trans
      (run_runFor_of_next _ realLine 1000 (run_next_lineClosure _ _ _ second))
  have made := run_minimize_of_run one_pos rfl run
  have result : ended.1.result = .error (.evaluation .invalidValue) := by
    simp only [ended, made]
    rfl
  have count : ended.2.2.size = 2 := by
    simp only [ended, made]
    rfl
  obtain ⟨fails, -⟩ := minimize_fails 2 1 0 #[0] lineParameters (lineClosure lineWall) ()
  obtain ⟨point, kinds⟩ := fails _ result
  obtain ⟨error, same, failed⟩ := (kinds (by decide)).2 (by rw [count]; decide)
  obtain rfl : EvalError.invalidValue = error := Failure.evaluation.inj same
  exact ⟨result, point, count, failed⟩

end DerivativeFree.Search
