import DerivativeFree.Proofs.Search.Best
import DerivativeFree.Proofs.Search.Calls
import DerivativeFree.Proofs.Search.Samples

/-!
# What an observer sees

The best point is a copy that is published when a call succeeds, but the objective and the
violation that an observer is shown are read from the pole.  The pole has a sample of its
own as soon as a question has been answered with values (`Reached.anchored`).  So the three
belong together after every call that leaves the best point at the pole
(`Reached.observed`), and every call does this unless its question fails after the pole
has been chosen anew.

On the line such a call shows the value of one point together with another point
(`stale_on_line`).
-/

namespace DerivativeFree.Search

set_option autoImplicit false

/-! ## The published point -/

section Published

variable {α : Type} [EuclideanField α] {n u b : Nat} {fuel : Nat} {options : Options α}
  {box : Box α n} {record after : Record α n u} {search next settled : Search α n u b}
  {point : Array α} {oracle : Oracle Id α n u} {step : Step α n u b}

/-- **A call leaves the best point at the pole**, unless its question fails. -/
theorem Called.best (called : Called fuel oracle box search point record step after)
    (reached : Reached options box record search) (sized : point.size = n) :
    (∃ failure, search.enter point = .error failure ∧ step.search = search) ∨
      step.search.best = step.search.simplex.pole ∨
        ∃ error, step.result = .error (.evaluation error) ∧ step.search.best = search.best := by
  cases called with
  | refused entry => exact .inl ⟨_, entry, rfl⟩
  | @closed settled status settles due =>
    obtain ⟨entered, entry, found⟩ := settles
    exact .inr (.inl (((reached.enter _ entry).settle fuel found).published status due))
  | spent => exact .inr (.inl (finish_best ..))
  | @asked settled pending inquiry settles due =>
    right
    simp only [Search.asked]
    split
    case h_1 objective _ =>
      rw [handOut_sized sized]
      exact .inl rfl
    case h_2 =>
      rw [handOut_sized sized]
      exact .inl (finish_best ..)
    case h_3 error _ _ => exact .inr ⟨error, rfl, settles.best due⟩

end Published

/-! ## The sample of the pole -/

variable {α : Type} [EuclideanField α] {n u : Nat} {box : Box α n} {record after : Record α n u}
  {search next : Search α n u box.boundCount} {options : Options α}

/-- Some question has been answered with values. -/
def Informed (record : Record α n u) : Prop :=
  ∃ inquiry ∈ record, ∃ objective, inquiry.answer = .ok objective

omit [EuclideanField α] in
theorem not_informed_of_size {record : Record α n u} (none : record.size = 0) :
    ¬ Informed record := by
  rintro ⟨inquiry, asked, -⟩
  rw [Array.eq_empty_of_size_eq_zero none] at asked
  exact Array.not_mem_empty _ asked

theorem Reached.anchored_of_running (reached : Reached options box record search)
    (opens : OpensWell n record) (informed : Informed record)
    (running : ∀ status, search.phase ≠ .done status) :
    search.simplex.Sampled box record .pole := by
  have consistent := reached.consistent_of_opensWell opens
  have asked : search.evaluations ≠ 0 := fun none =>
    not_informed_of_size (reached.size_record.trans none) informed
  unfold Consistent at consistent
  split at consistent
  case h_1 => exact absurd consistent asked
  case h_2 pending _ =>
    match pending with
    | .vertex .pole => exact absurd consistent.1 asked
    | .vertex (.edge j) => exact consistent.2.2.1
    | .trial plan => exact consistent.2 .pole
  case h_3 | h_4 => exact consistent .pole
  case h_5 status ended => exact absurd ended (running status)

/-- A turn leaves the pole with a sample of its own. -/
theorem Turned.anchored {fuel : Nat} (turned : Turned fuel search next)
    (sampled : ∀ vertex, search.simplex.Sampled box record vertex) :
    next.simplex.Sampled box record .pole := by
  have same : ∀ {other third : Search α n u box.boundCount}, other.Alike third →
      third.simplex.Sampled box record .pole → other.simplex.Sampled box record .pole := by
    rintro other third ⟨journal, rfl⟩ anchored
    exact anchored
  cases turned with
  | iterate _ found =>
    have surveyed : search.surveyed.simplex.Sampled box record .pole :=
      Simplex.Sampled.selectPole sampled search.penalty .pole
    cases iterate_outcome found with
    | spoilt _ _ alike => exact same alike surveyed
    | move _ alike => exact same alike (surveyed.replaceEdge (by simp) _)
    | short _ _ _ alike => exact same alike surveyed
    | weigh _ _ _ weighed =>
      cases weighed with
      | trial _ alike => exact same alike surveyed
      | raised _ _ alike => exact same alike surveyed
      | dethroned _ _ alike => exact same alike surveyed
  | reduce =>
    cases search.reduce_outcome with
    | spared _ alike => exact same alike (sampled .pole)
    | converged _ _ alike => exact same alike (sampled .pole)
    | shrunk _ _ alike => exact same alike (sampled .pole)

omit [EuclideanField α] in
theorem Informed.of_push {inquiry : Inquiry α n u} (informed : Informed (record.push inquiry))
    {error : EvalError} (failed : inquiry.answer = .error error) : Informed record := by
  obtain ⟨earlier, asked, objective, answered⟩ := informed
  rcases Array.mem_push.mp asked with before | rfl
  · exact ⟨earlier, before, objective, answered⟩
  · rw [failed] at answered
    cases answered

/-- **The pole has a sample of its own** once values have been found, unless a question about
the initial simplex has failed. -/
theorem Reached.anchored (reached : Reached options box record search)
    (opens : OpensWell n record) (informed : Informed record) :
    search.simplex.Sampled box record .pole := by
  -- A pending question has been due, and its search was running.
  have running : ∀ {search : Search α n u box.boundCount} {pending : Pending α n},
      search.phase = .evaluate pending → ∀ status, search.phase ≠ .done status := by
    intro search pending due status ended
    rw [due] at ended
    cases ended
  induction reached with
  | create => exact absurd informed (not_informed_of_size rfl)
  | @enter record search entered point reached entry ih =>
    rcases enter_eq entry with ⟨-, rfl⟩ | ⟨-, -, rfl⟩
    · exact ih opens informed
    · exact (reached.enter point entry).anchored_of_running opens informed
        (startAt_underway ..).2
  | iterate fuel reached due found =>
    have sampled := reached.consistent_of_opensWell opens
    simp only [Consistent, due] at sampled
    exact (Turned.iterate due found).anchored sampled
  | @reduce record search reached due =>
    have sampled := reached.consistent_of_opensWell opens
    simp only [Consistent, due] at sampled
    have turned : Turned 0 search search.reduce := .reduce due
    exact turned.anchored sampled
  | @exhaust record search pending reached due =>
    obtain ⟨journal, finished⟩ := search.alike_finish .exhausted
    rw [finished]
    exact reached.anchored_of_running opens informed (running due)
  | answer constraints objective reached due allowed =>
    exact (reached.answer constraints objective due allowed).anchored_of_running opens informed
      (answer_underway _ _).2
  | @halt record search pending constraints reached due =>
    obtain ⟨journal, halted⟩ := search.alike_halted constraints
    rw [halted]
    exact (reached.anchored_of_running opens.of_push (informed.of_push rfl) (running due)).push _
  | fail constraints error other reached due =>
    exact (reached.anchored_of_running opens.of_push (informed.of_push rfl) (running due)).push _
  | reset => exact absurd informed (not_informed_of_size rfl)

/-- **The best point, the objective and the violation that are shown after a call belong to one
question**, which has been asked at that point and answered with that objective, once values
have been found.  This needs that no question about the initial simplex has failed, and if
the question of the call itself has failed, that the pole is still the published point.  A
search that cannot be started and a reset leave all three as they are. -/
theorem Reached.observed (reached : Reached options box record search) (fuel : Nat)
    (oracle : Oracle Id α n u) {point : Array α} (sized : point.size = n)
    {step : Step α n u box.boundCount}
    (called : (search.next fuel oracle.recorded box point).run record = (step, after))
    (returned : step.result ≠ .error .outOfFuel) (opens : OpensWell n after)
    (still : ∀ error, step.result = .error (.evaluation error) →
      step.search.simplex.pole = search.best) :
    (Informed after → ∃ inquiry ∈ after, ∃ sample,
        Explains box inquiry step.search.best sample ∧
          step.search.objective = sample.objective ∧
          step.search.violation = sample.violation) ∧
      (∀ failure, search.enter point = .error failure → step.search = search) ∧
      search.reset.best = search.best ∧ search.reset.objective = search.objective ∧
        search.reset.violation = search.violation := by
  have outcome := next_called sized called returned
  have reaching : Reached options box after step.search := by
    have onwards := reached.next fuel oracle point
    rwa [called] at onwards
  refine ⟨fun informed => ?_, fun failure entry => ?_, rfl, rfl, rfl⟩
  · obtain ⟨inquiry, asked, explains⟩ := reaching.anchored opens informed
    refine ⟨inquiry, asked, step.search.simplex.poleSample, ?_, rfl, rfl⟩
    rcases outcome.best reached sized with ⟨failure, entry, same⟩ | best | ⟨error, failed, best⟩
    · have fresh : search.phase = .start := by
        by_contra started
        rw [Started.enter started] at entry
        cases entry
      have opening : OpensWell n record := by
        rcases outcome.questions with rfl | ⟨inquiry, rfl⟩
        · exact opens
        · exact opens.of_push
      have none := reached.consistent_of_opensWell opening
      simp only [Consistent, fresh] at none
      exact absurd informed (not_informed_of_size (reaching.size_record.trans (same ▸ none)))
    · rw [best]
      exact explains
    · rw [best, ← still error failed]
      exact explains
  · unfold Search.next at called
    rw [entry] at called
    cases called
    rfl

/-! ## Calls on the line -/

/-- The oracle of a function on the line, which may fail. -/
noncomputable def lineOracle (function : ℝ → Except EvalError ℝ) : Oracle Id ℝ 1 0 :=
  fun x constraints => (constraints, function (x.get (Fin.last 0)))

theorem lineOracle_eq {function : ℝ → Except EvalError ℝ} {x : Vector ℝ 1}
    {answer : Except EvalError ℝ} (known : function (x.get 0) = answer)
    (constraints : Vector ℝ 0) : lineOracle function x constraints = (#v[], answer) :=
  Prod.ext Vector.eq_empty known

/-- The first call asks for the value at zero. -/
theorem next_create_on_line (function : ℝ → Except EvalError ℝ) {value : ℝ}
    (known : function 0 = .ok value) :
    ((create 1 0 0 lineOptions).next 2 (lineOracle function).recorded realLine #[0]).run #[] =
      (⟨(lineStart.informed realLine #v[] value).answer (.vertex .pole), #[0], .ok none⟩,
        #[].push ⟨#v[0], #v[], .ok value⟩) := by
  have due : lineStart.phase = .evaluate (.vertex .pole) := rfl
  have answered : lineOracle function lineStart.point lineStart.evaluator.buffer =
      (#v[], .ok value) := lineOracle_eq known _
  have sized : (#[0] : Array ℝ).size = 1 := rfl
  rw [next_enter enter_line, next_evaluate due, ask_answered (by decide) sized answered]
  rfl

/-- The simplex on the line after a trial at two has been better than the pole. -/
noncomputable def lineRisen : Simplex ℝ 1 (0 + 0) where
  edges := .replicate 1 (.replicate 1 1)
  pole := .replicate 1 1
  inverse := .replicate 1 (.replicate 1 1)
  samples := .replicate 1 ⟨.replicate 0 0, -1, 0⟩
  poleSample := ⟨.replicate 0 0, 0, 0⟩

/-- The same with the better vertex as its pole. -/
noncomputable def lineBeyond : Simplex ℝ 1 (0 + 0) where
  edges := .replicate 1 (.replicate 1 (-1))
  pole := .replicate 1 2.0
  inverse := .replicate 1 (.replicate 1 (-1))
  samples := .replicate 1 ⟨.replicate 0 0, 0, 0⟩
  poleSample := ⟨.replicate 0 0, -1, 0⟩

theorem lineSimplex_replaceVertex :
    lineSimplex.replaceVertex 0 #v[1] ⟨#v[], -1, 0⟩ = lineRisen := by
  simp [Simplex.replaceVertex, Simplex.replaceEdge, Simplex.setSample, lineSimplex, lineRisen,
    get_eq_getElem, ofFn_eq_mk]

theorem lineRisen_selectPole : (lineRisen.selectPole 0).1 = lineBeyond := by
  have better : lineRisen.best 0 = .edge 0 := by
    simp [Simplex.best, Fin.foldl_succ, Simplex.betterOf, Simplex.merit, lineRisen,
      Simplex.sample, Sample.merit, get_eq_getElem]
  rw [Simplex.selectPole, better]
  have back : (0 : Vector ℝ 1) - #v[1] = #v[-1] :=
    vector_ext fun i => by fin_cases i; rw [get_sub, get_zero, zero_sub]; rfl
  simp [Simplex.promote, lineRisen, lineBeyond, Simplex.oppositeRow, get_eq_getElem,
    ofFn_eq_mk, Fin.foldl_succ, back]
  norm_num

theorem lineBeyond_gradient :
    ((LinearModel.interpolate lineBeyond).gradients.get 0).get 0 = 1 := by
  simp [LinearModel.interpolate, LinearModel.gradientOf, lineBeyond, dot_eq_sum,
    get_eq_getElem, column, Sample.row]

/-- The search may go on after a trial at two with the value minus one. -/
structure Risen (search : Search ℝ 1 0 0) : Prop where
  options : search.options = lineOptions
  simplex : search.simplex = lineRisen
  radius : search.radius = 1
  penalty : search.penalty = 0
  stepDue : search.stepDue = true
  best : search.best = #v[1]
  phase : search.phase = .iterate

theorem OnLine.rise {search : Search ℝ 1 0 0} (line : search.OnLine 1) :
    ((search.informed realLine #v[] (-1)).answer (.trial ⟨#v[1], 0, 1⟩)).Risen := by
  have reductions := line.reductions #v[] (by norm_num : (-1 : ℝ) ≠ 0)
  rw [neg_neg] at reductions
  cases answer_trial_outcome (search.informed realLine #v[] (-1)) ⟨#v[1], 0, 1⟩ with
  | dropped kept =>
    rw [reductions] at kept
    change search.simplex.replaced search.shape #v[1] search.radius 1 = none at kept
    rw [line.simplex, Simplex.replaced, Option.or_eq_none_iff] at kept
    have small := Shape.greatestAbove_none kept.2 0 rfl
    rw [lineSimplex_volumeFactors one_pos, if_neg (by norm_num)] at small
    norm_num at small
  | @taken j _ alike =>
    rw [reductions, if_pos (by norm_num)] at alike
    obtain ⟨journal, same⟩ := alike
    rw [same]
    refine ⟨line.options, ?_, line.radius, line.penalty, line.stepDue, ?_, rfl⟩
    · change search.simplex.replaceVertex j #v[1]
        (search.informed realLine #v[] (-1)).evaluator.sample = lineRisen
      rw [line.simplex, informed_on_line, Fin.fin_one_eq_zero j, lineSimplex_replaceVertex]
    · change search.simplex.pole = #v[1]
      rw [line.simplex]
      rfl

theorem Risen.iterate {search : Search ℝ 1 0 0} (risen : search.Risen) (fuel : Nat) :
    ∃ next plan, search.iterate (fuel + 1) = some next ∧ next.phase = .evaluate (.trial plan) ∧
      next.point = #v[3] ∧ next.best = #v[1] ∧ next.simplex.pole = #v[2] ∧
      next.objective = -1 := by
  have surveyed : search.surveyed.simplex = lineBeyond := by
    change (search.simplex.selectPole search.penalty).1 = lineBeyond
    rw [risen.simplex, risen.penalty, lineRisen_selectPole]
  have slope : 0 < (search.surveyed.modelled.gradients.get 0).get 0 := by
    rw [modelled, surveyed, lineBeyond_gradient]
    exact one_pos
  have feasible : search.surveyed.violation = 0 := by
    rw [Search.violation, surveyed]
    rfl
  obtain ⟨next, workspace, found, journal, rfl⟩ := iterate_on_line risen.options risen.radius
    one_pos risen.penalty risen.stepDue slope feasible fuel
  refine ⟨_, _, found, rfl, ?_, risen.best, ?_, ?_⟩
  · change search.surveyed.simplex.pole + #v[1] = #v[3]
    rw [surveyed]
    change (#v[2.0] + #v[1] : Vector ℝ 1) = #v[3]
    norm_num
  · change search.surveyed.simplex.pole = #v[2]
    rw [surveyed]
    change (#v[2.0] : Vector ℝ 1) = #v[2]
    norm_num
  · change search.surveyed.simplex.poleSample.objective = -1
    rw [surveyed]
    rfl

/-- A third question about the point at two leads to the better vertex. -/
theorem reached_risen : ∃ (record : Record ℝ 1 0) (search : Search ℝ 1 0 0),
    Reached lineOptions realLine record search ∧ record.size = 3 ∧
      (∀ inquiry ∈ record, ∃ value, inquiry.answer = .ok value) ∧
      search.evaluator.limit = 1000 ∧ search.Risen := by
  obtain ⟨record, complete, reached, size, faithful, due, limit, line⟩ := reached_lineSimplex
  obtain ⟨third, found, tried, -, -, waits, point⟩ := line.iterate one_pos 0
  have counted : third.evaluator = complete.evaluator := iterate_evaluator found
  have allowed : third.evaluator.evaluations < third.evaluator.limit := by
    rw [counted, limit]
    exact (reached.size_record.symm.trans size).trans_lt (by norm_num)
  refine ⟨_, _, (reached.iterate 1 due found).answer #v[] (-1) waits allowed, ?_, ?_, ?_,
    tried.rise⟩
  · rw [Array.size_push, size]
  · intro inquiry asked
    rcases Array.mem_push.mp asked with before | rfl
    · exact ⟨_, faithful inquiry before⟩
    · exact ⟨_, rfl⟩
  · rw [answer_evaluator]
    change third.evaluator.limit = 1000
    rw [counted, limit]

/-- The answer to a trial leaves the pole where it is, and publishes it. -/
theorem answer_trial_pole {α : Type} [Scalar α] {n u b : Nat} (search : Search α n u b)
    (plan : Plan α n) :
    (search.answer (.trial plan)).best = search.simplex.pole ∧
      (search.answer (.trial plan)).objective = search.objective := by
  cases answer_trial_outcome search plan with
  | dropped _ alike =>
    obtain ⟨journal, same⟩ := alike
    rw [same]
    exact ⟨rfl, rfl⟩
  | taken _ alike =>
    obtain ⟨journal, same⟩ := alike
    rw [same]
    exact ⟨rfl, rfl⟩

/-- The next call of such a search moves the pole to two, and asks for the value at three. -/
theorem Risen.called {search : Search ℝ 1 0 0} (risen : search.Risen)
    (allowed : search.evaluator.evaluations < search.evaluator.limit)
    (function : ℝ → Except EvalError ℝ) {value : ℝ} (known : function 3 = .ok value)
    (record : Record ℝ 1 0) : ∃ next,
      (search.next 2 (lineOracle function).recorded realLine #[1]).run record =
        (⟨next, next.best.toArray, .ok none⟩, record.push ⟨#v[3], #v[], .ok value⟩) ∧
      next.best = #v[2] ∧ next.objective = -1 := by
  obtain ⟨tried, plan, found, waits, point, -, pole, objective⟩ := risen.iterate 1
  have counted : tried.evaluator = search.evaluator := iterate_evaluator found
  have answered : lineOracle function tried.point tried.evaluator.buffer = (#v[], .ok value) := by
    rw [point]
    exact lineOracle_eq known _
  obtain ⟨best, shown⟩ := answer_trial_pole (tried.informed realLine #v[] value) plan
  refine ⟨_, ?_, best.trans pole, shown.trans objective⟩
  rw [next_iterate risen.phase found waits, ← point]
  exact ask_answered (counted ▸ allowed) rfl answered

/-- A third question that fails leaves the pole at the published point. -/
theorem next_lineComplete {error : EvalError} (other : error ≠ .halt) : ∃ next,
    (lineComplete.next 2 (lineOracle fun _ => .error error).recorded realLine #[1]).run
        lineRecord =
      (⟨next, #[1], .error (.evaluation error)⟩,
        lineRecord.push ⟨#v[1 + 1], #v[], .error error⟩) ∧
      next.simplex.pole = lineComplete.best := by
  have complete : lineComplete.phase = .iterate := rfl
  obtain ⟨tried, found, line, -, -, waits, point⟩ := onLine_lineComplete.iterate one_pos 1
  have allowed : tried.evaluator.evaluations < tried.evaluator.limit := by
    rw [iterate_evaluator found]
    decide
  refine ⟨tried.counted #v[], ?_,
    congrArg Simplex.pole (line.simplex.trans onLine_lineComplete.simplex.symm)⟩
  rw [next_iterate complete found waits, ← point]
  exact ask_failed allowed other (lineOracle_eq rfl _)

/-- A fourth call chooses the vertex at two as its pole and shows it with its value.  A third call
whose question fails goes on showing the vertex at one, which is still the pole. -/
theorem observed_on_line :
    (∃ (record after : Record ℝ 1 0) (search : Search ℝ 1 0 0) (step : Step ℝ 1 0 0),
      Reached lineOptions realLine record search ∧ search.best = #v[1] ∧
      (search.next 2 (lineOracle fun x => .ok (1 - x)).recorded realLine #[1]).run record =
        (step, after) ∧
      step.result = .ok none ∧ step.search.best = #v[2] ∧ step.search.objective = -1 ∧
      ∃ inquiry ∈ after, ∃ sample, Explains realLine inquiry step.search.best sample ∧
        step.search.objective = sample.objective ∧ step.search.violation = sample.violation) ∧
    ∃ (record after : Record ℝ 1 0) (search : Search ℝ 1 0 0) (step : Step ℝ 1 0 0),
      Reached lineOptions realLine record search ∧
      (search.next 2 (lineOracle fun _ => .error .invalidValue).recorded realLine #[1]).run record =
        (step, after) ∧
      step.result = .error (.evaluation .invalidValue) ∧
      step.search.simplex.pole = search.best ∧
      ∃ inquiry ∈ after, ∃ sample, Explains realLine inquiry step.search.best sample ∧
        step.search.objective = sample.objective ∧ step.search.violation = sample.violation := by
  have sized : (#[1] : Array ℝ).size = 1 := rfl
  constructor
  · obtain ⟨record, search, reached, size, answered, limit, risen⟩ := reached_risen
    have allowed : search.evaluator.evaluations < search.evaluator.limit := by
      rw [limit]
      exact (reached.size_record.symm.trans size).trans_lt (by norm_num)
    obtain ⟨next, called, best, objective⟩ :=
      risen.called allowed (fun x => .ok (1 - x)) rfl record
    have opens := (opensWell_of_clean (clean_of_answered answered)).push
      (by omega : 1 < record.size) ⟨#v[3], #v[], .ok (1 - 3)⟩
    have observed := reached.observed 2 _ sized called nofun opens nofun
    exact ⟨record, _, search, _, reached, risen.best, called, rfl, best, objective,
      observed.1 ⟨_, Array.mem_push_self, _, rfl⟩⟩
  · have other : EvalError.invalidValue ≠ .halt := by decide
    obtain ⟨next, called, still⟩ := next_lineComplete other
    have clean := clean_of_answered fun inquiry asked => ⟨_, faithful_lineRecord inquiry asked⟩
    have opens := (opensWell_of_clean clean).push Nat.one_lt_two
      ⟨#v[1 + 1], #v[], .error .invalidValue⟩
    have observed :=
      reached_lineComplete.observed 2 _ sized called nofun opens fun _ _ => still
    have informed : Informed lineRecord :=
      ⟨_, Array.mem_toList_iff.mp List.mem_cons_self, 1, rfl⟩
    obtain ⟨inquiry, asked, value, known⟩ := informed
    exact ⟨_, _, lineComplete, _, reached_lineComplete, called, rfl, still,
      observed.1 ⟨inquiry, Array.mem_push_of_mem _ asked, value, known⟩⟩

/-! ## The value of another point -/

/-- The function `1 - x`, which is not known beyond two and a half. -/
noncomputable def lineSlope (x : ℝ) : Except EvalError ℝ :=
  if x ≤ 2.5 then .ok (1 - x) else .error .invalidValue

/-- **The best point and the values that are shown may belong to different points.**  The
fourth question on the line fails after the pole has moved to two, where the value is minus
one.  The best point stays at one, where the value is zero. -/
theorem stale_on_line :
    ∃ step : Step ℝ 1 0 0,
      ((create 1 0 0 lineOptions).runFor 2 (lineOracle lineSlope).recorded realLine 4 #[0]).run
        #[] = (step, #[⟨#v[0], #v[], .ok 1⟩, ⟨#v[1], #v[], .ok 0⟩, ⟨#v[2], #v[], .ok (-1)⟩,
          ⟨#v[3], #v[], .error .invalidValue⟩]) ∧
      step.result = .error (.evaluation .invalidValue) ∧
      step.search.best = #v[1] ∧ step.search.objective = -1 := by
  have sized : ∀ x : Vector ℝ 1, x.toArray.size = 1 := fun x => x.size_toArray
  have known : ∀ x ≤ (2.5 : ℝ), lineSlope x = .ok (1 - x) := fun x near => if_pos near
  -- The first two questions set up the simplex.
  have first := next_create_on_line lineSlope (known 0 (by norm_num))
  have answered₁ : lineOracle lineSlope lineOpened.point lineOpened.evaluator.buffer =
      (#v[], .ok 0) := by
    rw [point_lineOpened]
    refine lineOracle_eq ((known 1 (by norm_num)).trans ?_) _
    rw [sub_self]
  have waits : lineOpened.phase = .evaluate (.vertex (.edge 0)) := rfl
  have line := onLine_lineComplete
  have complete : lineComplete.phase = .iterate := rfl
  -- The third one is about the point at two.
  obtain ⟨third, found₂, tried, -, -, due₂, point₂⟩ := line.iterate one_pos 1
  have counted₂ : third.evaluator = lineComplete.evaluator := iterate_evaluator found₂
  have answered₂ : lineOracle lineSlope third.point third.evaluator.buffer =
      (#v[], .ok (-1)) := by
    rw [point₂]
    refine lineOracle_eq ((known (1 + 1) (by norm_num)).trans ?_) _
    norm_num
  -- The fourth one is about the point at three.
  have risen := tried.rise
  obtain ⟨fourth, plan, found₃, due₃, point₃, best, -, objective⟩ := risen.iterate 1
  have counted₃ : fourth.evaluator = (third.informed realLine #v[] (-1)).evaluator :=
    (iterate_evaluator found₃).trans (answer_evaluator _ _)
  have answered₃ : lineOracle lineSlope fourth.point fourth.evaluator.buffer =
      (#v[], .error .invalidValue) := by
    rw [point₃]
    exact lineOracle_eq (if_neg (by norm_num [get_eq_getElem])) _
  have allowed : fourth.evaluator.evaluations < fourth.evaluator.limit := by
    rw [counted₃]
    change third.evaluator.evaluations + 1 < third.evaluator.limit
    rw [counted₂]
    decide
  -- The calls in a row.
  refine ⟨⟨fourth.counted #v[], #[1], .error (.evaluation .invalidValue)⟩, ?_, rfl, best,
    objective⟩
  rw [runFor_further first, sub_zero]
  refine (runFor_answered (next_evaluate waits) (by decide) rfl answered₁).trans ?_
  refine (runFor_answered (next_iterate complete found₂ due₂) (by rw [counted₂]; decide)
    (sized _) answered₂).trans ?_
  refine runFor_failed ?_
  rw [next_iterate risen.phase found₃ due₃]
  refine (ask_failed allowed (by decide) answered₃).trans ?_
  rw [point_lineOpened, point₂, point₃, risen.best]
  norm_num

end DerivativeFree.Search
