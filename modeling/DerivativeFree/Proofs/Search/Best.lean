import DerivativeFree.Proofs.Interpolation.Pole
import DerivativeFree.Proofs.Search.Inverse
import DerivativeFree.Proofs.Search.Turns
import DerivativeFree.Proofs.TrustRegion.Descent

/-!
# The point that is handed out at the end

At the end a search hands out its pole.  The pole is made the best vertex at the start of
every iteration, and until the next answer it stays the best one under the penalty in
force (`Poled`).  An answer can change that: a trial point that is better than the pole,
though by less than a tenth of what was promised, goes into the simplex without becoming
the pole, and the radius is to be reduced next (`Lagging`).

Most of the time the reduction leads to an iteration, which makes up for it.  It does not if
the radius is the final one already and the shape acceptable.  Then the search ends with
the old pole, and a strictly better vertex of its simplex is overlooked.
`Reached.poleBest_iff` says that this is the only way in which it can happen.
-/

namespace DerivativeFree.Search

set_option autoImplicit false

variable {α : Type} [EuclideanField α] {n u b : Nat} {search next settled : Search α n u b}

/-! ## The invariant -/

/-- The pole is the best vertex of the simplex. -/
def PoleBest (search : Search α n u b) : Prop :=
  search.simplex.PoleBest search.penalty

/-- The pole is the best vertex, wherever the phase relies on it. -/
def Poled (search : Search α n u b) : Prop :=
  match search.phase with
  | .start | .evaluate (.vertex .pole) => search.evaluations = 0
  | .iterate => True
  | .evaluate (.vertex (.edge _)) => n < search.evaluations → search.PoleBest
  | .evaluate (.trial _) | .reduce | .done _ => search.PoleBest

/-- The radius is to be reduced after an answer, and only the sample of that answer can be
better than the pole. -/
def Lagging (search : Search α n u b) : Prop :=
  search.phase = .reduce ∧
    ∀ j, search.simplex.merit search.penalty (.edge j) <
        search.simplex.merit search.penalty .pole →
      search.simplex.sample (.edge j) = search.evaluator.sample

theorem Alike.poled {other : Search α n u b} (alike : search.Alike other)
    (poled : other.Poled) : search.Poled := by
  obtain ⟨journal, rfl⟩ := alike
  exact poled

theorem Alike.lagging {other : Search α n u b} (alike : search.Alike other)
    (lagging : other.Lagging) : search.Lagging := by
  obtain ⟨journal, rfl⟩ := alike
  exact lagging

/-! ## Moves -/

theorem Poled.enter (poled : search.Poled) {point : Array α}
    (entry : search.enter point = .ok next) : next.Poled := by
  rcases enter_eq entry with ⟨-, rfl⟩ | ⟨fresh, -, rfl⟩
  · exact poled
  · simp only [Poled, fresh] at poled
    exact (alike_startAt ..).poled poled

/-- **An iteration makes the pole the best vertex**, whatever it was before. -/
theorem poled_iterate {fuel : Nat} (found : search.iterate fuel = some next) : next.Poled := by
  have best : search.surveyed.PoleBest := search.simplex.poleBest_selectPole search.penalty
  cases iterate_outcome found with
  | spoilt _ _ alike => exact alike.poled best
  | @move j _ alike =>
    exact alike.poled fun _ => Simplex.PoleBest.replaceEdge best j _
  | short _ _ _ alike => exact alike.poled best
  | weigh journal _ _ weighed =>
    cases weighed with
    | trial _ alike => exact alike.poled best
    | raised _ kept alike => exact alike.poled (Simplex.poleBest_of_not_dethroned kept)
    | dethroned _ _ alike => exact alike.poled trivial

theorem Poled.reduce (poled : search.Poled) (due : search.phase = .reduce) :
    search.reduce.Poled := by
  simp only [Poled, due] at poled
  cases search.reduce_outcome with
  | spared _ alike => exact alike.poled trivial
  | converged _ _ alike => exact alike.poled poled
  | shrunk _ _ alike => exact alike.poled trivial

theorem Poled.turned {fuel : Nat} (poled : search.Poled) (turned : Turned fuel search next) :
    next.Poled := by
  cases turned with
  | iterate _ found => exact poled_iterate found
  | reduce due => exact poled.reduce due

theorem Poled.settle {fuel turns : Nat} (poled : search.Poled)
    (found : search.settle fuel turns = some settled) : settled.Poled :=
  settle_keeps (fun turned poled => poled.turned turned) poled found

theorem answer_poled_or_lagging {pending : Pending α n} (poled : search.Poled)
    (due : search.phase = .evaluate pending) {box : Box α n} (constraints : Vector α u)
    (objective : α) :
    ((search.informed box constraints objective).answer pending).Poled ∨
      ((search.informed box constraints objective).answer pending).Lagging := by
  cases pending with
  | vertex vertex =>
    refine .inl ?_
    cases answer_vertex_outcome (search.informed box constraints objective) vertex with
    | vertex j early alike =>
      exact alike.poled fun late => absurd late (not_lt.mpr (early ▸ j.isLt))
    | complete _ alike => exact alike.poled trivial
  | trial plan =>
    simp only [Poled, due] at poled
    cases answer_trial_outcome (search.informed box constraints objective) plan with
    | dropped _ alike => exact .inl (alike.poled poled)
    | taken _ alike =>
      split at alike
      · exact .inl (alike.poled trivial)
      · refine .inr (alike.lagging ⟨rfl, fun k better => ?_⟩)
        exact Simplex.PoleBest.replaceVertex poled better

/-! ## Reached states -/

theorem status?_eq_none_iff : search.status? = none ↔ ∀ status, search.phase ≠ .done status := by
  unfold status?
  split
  case h_1 status due => simp [due]
  case h_2 other => exact ⟨fun _ status due => other status due, fun _ => rfl⟩

theorem not_running_of_alike {other : Search α n u b} {status : Status}
    (alike : search.Alike other) (ended : other.phase = .done status) : search.status? ≠ none := by
  obtain ⟨journal, rfl⟩ := alike
  exact fun running => status?_eq_none_iff.mp running status ended

/-- **A search that goes on is poled or lagging**, unless a question has failed. -/
theorem Reached.poled_or_lagging {options : Options α} {box : Box α n} {record : Record α n u}
    (reached : Reached options box record search)
    (clean : ∀ inquiry ∈ record, ∀ error, inquiry.answer = .error error → error = .halt)
    (running : search.status? = none) : search.Poled ∨ search.Lagging := by
  induction reached with
  | create => exact .inl rfl
  | @enter record search entered point _ entry ih =>
    rcases enter_eq entry with ⟨-, rfl⟩ | ⟨fresh, -, rfl⟩
    · exact ih clean running
    · rcases ih clean (by simp [status?, fresh]) with poled | lagging
      · exact .inl (poled.enter entry)
      · rw [lagging.1] at fresh
        cases fresh
  | iterate _ _ _ found => exact .inl (poled_iterate found)
  | @reduce _ search _ due ih =>
    rcases ih clean (by simp [status?, due]) with poled | lagging
    · exact .inl (poled.reduce due)
    · refine .inl ?_
      cases search.reduce_outcome with
      | spared _ alike => exact alike.poled trivial
      | converged _ _ alike => exact absurd running (not_running_of_alike alike rfl)
      | shrunk _ _ alike => exact alike.poled trivial
  | exhaust => exact absurd running (not_running_of_alike (alike_finish ..) rfl)
  | answer constraints objective _ due _ ih =>
    have before := ih (fun inquiry asked => clean inquiry (Array.mem_push.mpr (.inl asked)))
      (by simp [status?, due])
    rcases before with poled | lagging
    · exact answer_poled_or_lagging poled due constraints objective
    · rw [lagging.1] at due
      cases due
  | halt => exact absurd running (not_running_of_alike (alike_halted ..) rfl)
  | fail constraints error other => exact absurd (clean _ Array.mem_push_self error rfl) other
  | reset => exact .inl rfl

/-! ## The end -/

/-- Where a search that has been set up is at rest, its pole is the best vertex. -/
theorem Poled.best (poled : search.Poled) (late : n < search.evaluations)
    (rests : search.phase ≠ .iterate ∧ search.phase ≠ .reduce) : search.PoleBest := by
  have begun : search.evaluations ≠ 0 := Nat.ne_zero_of_lt late
  unfold Poled at poled
  split at poled
  case h_1 => exact absurd poled begun
  case h_2 => exact absurd poled begun
  case h_3 due => exact absurd due rests.1
  case h_4 => exact poled late
  case h_5 => exact poled
  case h_6 => exact poled
  case h_7 => exact poled

theorem Ended.poleBest {status : Status} {ended : Search α n u b}
    (finished : Ended settled status ended) (poled : settled.Poled)
    (complete : n < settled.evaluations) : ended.PoleBest := by
  have rests : settled.phase ≠ .iterate ∧ settled.phase ≠ .reduce := by
    cases finished with
    | settled due | exhausted due | halted due => simp [due]
  rw [PoleBest, finished.simplex.1, finished.simplex.2]
  exact poled.best complete rests

/-- The search is about to end although its last sample, which has gone into the simplex,
is better than the pole. -/
def Overlooks (search : Search α n u b) : Prop :=
  search.phase = .reduce ∧ search.acceptable = true ∧
    search.radius ≤ search.options.radiusEnd ∧
    ∃ j, search.simplex.sample (.edge j) = search.evaluator.sample ∧
      search.simplex.merit search.penalty (.edge j) < search.simplex.merit search.penalty .pole

theorem Poled.not_overlooks (poled : search.Poled) : ¬ search.Overlooks := by
  rintro ⟨due, -, -, j, -, better⟩
  simp only [Poled, due] at poled
  exact absurd better (not_lt.mpr (poled j))

/-- A lagging search settles with the best vertex as its pole, or it ends where it is. -/
theorem Lagging.settle {fuel turns : Nat} (lagging : search.Lagging)
    (found : search.settle fuel turns = some settled) :
    settled.Poled ∧ ¬ search.Overlooks ∨
      search.acceptable = true ∧ search.radius ≤ search.options.radiusEnd ∧
        settled = search.finish .converged := by
  obtain ⟨due, -⟩ := lagging
  cases turns with
  | zero => cases found
  | succ turns =>
    simp only [Search.settle, due] at found
    unfold Search.reduce at found
    split at found
    case isTrue bad =>
      have poled : ({ search with stepDue := false, phase := .iterate } :
          Search α n u b).Poled := trivial
      exact .inl ⟨poled.settle found, fun overlooks => bad overlooks.2.1⟩
    case isFalse good =>
      split at found
      case isTrue final =>
        refine .inr ⟨not_not.mp good, final, ?_⟩
        obtain ⟨journal, finished⟩ := search.alike_finish .converged
        rw [finished] at found ⊢
        cases turns with
        | zero => cases found
        | succ turns =>
          simp only [Search.settle] at found
          exact (Option.some.inj found).symm
      case isFalse further =>
        exact .inl ⟨Poled.settle ((alike_shrink search).poled trivial) found,
          fun overlooks => further overlooks.2.2.1⟩

theorem Lagging.poleBest_iff_not_overlooks (lagging : search.Lagging)
    (acceptable : search.acceptable = true) (final : search.radius ≤ search.options.radiusEnd) :
    search.PoleBest ↔ ¬ search.Overlooks := by
  constructor
  · rintro best ⟨-, -, -, j, -, better⟩
    exact absurd better (not_lt.mpr (best j))
  · intro attentive j
    by_contra better
    have less := not_le.mp better
    exact attentive ⟨lagging.1, acceptable, final, j, lagging.2 j less, less⟩

/-! ## A sample that is overlooked -/

/-- On the line an iteration that is due to try a step, and without a penalty, plans a step of
the length of the radius against the slope of the objective. -/
theorem iterate_on_line {search : Search ℝ 1 0 0} {radius : ℝ}
    (options : search.options = lineOptions) (size : search.radius = radius) (valid : 0 < radius)
    (free : search.penalty = 0) (due : search.stepDue = true)
    (slope : 0 < (search.surveyed.modelled.gradients.get 0).get 0)
    (feasible : search.surveyed.violation = 0) (fuel : Nat) :
    ∃ next workspace, search.iterate (fuel + 1) = some next ∧ next.Alike { search.surveyed with
      workspace
      point := search.surveyed.simplex.pole + #v[radius]
      stepDue := true
      phase := .evaluate (.trial
        (search.surveyed.promise search.surveyed.modelled 0 #v[radius])) } := by
  obtain ⟨workspace, solved, step⟩ := search.workspace.solve_on_line
    search.surveyed.modelled slope (size ▸ valid) fuel
  rw [size] at step
  obtain ⟨next, found⟩ := Option.isSome_iff_exists.mp (iterate_isSome (by rw [solved]; rfl))
  have penalty : search.surveyed.penalty = 0 := free
  have low : ¬ search.surveyed.penalty <
      1.5 * search.surveyed.penaltyFor search.surveyed.modelled #v[radius] := by
    have predicted : search.surveyed.modelled.predictedViolation #v[radius] = 0 := by
      simp [LinearModel.predictedViolation, largestFrom, Fin.foldl_zero]
    rw [penaltyFor, feasible, predicted, sub_zero, penaltyNeeded, if_neg (lt_irrefl 0), penalty]
    norm_num
  refine ⟨next, workspace, found, ?_⟩
  cases iterate_outcome found with
  | spoilt strict =>
    rw [options] at strict
    cases strict
  | move given =>
    have placed : search.surveyed.misplaced = none := by
      simp [misplaced, surveyed, assess, due]
    rw [placed] at given
    cases given
  | short _ other =>
    rw [solved] at other
    cases other
  | weigh _ _ same weighed =>
    rw [solved] at same
    cases same
    rw [step] at weighed
    cases weighed with
    | raised given => exact absurd given low
    | dethroned given => exact absurd given low
    | trial _ alike =>
      obtain ⟨journal, rfl⟩ := alike
      change Search.Alike { search.surveyed with
        workspace
        point := search.surveyed.simplex.pole + #v[radius]
        stepDue := true
        phase := .evaluate (.trial (search.surveyed.promise search.surveyed.modelled
          search.surveyed.penalty #v[radius]))
        journal } _
      rw [penalty]
      exact ⟨journal, rfl⟩

/-- A simplex on the line: the pole lies at one and has the value zero, the other vertex lies
at zero and has the value one. -/
noncomputable def lineSimplex : Simplex ℝ 1 (0 + 0) where
  edges := #v[#v[-1]]
  pole := #v[1]
  inverse := #v[#v[-1]]
  samples := #v[⟨#v[], 1, 0⟩]
  poleSample := ⟨#v[], 0, 0⟩

/-- A search on the line with this simplex that is due to try a step. -/
structure OnLine (search : Search ℝ 1 0 0) (radius : ℝ) : Prop where
  options : search.options = lineOptions
  simplex : search.simplex = lineSimplex
  radius : search.radius = radius
  penalty : search.penalty = 0
  stepDue : search.stepDue = true

/-- The pole of a simplex on the line stays if its objective is the lesser one. -/
theorem selectPole_of_lower {k : Nat} {simplex : Simplex ℝ 1 k}
    (lower : simplex.poleSample.objective < (simplex.samples.get 0).objective) :
    simplex.selectPole 0 = (simplex, none) := by
  apply Simplex.selectPole_of_not_dethroned
  simp [Simplex.dethroned, Simplex.merit, Simplex.winsTie, Simplex.sample, Sample.merit,
    List.finRange_succ, lower.le, lower.ne']

theorem lineSimplex_selectPole : (lineSimplex.selectPole 0).1 = lineSimplex := by
  rw [selectPole_of_lower (one_pos : (0 : ℝ) < 1)]

theorem lineSimplex_shape : Shape.of lineSimplex = ⟨#v[1], #v[1]⟩ := by
  have one : Scalar.sqrt (1 : ℝ) = 1 := sqrt_eq_of_mul_self zero_le_one (mul_one 1)
  simp [Shape.of, lineSimplex, dot_eq_sum, get_eq_getElem, one]

theorem lineSimplex_gradient :
    ((LinearModel.interpolate lineSimplex).gradients.get 0).get 0 = 1 := by
  simp [LinearModel.interpolate, LinearModel.gradientOf, lineSimplex, dot_eq_sum,
    get_eq_getElem, column, Sample.row]

theorem lineSimplex_volumeFactors {radius : ℝ} (valid : 0 < radius) (j : Fin 1) :
    (lineSimplex.volumeFactors #v[radius]).get j = radius := by
  rw [Simplex.volumeFactors, get_map, Fin.fin_one_eq_zero j, dot_eq_sum, Fin.sum_univ_one]
  simp [lineSimplex, get_eq_getElem, abs_of_pos valid]

namespace OnLine

variable {search : Search ℝ 1 0 0} {radius : ℝ}

theorem surveyed_simplex (line : search.OnLine radius) :
    search.surveyed.simplex = lineSimplex := by
  change (search.simplex.selectPole search.penalty).1 = lineSimplex
  rw [line.simplex, line.penalty, lineSimplex_selectPole]

/-- The model promises that a step to the right lowers the objective by its length. -/
theorem promise (line : search.OnLine radius) :
    search.surveyed.promise search.surveyed.modelled 0 #v[radius] = ⟨#v[radius], 0, radius⟩ := by
  have slope : search.surveyed.modelled.slope (Fin.last 0) #v[radius] = radius := by
    rw [modelled, line.surveyed_simplex, LinearModel.slope, dot_eq_sum, Fin.sum_univ_one]
    exact (congrArg (radius * ·) lineSimplex_gradient).trans (mul_one radius)
  have violation : search.surveyed.violation = 0 := by
    rw [Search.violation, line.surveyed_simplex]
    rfl
  have predicted : search.surveyed.modelled.predictedViolation #v[radius] = 0 := by
    simp [LinearModel.predictedViolation, largestFrom, Fin.foldl_zero]
  have increase : search.surveyed.modelled.predictedIncrease #v[radius] = -radius := by
    rw [LinearModel.predictedIncrease, ← zero_sub]
    exact congrArg (0 - ·) slope
  simp [Search.promise, violation, predicted, increase]

theorem slope_pos (line : search.OnLine radius) :
    0 < (search.surveyed.modelled.gradients.get 0).get 0 := by
  rw [modelled, line.surveyed_simplex, lineSimplex_gradient]
  exact one_pos

/-- An iteration plans a step to the right. -/
theorem iterate (line : search.OnLine radius) (valid : 0 < radius) (fuel : Nat) :
    ∃ next, search.iterate (fuel + 1) = some next ∧ next.OnLine radius ∧
      next.shape = Shape.of lineSimplex ∧ next.acceptable = search.surveyed.acceptable ∧
      next.phase = .evaluate (.trial ⟨#v[radius], 0, radius⟩) ∧ next.point = #v[1 + radius] := by
  have feasible : search.surveyed.violation = 0 := by
    rw [Search.violation, line.surveyed_simplex]
    rfl
  obtain ⟨next, workspace, found, journal, rfl⟩ := iterate_on_line line.options line.radius valid
    line.penalty line.stepDue line.slope_pos feasible fuel
  refine ⟨_, found, ⟨line.options, line.surveyed_simplex, line.radius, line.penalty, rfl⟩, ?_, rfl,
    ?_, ?_⟩
  · exact congrArg Shape.of line.surveyed_simplex
  · change Phase.evaluate (.trial (search.surveyed.promise search.surveyed.modelled 0
      #v[radius])) = _
    rw [line.promise]
  · change search.surveyed.simplex.pole + #v[radius] = _
    rw [line.surveyed_simplex]
    exact vector_ext fun i => by simp [lineSimplex, get_eq_getElem]

theorem reductions (line : search.OnLine radius) (constraints : Vector ℝ 0) {objective : ℝ}
    (other : objective ≠ 0) :
    (search.informed realLine constraints objective).reductions ⟨#v[radius], 0, radius⟩ =
      (-objective, radius) := by
  have pole : search.simplex.poleSample = ⟨#v[], 0, 0⟩ := by
    rw [line.simplex]
    rfl
  simp [Search.reductions, informed, line.penalty, Search.objective, pole,
    Evaluator.sampleAt, other, Sample.merit]

/-- A trial at distance one that is worse than the pole is dropped. -/
theorem drop (line : search.OnLine 1) (shape : search.shape = Shape.of lineSimplex)
    (constraints : Vector ℝ 0) {objective : ℝ} (worse : 0 < objective)
    {next : Search ℝ 1 0 0}
    (answered : (search.informed realLine constraints objective).answer
      (.trial ⟨#v[1], 0, 1⟩) = next) :
    next.OnLine 1 ∧ next.phase = .reduce ∧ next.acceptable = search.acceptable := by
  have fails : -objective ≤ 0 := neg_nonpos.mpr worse.le
  have outcome := answer_trial_outcome (search.informed realLine constraints objective)
    ⟨#v[1], 0, 1⟩
  rw [answered] at outcome
  cases outcome with
  | dropped _ alike =>
    obtain ⟨journal, rfl⟩ := alike
    exact ⟨⟨line.options, line.simplex, line.radius, line.penalty, line.stepDue⟩, rfl, rfl⟩
  | @taken j replaced =>
    rw [line.reductions constraints worse.ne'] at replaced
    change search.simplex.replaced search.shape #v[1] search.radius (-objective) = some j
      at replaced
    rw [line.simplex, shape, line.radius, Simplex.replaced, Option.or_eq_some_iff,
      decide_eq_false (not_lt.mpr fails)] at replaced
    rcases replaced with far | ⟨-, flat⟩
    · have above := (Shape.greatestAbove_some far).2
      rw [Fin.fin_one_eq_zero j, lineSimplex_shape, Shape.farFactor] at above
      norm_num [get_eq_getElem] at above
    · have above := (Shape.greatestAbove_some flat).2
      rw [lineSimplex_volumeFactors one_pos, if_pos fails] at above
      exact absurd above (lt_irrefl 1)

/-- A trial that is a little better than the pole goes into the simplex and is overlooked. -/
theorem take (line : search.OnLine (1 / 2)) (acceptable : search.acceptable = true)
    (constraints : Vector ℝ 0) {objective : ℝ} (better : objective < 0)
    (little : -objective < 0.1 * (1 / 2)) {next : Search ℝ 1 0 0}
    (answered : (search.informed realLine constraints objective).answer
      (.trial ⟨#v[1 / 2], 0, 1 / 2⟩) = next) : next.Overlooks := by
  have reductions := line.reductions constraints better.ne
  have outcome := answer_trial_outcome (search.informed realLine constraints objective)
    ⟨#v[1 / 2], 0, 1 / 2⟩
  rw [answered] at outcome
  cases outcome with
  | dropped kept =>
    rw [reductions] at kept
    change search.simplex.replaced search.shape #v[1 / 2] search.radius (-objective) = none at kept
    rw [line.simplex, Simplex.replaced, Option.or_eq_none_iff] at kept
    have small := Shape.greatestAbove_none kept.2 0 rfl
    rw [lineSimplex_volumeFactors (by norm_num), if_neg (by linarith)] at small
    norm_num at small
  | @taken j _ alike =>
    rw [reductions, if_neg fun fair => absurd fair.2 (not_le.mpr little)] at alike
    obtain ⟨journal, rfl⟩ := alike
    have final : search.radius ≤ search.options.radiusEnd := by
      rw [line.radius, line.options, lineOptions]
    have own := Simplex.sample_setSample_self (search.simplex.replaceEdge j #v[1 / 2])
      (.edge j) (search.informed realLine constraints objective).evaluator.sample
    refine ⟨rfl, acceptable, final, j, own, ?_⟩
    have pole : search.simplex.poleSample.objective = 0 := by
      rw [line.simplex]
      rfl
    have merit : ((search.simplex.replaceEdge j #v[1 / 2]).setSample (.edge j)
        (search.informed realLine constraints objective).evaluator.sample).merit search.penalty
          (.edge j) = objective := by
      rw [Simplex.merit, own, Sample.merit, line.penalty, zero_mul, add_zero]
      rfl
    have least : ((search.simplex.replaceEdge j #v[1 / 2]).setSample (.edge j)
        (search.informed realLine constraints objective).evaluator.sample).merit search.penalty
          .pole = 0 := by
      rw [Simplex.merit, Sample.merit, line.penalty, zero_mul, add_zero]
      exact pole
    exact merit.trans_lt (better.trans_eq least.symm)

/-- The shape of the simplex is acceptable for both radii. -/
theorem acceptable (line : search.OnLine radius) (least : 1 / 2 ≤ radius) (most : radius ≤ 1) :
    search.surveyed.acceptable = true := by
  change (Shape.of search.surveyed.simplex).acceptable (Shape.heightFactor * search.radius)
    (Shape.lengthFactor * search.radius) = true
  have high : ¬ 1 < Shape.heightFactor * radius := by
    norm_num [Shape.heightFactor]
    linarith
  have short : ¬ Shape.lengthFactor * radius < 1 := by
    norm_num [Shape.lengthFactor]
    linarith
  rw [line.surveyed_simplex, lineSimplex_shape, line.radius]
  simp [Shape.acceptable, List.finRange_succ, get_eq_getElem, high, short]

/-- The radius is reduced to one half. -/
theorem reduce (line : search.OnLine 1) (acceptable : search.acceptable = true) :
    search.reduce.OnLine (1 / 2) ∧ search.reduce.phase = .iterate := by
  have further : ¬ search.radius ≤ search.options.radiusEnd := by
    rw [line.radius, line.options, lineOptions]
    norm_num
  have halved : search.halvedRadius = 1 / 2 := by
    simp only [halvedRadius, line.radius, line.options, lineOptions]
    norm_num
  have penalty : search.loweredPenalty = 0 := by simp [loweredPenalty, line.penalty]
  have shrinks : search.reduce = search.shrink := by
    simp only [Search.reduce, acceptable, not_true, if_false, further]
  obtain ⟨journal, shrunk⟩ := search.alike_shrink
  rw [shrinks, shrunk]
  exact ⟨⟨line.options, line.simplex, halved, penalty, line.stepDue⟩, rfl⟩

end OnLine

/-- A function on the line with a dip between two of the points that are tried. -/
noncomputable def lineFunction (x : ℝ) : ℝ :=
  if x < 0.5 then 1 else if x < 1.25 then 0 else if x < 1.75 then -1 / 128 else 10

/-- The answers in a record are the values of the function. -/
def Faithful (record : Record ℝ 1 0) : Prop :=
  ∀ inquiry ∈ record, inquiry.answer = .ok (lineFunction (inquiry.point.get 0))

theorem Faithful.push {record : Record ℝ 1 0} (faithful : Faithful record) {x : Vector ℝ 1}
    {objective : ℝ} (constraints : Vector ℝ 0) (value : lineFunction (x.get 0) = objective) :
    Faithful (record.push ⟨x, constraints, .ok objective⟩) := by
  intro inquiry asked
  rcases Array.mem_push.mp asked with before | rfl
  · exact faithful inquiry before
  · exact congrArg Except.ok value.symm

theorem informed_on_line (search : Search ℝ 1 0 0) (constraints : Vector ℝ 0)
    (objective : ℝ) :
    (search.informed realLine constraints objective).evaluator.sample = ⟨#v[], objective, 0⟩ := by
  have none : ∀ values : Vector ℝ (0 + 0), values = #v[] := fun values =>
    Vector.ext fun i inside => absurd inside (Nat.not_lt_zero i)
  simp only [informed, Evaluator.sampleAt, none, Sample.worstViolation, largestFrom_zero]

/-- On the line the second point of the initial simplex becomes the pole if its objective is the
lesser one. -/
theorem insertInitial_better {k : Nat} {first second : Sample ℝ k}
    (better : second.objective < first.objective) (radius : ℝ) :
    ((Simplex.axisAligned #v[0] radius k).setSample .pole first).insertInitial 0 second
        #v[radius] radius =
      (⟨#v[#v[-radius]], #v[radius], #v[#v[-(1 / radius)]], #v[first], second⟩, #v[radius]) := by
  have moves : ¬ first.objective ≤ second.objective := not_le.mpr better
  simp [Simplex.insertInitial, Simplex.axisAligned, Simplex.setSample, Simplex.reverseInitial,
    moves, Simplex.reversedRow, diagonal, Fin.foldl_succ, get_eq_getElem, ofFn_eq_mk]

/-- The search on the line after the value one has been found at zero. -/
noncomputable def lineOpened : Search ℝ 1 0 0 :=
  (lineStart.informed realLine #v[] 1).answer (.vertex .pole)

/-- The search on the line after the value zero has been found at one. -/
noncomputable def lineComplete : Search ℝ 1 0 0 :=
  (lineOpened.informed realLine #v[] 0).answer (.vertex (.edge 0))

theorem point_lineOpened : lineOpened.point = #v[1] := by
  have moved : lineOpened.point = (#v[(0 : ℝ)]).set 0 ((#v[(0 : ℝ)]).get 0 + 1) := rfl
  rw [moved]
  exact vector_ext fun i => by simp [get_eq_getElem]

theorem onLine_lineComplete : lineComplete.OnLine 1 := by
  have simplex : lineComplete.simplex =
      (((Simplex.axisAligned #v[0] 1 (0 + 0)).setSample .pole
        (informed realLine lineStart #v[] 1).evaluator.sample).insertInitial 0
          (informed realLine lineOpened #v[] 0).evaluator.sample lineOpened.point 1).1 := rfl
  refine ⟨rfl, ?_, rfl, rfl, rfl⟩
  rw [simplex, informed_on_line, informed_on_line, point_lineOpened, insertInitial_better one_pos,
    one_div_one]
  rfl

/-- The first two questions. -/
noncomputable def lineRecord : Record ℝ 1 0 :=
  #[⟨lineStart.point, lineStart.evaluator.buffer, .ok 1⟩,
    ⟨lineOpened.point, lineStart.evaluator.buffer, .ok 0⟩]

theorem faithful_lineRecord : Faithful lineRecord := by
  intro inquiry asked
  have start : lineStart.point = #v[0] := rfl
  rcases List.mem_pair.mp (Array.mem_toList_iff.mpr asked) with rfl | rfl
  · norm_num [start, lineFunction, get_eq_getElem]
  · norm_num [point_lineOpened, lineFunction, get_eq_getElem]

theorem reached_lineComplete : Reached lineOptions realLine lineRecord lineComplete := by
  have first := reached_lineStart.answer #v[] 1 rfl (by decide)
  exact first.answer #v[] 0 rfl (by decide)

/-- They lead to the simplex on the line. -/
theorem reached_lineSimplex : ∃ (record : Record ℝ 1 0) (search : Search ℝ 1 0 0),
    Reached lineOptions realLine record search ∧ record.size = 2 ∧ Faithful record ∧
      search.phase = .iterate ∧ search.evaluator.limit = 1000 ∧ search.OnLine 1 :=
  ⟨lineRecord, lineComplete, reached_lineComplete, rfl, faithful_lineRecord, rfl, rfl,
    onLine_lineComplete⟩

/-- A trial that is worse than the pole, and then one that is a little better, lead to a search
that overlooks its last sample. -/
theorem reached_overlooking : ∃ (record : Record ℝ 1 0) (search : Search ℝ 1 0 0),
    Reached lineOptions realLine record search ∧ record.size = 4 ∧ Faithful record ∧
      search.Overlooks := by
  obtain ⟨record, complete, reached, size, faithful, due, limit, line⟩ := reached_lineSimplex
  have room : ∀ {search : Search ℝ 1 0 0} {record : Record ℝ 1 0},
      Reached lineOptions realLine record search → search.evaluator.limit = 1000 →
      record.size < 1000 → search.evaluator.evaluations < search.evaluator.limit := by
    intro search record reached limit few
    rw [limit]
    exact reached.size_record.symm.trans_lt few
  -- The first trial is made at two.
  obtain ⟨first, found, tried, shape, good, waiting, point⟩ := line.iterate one_pos 0
  have limit₁ : first.evaluator.limit = 1000 := (iterate_evaluator found).symm ▸ limit
  have reached₁ := reached.iterate 1 due found
  have value₁ : lineFunction (first.point.get 0) = 10 := by
    rw [point]
    norm_num [lineFunction, get_eq_getElem]
  have reached₂ := reached₁.answer #v[] 10 waiting (room reached₁ limit₁ (by omega))
  obtain ⟨dropped, answered⟩ : ∃ dropped, (first.informed realLine #v[] 10).answer
    (.trial ⟨#v[1], 0, 1⟩) = dropped := ⟨_, rfl⟩
  obtain ⟨line₂, due₂, good₂⟩ := tried.drop shape #v[] (by norm_num) answered
  have limit₂ : dropped.evaluator.limit = 1000 := by
    rw [← answered, answer_evaluator]
    exact limit₁
  rw [answered] at reached₂
  -- The radius is reduced.
  have reached₃ := reached₂.reduce due₂
  obtain ⟨line₃, due₃⟩ :=
    line₂.reduce (good₂.trans (good.trans (line.acceptable (by norm_num) le_rfl)))
  have limit₃ : dropped.reduce.evaluator.limit = 1000 := (reduce_evaluator dropped).symm ▸ limit₂
  -- The second trial is made at three halves.
  obtain ⟨second, found₄, tried₄, -, good₄, waiting₄, point₄⟩ := line₃.iterate (by norm_num) 0
  have limit₄ : second.evaluator.limit = 1000 := (iterate_evaluator found₄).symm ▸ limit₃
  have reached₄ := reached₃.iterate 1 due₃ found₄
  have value₄ : lineFunction (second.point.get 0) = -1 / 128 := by
    rw [point₄]
    change lineFunction (1 + 1 / 2) = _
    rw [lineFunction, if_neg (by norm_num), if_neg (by norm_num), if_pos (by norm_num)]
  have reached₅ := reached₄.answer #v[] (-1 / 128) waiting₄
    (room reached₄ limit₄ (by rw [Array.size_push, size]; norm_num))
  refine ⟨_, _, reached₅, by rw [Array.size_push, Array.size_push, size],
    (faithful.push _ value₁).push _ value₄, ?_⟩
  exact tried₄.take (good₄.trans (line₃.acceptable le_rfl (by norm_num))) #v[] (by norm_num)
    (by norm_num) rfl

/-- A search that overlooks its last sample ends in the next step. -/
theorem Overlooks.ends (overlooks : search.Overlooks) (oracle : Oracle Id α n u) (box : Box α n)
    (point : Array α) (record : Record α n u) :
    (search.next 2 oracle.recorded box point).run record =
      ((search.finish .converged).handOut point (some .converged), record) := by
  obtain ⟨due, acceptable, final, -⟩ := overlooks
  obtain ⟨journal, finished⟩ := search.alike_finish .converged
  have entry : search.enter point = .ok search := by simp only [enter, due]
  have settled : search.settle 2 2 = some (search.finish .converged) := by
    simp only [Search.settle, due, Search.reduce, acceptable, final, not_true, if_false, if_true]
    rw [finished]
  have phase : (search.finish .converged).phase = .done .converged := by rw [finished]
  simp only [Search.next, entry, settled, phase]
  rfl

/-! ## The best vertex -/

/-- A step that ends a complete search finds it started. -/
theorem Reached.enter_self {options : Options α} {box : Box α n} {record : Record α n u}
    (reached : Reached options box record search)
    (clean : ∀ inquiry ∈ record, ∀ error, inquiry.answer = .error error → error = .halt)
    (running : search.status? = none) (complete : n < record.size) {point : Array α}
    (entry : search.enter point = .ok next) : next = search := by
  rcases enter_eq entry with ⟨-, same⟩ | ⟨fresh, -, -⟩
  · exact same
  · rcases reached.poled_or_lagging clean running with poled | lagging
    · simp only [Poled, fresh] at poled
      rw [reached.size_record, poled] at complete
      exact absurd complete (Nat.not_lt_zero n)
    · rw [lagging.1] at fresh
      cases fresh

/-- **The point that is handed out at the end is the pole, and no vertex is strictly better
than it, unless the search overlooks its last sample.**  The status is that of the step that
ends the search, and no question has failed. -/
theorem Reached.poleBest_iff {options : Options α} {box : Box α n} {record : Record α n u}
    (reached : Reached options box record search)
    (clean : ∀ inquiry ∈ record, ∀ error, inquiry.answer = .error error → error = .halt)
    (running : search.status? = none) (complete : n < record.size) {fuel : Nat}
    {oracle : Oracle Id α n u} {point : Array α} {status : Status} {step : Step α n u b}
    (called : ((search.next fuel oracle.recorded box point).run record).1 = step)
    (ended : step.result = .ok (some status)) :
    step.point = step.search.simplex.pole.toArray ∧
      ((∀ j, ¬ step.search.simplex.merit step.search.penalty (.edge j) <
          step.search.simplex.merit step.search.penalty .pole) ↔ ¬ search.Overlooks) := by
  obtain ⟨handed, entered, settled, entry, found, finished⟩ := next_ended (called ▸ ended)
  rw [called] at handed finished
  obtain rfl := reached.enter_self clean running complete entry
  have published : entered.Published := fun status due =>
    absurd due (status?_eq_none_iff.mp running status)
  refine ⟨by rw [handed, finished.published (published.settle found)], ?_⟩
  have late : n < settled.evaluations := (reached.settle fuel found).size_record ▸ complete
  simp only [not_lt]
  change step.search.PoleBest ↔ _
  rcases reached.poled_or_lagging clean running with poled | lagging
  · exact ⟨fun _ => poled.not_overlooks, fun _ => finished.poleBest (poled.settle found) late⟩
  · rcases lagging.settle found with ⟨poled, attentive⟩ | ⟨acceptable, final, ends⟩
    · exact ⟨fun _ => attentive, fun _ => finished.poleBest poled late⟩
    · obtain ⟨journal, finish⟩ := entered.alike_finish .converged
      rw [PoleBest, finished.simplex.1, finished.simplex.2, ends, finish]
      exact lagging.poleBest_iff_not_overlooks acceptable final

/-- The search on the line overlooks its last sample, and its pole is not the best vertex. -/
theorem poleBest_iff_on_line : ∃ (record : Record ℝ 1 0) (search : Search ℝ 1 0 0)
    (step : Step ℝ 1 0 0), Reached lineOptions realLine record search ∧ Faithful record ∧
      search.status? = none ∧ step.result = .ok (some .converged) ∧ 1 < record.size ∧
      step.point = step.search.simplex.pole.toArray ∧
      ((∀ j, ¬ step.search.simplex.merit step.search.penalty (.edge j) <
          step.search.simplex.merit step.search.penalty .pole) ↔ ¬ search.Overlooks) := by
  obtain ⟨record, search, reached, size, faithful, overlooks⟩ := reached_overlooking
  have clean := clean_of_answered fun inquiry asked => ⟨_, faithful inquiry asked⟩
  have running : search.status? = none := by simp [status?, overlooks.1]
  have complete : 1 < record.size := by omega
  let oracle : Oracle Id ℝ 1 0 := fun x constraints => (constraints, .ok (lineFunction (x.get 0)))
  have called := congrArg Prod.fst (overlooks.ends oracle realLine #[0] record)
  exact ⟨record, search, _, reached, faithful, running, rfl, complete,
    reached.poleBest_iff clean running complete called rfl⟩

/-- Every answer is a value of the function, and the point that is handed out is a pole whose
merit is greater than that of the other vertex. -/
theorem overlooked_on_line : ∃ (record : Record ℝ 1 0) (search : Search ℝ 1 0 0),
    Reached lineOptions realLine record search ∧ Faithful record ∧ 1 < record.size ∧
      ∀ oracle : Oracle Id ℝ 1 0,
        let step := ((search.next 2 oracle.recorded realLine #[0]).run record).1
        step.result = .ok (some .converged) ∧
          step.point = step.search.simplex.pole.toArray ∧
          step.search.simplex.merit step.search.penalty (.edge 0) <
            step.search.simplex.merit step.search.penalty .pole := by
  obtain ⟨record, search, reached, size, faithful, overlooks⟩ := reached_overlooking
  refine ⟨record, search, reached, faithful, by omega, fun oracle => ?_⟩
  rw [overlooks.ends oracle realLine #[0] record]
  obtain ⟨-, -, -, j, -, better⟩ := overlooks
  obtain ⟨journal, finished⟩ := search.alike_finish .converged
  rw [finished]
  refine ⟨rfl, rfl, ?_⟩
  rw [search_handOut, ← Fin.fin_one_eq_zero j]
  exact better

end DerivativeFree.Search
