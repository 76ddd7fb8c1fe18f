import DerivativeFree.Proofs.Search.Trial

/-!
# The merit of the pole

As long as the penalty is the same after two calls, the merit of the pole has not risen from
the first one to the second, once the starting point has been evaluated
(`Reached.merit_descends`).

Turns keep the samples of a simplex (`Turned.samples`), though they may raise and lower the
penalty and choose another pole more than once.  What counts is that a search that comes to
rest has its best vertex as the pole, under the penalty it has then.  So the pole is no worse
than the vertex that has the sample of the old one.

An answer puts a sample into another vertex, and the pole keeps its own.  Only an initial
simplex can get a new pole from it, one with a smaller objective, and then the penalty is
zero (`Reached.unweighted`).
-/

namespace DerivativeFree

set_option autoImplicit false

variable {α : Type} [EuclideanField α] {n u b : Nat}

/-! ## The samples of a simplex -/

namespace Simplex

variable {m : Nat}

/-- The choice of the pole keeps the samples. -/
theorem range_sample_selectPole (simplex : Simplex α n m) (penalty : α) :
    Set.range (simplex.selectPole penalty).1.sample = Set.range simplex.sample := by
  rw [selectPole]
  split
  case h_1 => rfl
  case h_2 j _ =>
    have exchanged : (simplex.promote j).sample =
        simplex.sample ∘ Equiv.swap Vertex.pole (.edge j) :=
      funext fun vertex => simplex.sample_promote j vertex
    rw [exchanged, EquivLike.range_comp]

/-- An initial simplex gets a pole with a smaller objective, or keeps its own. -/
theorem objective_insertInitial_le (simplex : Simplex α n m) (j : Fin n) (sample : Sample α m)
    (x : Vector α n) (size : α) :
    (simplex.insertInitial j sample x size).1.poleSample.objective ≤
      simplex.poleSample.objective := by
  rw [insertInitial]
  split
  case isTrue => exact le_rfl
  case isFalse better => exact (not_le.mp better).le

end Simplex

namespace Search

variable {search next settled : Search α n u b} {options : Options α} {box : Box α n}
  {record : Record α n u} {fuel turns : Nat}

/-! ## Turns -/

/-- The searches have the same samples in their simplices. -/
def SameSamples (search other : Search α n u b) : Prop :=
  Set.range other.simplex.sample = Set.range search.simplex.sample

theorem Alike.sameSamples {other : Search α n u b} (alike : next.Alike other)
    (same : search.SameSamples other) : search.SameSamples next := by
  obtain ⟨journal, rfl⟩ := alike
  exact same

theorem iterate_samples (found : search.iterate fuel = some next) : search.SameSamples next := by
  have surveyed : search.SameSamples search.surveyed :=
    search.simplex.range_sample_selectPole search.penalty
  cases iterate_outcome found with
  | spoilt _ _ alike => exact alike.sameSamples surveyed
  | @move j _ alike =>
    have kept := funext (search.surveyed.simplex.sample_replaceEdge j
      (search.surveyed.renewalStep search.surveyed.modelled j))
    exact alike.sameSamples ((congrArg Set.range kept).trans surveyed)
  | short _ _ _ alike => exact alike.sameSamples surveyed
  | weigh _ _ _ weighed =>
    cases weighed with
    | trial _ alike => exact alike.sameSamples surveyed
    | raised _ _ alike => exact alike.sameSamples surveyed
    | dethroned _ _ alike => exact alike.sameSamples surveyed

/-- **A turn keeps the samples of the simplex.** -/
theorem Turned.samples (turned : Turned fuel search next) : search.SameSamples next := by
  cases turned with
  | iterate _ found => exact iterate_samples found
  | reduce => rw [SameSamples, reduce_simplex]

theorem settle_samples (found : search.settle fuel turns = some settled) :
    search.SameSamples settled :=
  settle_keeps (fun turned same => turned.samples.trans same) (Eq.refl _) found

/-- The best pole is no worse than the one before, if no sample has been lost. -/
theorem PoleBest.poleMerit_le (best : settled.PoleBest) (same : search.SameSamples settled)
    (penalty : settled.penalty = search.penalty) : settled.poleMerit ≤ search.poleMerit := by
  obtain ⟨vertex, old⟩ : search.simplex.poleSample ∈ Set.range settled.simplex.sample := by
    rw [same]
    exact ⟨.pole, rfl⟩
  have level : search.poleMerit = settled.simplex.merit settled.penalty vertex := by
    rw [Simplex.merit, old, penalty]
    rfl
  rw [level]
  cases vertex with
  | pole => exact le_rfl
  | edge j => exact best j

/-- A search at rest settles where it is. -/
theorem settled_eq_of_rest (rests : search.phase ≠ .iterate ∧ search.phase ≠ .reduce)
    (found : search.settle fuel turns = some settled) : settled = search := by
  cases turns with
  | zero => cases found
  | succ turns =>
    rw [settle_of_rest rests] at found
    exact (Option.some.inj found).symm

/-- **The pole of a search that has come to rest is no worse than the one before.** -/
theorem Reached.settle_poleMerit (reached : Reached options box record search)
    (clean : ∀ inquiry ∈ record, ∀ error, inquiry.answer = .error error → error = .halt)
    (found : search.settle fuel turns = some settled)
    (penalty : settled.penalty = search.penalty) : settled.poleMerit ≤ search.poleMerit := by
  by_cases rests : search.phase ≠ .iterate ∧ search.phase ≠ .reduce
  case pos => rw [settled_eq_of_rest rests found]
  case neg =>
    have due : search.phase = .iterate ∨ search.phase = .reduce := by tauto
    have running : search.status? = none := by
      rcases due with due | due <;> simp [status?, due]
    have late : n < settled.evaluations := by
      have ready := reached.sound.ready
      have count : settled.evaluations = search.evaluations :=
        congrArg Evaluator.evaluations (settle_evaluator found)
      rw [count]
      rcases due with due | due <;> simp only [Ready, due] at ready <;> exact ready.2
    have improves (poled : settled.Poled) : settled.poleMerit ≤ search.poleMerit :=
      (poled.best late (settle_rests found)).poleMerit_le (settle_samples found) penalty
    rcases reached.poled_or_lagging clean running with poled | lagging
    · exact improves (poled.settle found)
    · rcases lagging.settle found with ⟨poled, -⟩ | ⟨-, -, rfl⟩
      · exact improves poled
      · exact (search.alike_finish .converged).poleMerit.le

/-! ## The penalty at the beginning -/

/-- As long as the initial simplex is set up, there is no penalty. -/
def Unweighted (search : Search α n u b) : Prop :=
  ∀ pending, search.phase = .evaluate pending → search.evaluations ≤ n → search.penalty = 0

theorem unweighted_of_phase (phase : Phase α n) (due : search.phase = phase)
    (other : ∀ pending, phase ≠ .evaluate pending) : search.Unweighted :=
  fun pending asks => absurd (due.symm.trans asks) (other pending)

theorem Alike.unweighted {other : Search α n u b} (alike : search.Alike other)
    (unweighted : other.Unweighted) : search.Unweighted := by
  obtain ⟨journal, rfl⟩ := alike
  exact unweighted

/-- A search that has been set up may have a penalty. -/
theorem unweighted_of_late (late : n < search.evaluations) : search.Unweighted :=
  fun _ _ early => absurd late (not_lt.mpr early)

theorem Reached.unweighted (reached : Reached options box record search) : search.Unweighted := by
  induction reached with
  | create => exact unweighted_of_phase .start rfl (by simp)
  | enter _ _ entry ih =>
    rcases enter_eq entry with ⟨-, rfl⟩ | ⟨-, -, rfl⟩
    · exact ih
    · exact (alike_startAt ..).unweighted fun _ _ _ => rfl
  | iterate _ reached due found =>
    have ready := reached.sound.ready
    simp only [Ready, due] at ready
    refine unweighted_of_late ?_
    rw [evaluations, iterate_evaluator found]
    exact ready.2
  | reduce reached due =>
    have ready := reached.sound.ready
    simp only [Ready, due] at ready
    refine unweighted_of_late ?_
    rw [evaluations, reduce_evaluator]
    exact ready.2
  | exhaust =>
    exact (alike_finish ..).unweighted (unweighted_of_phase (.done .exhausted) rfl (by simp))
  | answer constraints objective _ due _ ih =>
    intro _ _ early
    rw [(answer_frame _ _).2.2]
    rw [evaluations, answer_evaluator] at early
    exact ih _ due (Nat.le_of_succ_le early)
  | halt =>
    exact (alike_halted ..).unweighted (unweighted_of_phase (.done .exhausted) rfl (by simp))
  | fail _ _ _ _ due _ ih => exact fun _ _ early => ih _ due (Nat.le_of_succ_le early)
  | reset => exact unweighted_of_phase .start rfl (by simp)

/-! ## Answers -/

/-- Values at the end of an edge do not make the pole worse. -/
theorem recordVertex_poleMerit_le (j : Fin n)
    (free : search.evaluations ≤ n + 1 → search.penalty = 0) :
    (search.recordVertex (.edge j)).poleMerit ≤ search.poleMerit := by
  by_cases few : search.evaluations ≤ n + 1
  case pos =>
    have better := search.simplex.objective_insertInitial_le j search.evaluator.sample
      search.point search.radius
    rw [recordVertex_early few]
    simp only [poleMerit, free few, zero_mul, add_zero]
    exact better
  case neg =>
    rw [recordVertex_late few]
    exact le_rfl

/-- **Values do not make the pole worse**, unless they are those of the starting point. -/
theorem answer_poleMerit_le {pending : Pending α n} (other : pending ≠ .vertex .pole)
    (free : search.evaluations ≤ n + 1 → search.penalty = 0) :
    (search.answer pending).poleMerit ≤ search.poleMerit := by
  match pending with
  | .vertex .pole => exact absurd rfl other
  | .vertex (.edge j) =>
    have recorded := recordVertex_poleMerit_le j free
    cases answer_vertex_outcome search (.edge j) with
    | vertex _ _ alike => exact alike.poleMerit.trans_le recorded
    | complete _ alike => exact alike.poleMerit.trans_le recorded
  | .trial plan =>
    cases answer_trial_outcome search plan with
    | dropped _ alike => exact alike.poleMerit.le
    | taken _ alike => exact alike.poleMerit.le

/-! ## Calls -/

/-- The second search has the same penalty, and a pole that is no worse. -/
def NoWorse (search other : Search α n u b) : Prop :=
  other.penalty = search.penalty ∧ other.poleMerit ≤ search.poleMerit

theorem noWorse_finish (search : Search α n u b) (status : Status) :
    search.NoWorse (search.finish status) :=
  ⟨(search.alike_finish status).frame.2.2, (search.alike_finish status).poleMerit.le⟩

theorem noWorse_halted (search : Search α n u b) (constraints : Vector α u) :
    search.NoWorse (search.halted constraints) :=
  ⟨(search.alike_halted constraints).frame.2.2, (search.alike_halted constraints).poleMerit.le⟩

/-- After the first question a search has started, and no question is about its starting
point. -/
theorem Reached.opened (reached : Reached options box record search)
    (clean : ∀ inquiry ∈ record, ∀ error, inquiry.answer = .error error → error = .halt)
    (begun : 0 < record.size) :
    search.Started ∧ search.phase ≠ .evaluate (.vertex .pole) := by
  rw [reached.size_record] at begun
  have poled {phase : Phase α n} (due : search.phase = phase)
      (further : phase ≠ .reduce ∧ ∀ status, phase ≠ .done status) : search.Poled := by
    have running : search.status? = none :=
      status?_eq_none_iff.mpr fun status ended => further.2 status (due.symm.trans ended)
    refine (reached.poled_or_lagging clean running).resolve_right fun lagging => ?_
    exact further.1 (due.symm.trans lagging.1)
  refine ⟨fun due => ?_, fun due => ?_⟩
  · have none := poled due (by simp)
    simp only [Poled, due] at none
    exact begun.ne' none
  · have none := poled due (by simp)
    simp only [Poled, due] at none
    exact begun.ne' none

theorem Reached.asked_noWorse {pending : Pending α n}
    (reached : Reached options box record search)
    (clean : ∀ inquiry ∈ record, ∀ error, inquiry.answer = .error error → error = .halt)
    (begun : 0 < record.size) (due : search.phase = .evaluate pending) (point : Array α)
    (inquiry : Inquiry α n u) :
    search.NoWorse (search.asked box pending point inquiry).search := by
  unfold Search.asked
  split
  case h_1 objective _ =>
    rw [search_handOut]
    refine ⟨(answer_frame _ pending).2.2, answer_poleMerit_le ?_ fun early => ?_⟩
    · rintro rfl
      exact (reached.opened clean begun).2 due
    · exact reached.unweighted pending due (Nat.le_of_succ_le_succ early)
  case h_2 =>
    rw [search_handOut]
    exact search.noWorse_halted _
  case h_3 => exact ⟨rfl, le_rfl⟩

theorem Reached.ask_noWorse {pending : Pending α n}
    (reached : Reached options box record search)
    (clean : ∀ inquiry ∈ record, ∀ error, inquiry.answer = .error error → error = .halt)
    (begun : 0 < record.size) (due : search.phase = .evaluate pending)
    (oracle : Oracle Id α n u) (point : Array α) :
    search.NoWorse ((search.ask oracle.recorded box pending point).run record).1.search := by
  rw [run_ask]
  split
  case isTrue =>
    rw [search_handOut]
    exact search.noWorse_finish .exhausted
  case isFalse => exact reached.asked_noWorse clean begun due point _

/-- **A call that leaves the penalty as it is does not make the pole worse.** -/
theorem Reached.next_poleMerit_le (reached : Reached options box record search)
    (clean : ∀ inquiry ∈ record, ∀ error, inquiry.answer = .error error → error = .halt)
    (begun : 0 < record.size) (fuel : Nat) (oracle : Oracle Id α n u) (point : Array α)
    {step : Step α n u b} {after : Record α n u}
    (called : (search.next fuel oracle.recorded box point).run record = (step, after))
    (penalty : step.search.penalty = search.penalty) :
    step.search.poleMerit ≤ search.poleMerit := by
  unfold Search.next at called
  rw [(reached.opened clean begun).1.enter] at called
  cases found : search.settle fuel fuel with
  | none =>
    simp only [found] at called
    cases called
    exact le_rfl
  | some settled =>
    have settling := reached.settle fuel found
    have onward (noWorse : settled.NoWorse step.search) :
        step.search.poleMerit ≤ search.poleMerit :=
      noWorse.2.trans
        (reached.settle_poleMerit clean found (noWorse.1.symm.trans penalty))
    simp only [found] at called
    cases due : settled.phase with
    | evaluate pending =>
      simp only [due] at called
      have asked := settling.ask_noWorse clean begun due oracle point
      rw [called] at asked
      exact onward asked
    | start | iterate | reduce | done =>
      simp only [due] at called
      obtain ⟨rfl, rfl⟩ := Prod.mk.inj called
      refine onward ?_
      rw [search_handOut]
      exact ⟨rfl, le_rfl⟩

/-- **Between two calls with the same penalty the merit of the pole does not rise**, once the
starting point has been evaluated and as long as no question has failed.  And a trial point
with less merit than the pole, or one that counts as a reduction for another reason, replaces
a vertex; the pole that is chosen next has at most the merit of that point, under the penalty
in force by then. -/
theorem Reached.merit_descends (reached : Reached options box record search) :
    ((∀ inquiry ∈ record, ∀ error, inquiry.answer = .error error → error = .halt) →
      0 < record.size → ∀ fuel (oracle : Oracle Id α n u) point step after,
        (search.next fuel oracle.recorded box point).run record = (step, after) →
        step.search.penalty = search.penalty → step.search.poleMerit ≤ search.poleMerit) ∧
      ∀ plan, search.phase = .evaluate (.trial plan) → ∀ constraints objective informed,
        search.informed box constraints objective = informed →
        (informed.evaluator.sample.merit informed.penalty < search.poleMerit →
          0 < (informed.reductions plan).1) ∧
        (0 < (informed.reductions plan).1 →
          ∃ j, informed.simplex.replaced informed.shape plan.step informed.radius
              (informed.reductions plan).1 = some j ∧
            (informed.answer (.trial plan)).simplex =
              search.simplex.replaceVertex j plan.step informed.evaluator.sample ∧
            ∀ later, (informed.answer (.trial plan)).Choosing later →
              later.selectPole.poleMerit ≤ informed.evaluator.sample.merit later.penalty) := by
  refine ⟨fun clean begun fuel oracle point step after called penalty =>
    reached.next_poleMerit_le clean begun fuel oracle point called penalty, ?_⟩
  rintro plan due constraints objective informed rfl
  exact ⟨fun better => reductions_pos better, fun better => reached.improving due rfl better⟩

/-- On the line a trial point with the value minus one replaces a vertex, and the next pole has
that value at most. -/
theorem merit_descends_on_line : ∃ (record : Record ℝ 1 0) (search : Search ℝ 1 0 0)
    (step : Step ℝ 1 0 0), Reached lineOptions realLine record search ∧ Faithful record ∧
      0 < record.size ∧ search.poleMerit = 0 ∧
      step.search.penalty = search.penalty ∧ step.search.poleMerit ≤ search.poleMerit ∧
      step.search.phase = .iterate ∧ step.search.selectPole.poleMerit ≤ -1 := by
  obtain ⟨record, complete, reached, size, faithful, due, limit, line⟩ := reached_lineSimplex
  obtain ⟨search, found, tried, -, -, waiting, -⟩ := line.iterate one_pos 0
  have reached := reached.iterate 1 due found
  have clean := clean_of_answered fun inquiry asked => ⟨_, faithful inquiry asked⟩
  have begun : 0 < record.size := by omega
  have allowed : search.evaluator.evaluations < search.evaluator.limit := by
    have few : search.evaluator.evaluations = 2 := reached.size_record.symm.trans size
    rw [few, iterate_evaluator found, limit]
    norm_num
  let oracle : Oracle Id ℝ 1 0 := fun _ constraints => (constraints, .ok (-1))
  obtain ⟨informed, told⟩ : ∃ informed,
    search.informed realLine search.evaluator.buffer (-1) = informed := ⟨_, rfl⟩
  have called : (search.next 1 oracle.recorded realLine #[0]).run record =
      (⟨informed.answer (.trial ⟨#v[1], 0, 1⟩),
        (informed.answer (.trial ⟨#v[1], 0, 1⟩)).best.toArray, .ok none⟩,
        record.push ⟨search.point, search.evaluator.buffer, .ok (-1)⟩) := by
    rw [next_evaluate waiting, ← told]
    exact ask_answered allowed rfl rfl
  have pole : search.poleMerit = 0 := by
    simp [poleMerit, Search.objective, Search.violation, tried.simplex, tried.penalty, lineSimplex]
  have penalty : (informed.answer (.trial ⟨#v[1], 0, 1⟩)).penalty = search.penalty := by
    rw [(answer_frame informed _).2.2, ← told]
    rfl
  have reductions : informed.reductions ⟨#v[1], 0, 1⟩ = (1, 1) := by
    rw [← told, tried.reductions _ (by norm_num), neg_neg]
  have sample : informed.evaluator.sample = ⟨#v[], -1, 0⟩ := told ▸ informed_on_line ..
  have fair : 0 < (informed.reductions ⟨#v[1], 0, 1⟩).1 ∧
      0.1 * (informed.reductions ⟨#v[1], 0, 1⟩).2 ≤ (informed.reductions ⟨#v[1], 0, 1⟩).1 := by
    rw [reductions]
    norm_num
  obtain ⟨j, replaced, -, chosen⟩ :=
    (reached.merit_descends.2 _ waiting _ _ informed told).2 fair.1
  have onward : (informed.answer (.trial ⟨#v[1], 0, 1⟩)).phase = .iterate := by
    cases answer_trial_outcome informed ⟨#v[1], 0, 1⟩ with
    | dropped kept =>
      rw [kept] at replaced
      cases replaced
    | taken _ alike =>
      obtain ⟨journal, answered⟩ := alike
      rw [answered]
      exact if_pos fair
  have least := chosen _ (.now onward)
  rw [sample, Sample.merit, mul_zero, add_zero] at least
  exact ⟨record, search, _, reached, faithful, begun, pole, penalty,
    reached.merit_descends.1 clean begun 1 oracle #[0] _ _ called penalty, onward, least⟩

end Search

end DerivativeFree
