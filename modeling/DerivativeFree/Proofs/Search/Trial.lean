import DerivativeFree.Proofs.Search.Best
import DerivativeFree.Proofs.Search.Course
import DerivativeFree.Proofs.TrustRegion.Boundary

/-!
# Trial points

No trial point lies in the pole (`Reached.moving`): a step to the boundary of the trust region
is not zero, and one that stops short of it is tried only if it is long enough.  So a trial
point that is better than the pole always finds a vertex to replace, as the inverse is exact
and its rows cannot all be orthogonal to the step.  The sample is then in the simplex, and the
next pole is no worse than it (`Reached.improving`).

Between the answer and the next choice of a pole there may be a reduction of the radius, but
nothing else (`Choosing`).
-/

namespace DerivativeFree.Search

set_option autoImplicit false

variable {α : Type} [EuclideanField α] {n u b : Nat} {search next : Search α n u b}
  {plan : Plan α n} {options : Options α} {box : Box α n} {record : Record α n u}

/-! ## The length of a step -/

/-- A point that is to be tried does not lie in the pole. -/
def Moving (search : Search α n u b) : Prop :=
  ∀ plan, search.phase = .evaluate (.trial plan) → plan.step ≠ 0

theorem moving_of_phase (phase : Phase α n) (due : search.phase = phase)
    (other : ∀ plan, phase ≠ .evaluate (.trial plan)) : search.Moving :=
  fun plan tries => absurd (due.symm.trans tries) (other plan)

theorem Alike.moving {other : Search α n u b} (alike : search.Alike other)
    (moving : other.Moving) : search.Moving := by
  obtain ⟨journal, rfl⟩ := alike
  exact moving

/-- The step that is tried is the one that has been weighed. -/
theorem Weighed.moving {model : LinearModel α n (u + b)} {step : Vector α n}
    (weighed : Weighed model search step next) (nonzero : step ≠ 0) : next.Moving := by
  have tries : ∀ {other : Search α n u b} {promised : Plan α n}, next.Alike other →
      other.phase = .evaluate (.trial promised) → promised.step = step → next.Moving := by
    intro other promised alike due same
    refine alike.moving fun plan tries => ?_
    obtain rfl : promised = plan := by simpa using due.symm.trans tries
    exact same ▸ nonzero
  cases weighed with
  | trial _ alike => exact tries alike rfl rfl
  | raised _ _ alike => exact tries alike rfl rfl
  | dethroned _ _ alike => exact alike.moving (moving_of_phase .iterate rfl (by simp))

/-- A step that is not too short is not zero. -/
theorem planned_moving (positive : 0 < search.radius) {model : LinearModel α n (u + b)}
    {solved : Workspace α n (u + b) × StepEnd} {fuel : Nat}
    (found : search.workspace.solve model search.radius fuel = some solved) :
    (search.planned model solved).Moving := by
  obtain ⟨workspace, how⟩ := solved
  cases how with
  | boundary =>
    exact (weighStep_outcome ..).moving (Workspace.solve_boundary found)
  | stalled active =>
    simp only [planned]
    split
    case isTrue => exact moving_of_phase .reduce rfl (by simp)
    case isFalse long =>
      refine (weighStep_outcome ..).moving fun zero => long ?_
      rw [zero, dot_zero]
      exact mul_pos (mul_pos (by norm_num) positive) positive

theorem explore_moving (positive : 0 < search.radius) {fuel : Nat}
    (found : search.explore fuel = some next) : next.Moving := by
  rw [explore_eq] at found
  split at found
  case h_1 j _ =>
    cases found
    exact moving_of_phase (.evaluate (.vertex (.edge j))) rfl (by simp)
  case h_2 =>
    rw [planStep_eq, Option.map_eq_some_iff] at found
    obtain ⟨solved, solution, rfl⟩ := found
    have assessed : 0 < search.assess.radius := positive
    exact planned_moving assessed solution

theorem iterate_moving (positive : 0 < search.radius) {fuel : Nat}
    (found : search.iterate fuel = some next) : next.Moving := by
  obtain ⟨journal, selected⟩ := search.alike_selectPole
  simp only [iterate, selected] at found
  split at found
  case isTrue =>
    split at found
    case isTrue =>
      cases found
      exact (alike_finish ..).moving (moving_of_phase (.done .inaccurate) rfl (by simp))
    case isFalse => exact explore_moving (by exact positive) found
  case isFalse => exact explore_moving (by exact positive) found

theorem reduce_moving (search : Search α n u b) : search.reduce.Moving := by
  cases search.reduce_outcome with
  | spared _ alike => exact alike.moving (moving_of_phase .iterate rfl (by simp))
  | converged _ _ alike =>
    exact alike.moving (moving_of_phase (.done .converged) rfl (by simp))
  | shrunk _ _ alike => exact alike.moving (moving_of_phase .iterate rfl (by simp))

theorem answer_moving (search : Search α n u b) (pending : Pending α n) :
    (search.answer pending).Moving := by
  cases pending with
  | vertex vertex =>
    cases answer_vertex_outcome search vertex with
    | vertex j _ alike =>
      exact alike.moving (moving_of_phase (.evaluate (.vertex (.edge j))) rfl (by simp))
    | complete _ alike => exact alike.moving (moving_of_phase .iterate rfl (by simp))
  | trial plan =>
    cases answer_trial_outcome search plan with
    | dropped _ alike => exact alike.moving (moving_of_phase .reduce rfl (by simp))
    | taken _ alike =>
      refine alike.moving (moving_of_phase _ rfl fun plan => ?_)
      split <;> simp

/-- **No trial point lies in the pole.** -/
theorem Reached.moving (reached : Reached options box record search) : search.Moving := by
  induction reached with
  | create => exact moving_of_phase .start rfl (by simp)
  | enter _ _ entry ih =>
    rcases enter_eq entry with ⟨-, rfl⟩ | ⟨-, -, rfl⟩
    · exact ih
    · exact (alike_startAt ..).moving
        (moving_of_phase (.evaluate (.vertex .pole)) rfl (by simp))
  | iterate _ reached due found =>
    have ready := reached.sound.ready
    simp only [Ready, due] at ready
    exact iterate_moving ready.1.2 found
  | reduce => exact reduce_moving _
  | exhaust => exact (alike_finish ..).moving (moving_of_phase (.done .exhausted) rfl (by simp))
  | answer => exact answer_moving _ _
  | halt => exact (alike_halted ..).moving (moving_of_phase (.done .exhausted) rfl (by simp))
  | fail _ _ _ _ _ _ ih => exact ih
  | reset => exact moving_of_phase .start rfl (by simp)

/-! ## A better point -/

/-- A point with less merit than the pole counts as a reduction. -/
theorem reductions_pos
    (better : search.evaluator.sample.merit search.penalty <
      search.simplex.poleSample.merit search.penalty) : 0 < (search.reductions plan).1 := by
  unfold reductions
  dsimp only
  split
  case isTrue level =>
    -- Without a penalty the merit is the objective, which cannot be lower and the same.
    simp only [Bool.and_eq_true, beq_iff_eq] at level
    obtain ⟨free, same⟩ := level
    rw [Sample.merit, Sample.merit, free, zero_mul, zero_mul, same] at better
    exact absurd better (lt_irrefl _)
  case isFalse => exact sub_pos.mpr better

/-- The search in which the pole is chosen next, unless the search ends before that. -/
inductive Choosing : Search α n u b → Search α n u b → Prop
  /-- An iteration comes next, and begins with the choice. -/
  | now {search : Search α n u b} (due : search.phase = .iterate) : Choosing search search
  /-- The radius is reduced before that. -/
  | reduced {search later : Search α n u b} (due : search.phase = .reduce)
      (choosing : Choosing search.reduce later) : Choosing search later

theorem reduce_simplex (search : Search α n u b) : search.reduce.simplex = search.simplex := by
  cases search.reduce_outcome with
  | spared _ alike => exact alike.simplex
  | converged _ _ alike => exact alike.simplex
  | shrunk _ _ alike => exact alike.simplex

theorem Choosing.simplex {later : Search α n u b} (choosing : search.Choosing later) :
    later.simplex = search.simplex := by
  induction choosing with
  | now => rfl
  | reduced _ _ ih => exact ih.trans (reduce_simplex _)

/-- The merit of the pole, as the observers of a search tell it. -/
def poleMerit (search : Search α n u b) : α :=
  search.objective + search.penalty * search.violation

theorem Alike.poleMerit {other : Search α n u b} (alike : search.Alike other) :
    search.poleMerit = other.poleMerit := by
  obtain ⟨journal, rfl⟩ := alike
  rfl

/-- A pole that is chosen is no worse than any vertex. -/
theorem poleMerit_selectPole_le (search : Search α n u b) (vertex : Vertex n) :
    search.selectPole.poleMerit ≤ search.simplex.merit search.penalty vertex := by
  rw [search.alike_selectPole.poleMerit]
  change (search.simplex.selectPole search.penalty).1.merit search.penalty .pole ≤ _
  have least := search.simplex.merit_best_le search.penalty vertex
  rw [Simplex.selectPole]
  split
  case h_1 chosen => exact chosen ▸ least
  case h_2 j chosen =>
    rw [Simplex.merit_promote, Equiv.swap_apply_left]
    exact chosen ▸ least

/-- **A trial point that is better than the pole replaces a vertex**, and the next pole is no
worse than it. -/
theorem Reached.improving (reached : Reached options box record search)
    (due : search.phase = .evaluate (.trial plan)) {constraints : Vector α u} {objective : α}
    {informed : Search α n u b} (told : search.informed box constraints objective = informed)
    (better : 0 < (informed.reductions plan).1) :
    ∃ j, informed.simplex.replaced informed.shape plan.step informed.radius
          (informed.reductions plan).1 = some j ∧
      (informed.answer (.trial plan)).simplex =
        informed.simplex.replaceVertex j plan.step informed.evaluator.sample ∧
      ∀ later, (informed.answer (.trial plan)).Choosing later →
        later.selectPole.poleMerit ≤ informed.evaluator.sample.merit later.penalty := by
  have exact : informed.simplex.HasInverse := told ▸ reached.sound.exact
  have moves := reached.moving plan due
  cases answer_trial_outcome informed plan with
  | dropped kept => exact absurd kept (exact.replaced_ne_none _ moves _ better)
  | @taken j replaced alike =>
    have simplex : (informed.answer (.trial plan)).simplex =
        informed.simplex.replaceVertex j plan.step informed.evaluator.sample := alike.simplex
    refine ⟨j, replaced, simplex, fun later choosing => ?_⟩
    have taken : later.simplex.sample (.edge j) = informed.evaluator.sample := by
      rw [choosing.simplex, simplex]
      exact Simplex.sample_setSample_self ..
    rw [← taken]
    exact later.poleMerit_selectPole_le (.edge j)

end DerivativeFree.Search
