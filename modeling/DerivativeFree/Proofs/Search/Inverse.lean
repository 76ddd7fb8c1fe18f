import DerivativeFree.Proofs.Interpolation.Pivot
import DerivativeFree.Proofs.Search.Moves

/-!
# The inverse along a search

In exact arithmetic the simplex of a search keeps the exact inverse of its edges, whatever
the caller does and however the oracle answers.  Three things depend on where the search is
(`Ready`): an initial simplex has been set up to the vertex that is evaluated, a search
beyond it has a simplex of sampled vertices, and the shape that a trial point is judged by
is that of the simplex.

The main result is `Reached.inverse_exact`.  It also says that no pivot is ever zero: not
where a vertex is moved, and not where a trial point replaces one.  So a search never ends
because of rounding errors.
-/

namespace DerivativeFree.Search

set_option autoImplicit false

variable {α : Type} [EuclideanField α] {n u b : Nat} {search next : Search α n u b}

/-! ## The invariant -/

/-- The radii are valid, the present one included. -/
def ProperRadius (search : Search α n u b) : Prop :=
  search.options.ValidRadii ∧ 0 < search.radius

/-- What a pending evaluation says about the simplex. -/
def Awaits (search : Search α n u b) : Pending α n → Prop
  | .vertex .pole => search.simplex.Opening search.radius 0
  | .vertex (.edge j) =>
    j < search.evaluations ∧
      (search.evaluations ≤ n → search.simplex.Opening search.radius j)
  | .trial _ => n < search.evaluations ∧ search.shape = Shape.of search.simplex

/-- What the phase says about the simplex. -/
def Ready (search : Search α n u b) : Prop :=
  match search.phase with
  | .start => True
  | .evaluate pending => search.ProperRadius ∧ search.Awaits pending
  | .iterate | .reduce => search.ProperRadius ∧ n < search.evaluations
  | .done status => status ≠ .inaccurate

/-- The inverse is exact, and the search is ready for what its phase says. -/
structure Sound (search : Search α n u b) : Prop where
  exact : search.simplex.HasInverse
  ready : search.Ready

theorem Ready.evaluate (ready : search.Ready) {pending : Pending α n}
    (due : search.phase = .evaluate pending) : search.ProperRadius ∧ search.Awaits pending := by
  simpa only [Ready, due] using ready

theorem Alike.sound {other : Search α n u b} (alike : search.Alike other)
    (sound : other.Sound) : search.Sound := by
  obtain ⟨journal, rfl⟩ := alike
  exact ⟨sound.exact, sound.ready⟩

/-! ## The start and the end -/

theorem sound_create (options : Options α) : (create n u b options).Sound where
  exact := (Simplex.opening_axisAligned _ 0 one_ne_zero).exact
  ready := trivial

theorem sound_startAt (x : Vector α n) (valid : search.options.ValidRadii) :
    (search.startAt x).Sound := by
  have positive : 0 < search.options.radiusBegin := valid.1.trans valid.2.1
  have opening := Simplex.opening_axisAligned (u + b) x positive.ne'
  exact (alike_startAt search x).sound ⟨opening.exact, ⟨valid, positive⟩, opening⟩

theorem Sound.enter (sound : search.Sound) {point : Array α}
    (entry : search.enter point = .ok next) : next.Sound := by
  rcases enter_eq entry with ⟨-, rfl⟩ | ⟨-, clear, rfl⟩
  · exact sound
  · have valid := ((search.options.obstacle?_eq_none_iff n point).mp clear).2.2.1
    exact sound_startAt _ valid

theorem Sound.finish (sound : search.Sound) {status : Status} (accurate : status ≠ .inaccurate) :
    (search.finish status).Sound :=
  (alike_finish search status).sound ⟨sound.exact, accurate⟩

theorem Sound.reset (sound : search.Sound) : search.reset.Sound where
  exact := sound.exact
  ready := trivial

/-! ## Iterations -/

theorem surveyed_exact (exact : search.simplex.HasInverse) :
    search.surveyed.simplex.HasInverse :=
  exact.selectPole search.penalty

/-- A vertex is moved along the row of the inverse that belongs to it. -/
theorem renewalStep_eq (search : Search α n u b) (model : LinearModel α n (u + b)) (j : Fin n) :
    ∃ c, search.renewalStep model j = c * search.simplex.inverse.get j ∧
      |c| = |Shape.renewalFactor * search.radius * search.shape.heights.get j| := by
  have scaled : ∀ (size sign : α) (v : Vector α n),
      (size * v).map (· * sign) = (size * sign) * v := by
    intro size sign v
    refine vector_ext fun i => ?_
    rw [get_map, get_smul, get_smul, mul_right_comm]
  simp only [renewalStep, scaled]
  refine ⟨_, rfl, ?_⟩
  rw [abs_mul]
  split
  · rw [abs_neg, abs_one, mul_one]
  · rw [abs_one, mul_one]

/-- **The pivot of a vertex that is moved is not zero.** -/
theorem renewalStep_pivot (exact : search.simplex.HasInverse)
    (shape : search.shape = Shape.of search.simplex) (positive : 0 < search.radius)
    (model : LinearModel α n (u + b)) (j : Fin n) :
    dot (search.simplex.inverse.get j) (search.renewalStep model j) ≠ 0 := by
  have length := dot_self_pos (exact.row_ne_zero j)
  have height := exact.height_pos j
  have renewal : (0 : α) < Shape.renewalFactor := by
    unfold Shape.renewalFactor
    norm_num
  obtain ⟨c, along, size⟩ := search.renewalStep_eq model j
  have moves : c ≠ 0 := by
    rw [← abs_pos, size, shape, abs_pos]
    positivity
  rw [along, dot_smul]
  exact mul_ne_zero moves length.ne'

theorem Weighed.sound {model : LinearModel α n (u + b)} {step : Vector α n}
    (weighed : Weighed model search step next) (exact : search.simplex.HasInverse)
    (proper : search.ProperRadius) (late : n < search.evaluations)
    (shape : search.shape = Shape.of search.simplex) : next.Sound := by
  cases weighed with
  | trial _ alike => exact alike.sound ⟨exact, proper, late, shape⟩
  | raised _ _ alike => exact alike.sound ⟨exact, proper, late, shape⟩
  | dethroned _ _ alike => exact alike.sound ⟨exact, proper, late⟩

theorem Sound.iterate (sound : search.Sound) {fuel : Nat} (due : search.phase = .iterate)
    (found : search.iterate fuel = some next) : next.Sound := by
  have ready := sound.ready
  simp only [Ready, due] at ready
  obtain ⟨proper, late⟩ := ready
  have exact := surveyed_exact sound.exact
  cases iterate_outcome found with
  | spoilt _ error =>
    rw [exact.inverseError] at error
    norm_num at error
  | @move j _ alike =>
    have pivot := renewalStep_pivot exact rfl proper.2 search.surveyed.modelled j
    exact alike.sound
      ⟨exact.replaceEdge pivot, proper, j.isLt.trans late, fun early => absurd late early.not_gt⟩
  | short _ _ _ alike => exact alike.sound ⟨exact, proper, late⟩
  | weigh journal _ _ weighed => exact weighed.sound exact proper late rfl

theorem halvedRadius_pos (proper : search.ProperRadius) : 0 < search.halvedRadius := by
  obtain ⟨⟨positive, -, -⟩, radius⟩ := proper
  simp only [halvedRadius]
  split
  · exact positive
  · exact mul_pos radius (by norm_num)

theorem Sound.reduce (sound : search.Sound) (due : search.phase = .reduce) :
    search.reduce.Sound := by
  have ready := sound.ready
  simp only [Ready, due] at ready
  obtain ⟨proper, late⟩ := ready
  cases search.reduce_outcome with
  | spared _ alike => exact alike.sound ⟨sound.exact, proper, late⟩
  | converged _ _ alike => exact alike.sound ⟨sound.exact, nofun⟩
  | shrunk _ _ alike =>
    exact alike.sound ⟨sound.exact, ⟨proper.1, halvedRadius_pos proper⟩, late⟩

/-! ## Answers -/

/-- The values at a vertex leave the inverse exact, and an initial simplex set up to the
next vertex. -/
theorem Sound.recordVertex (sound : search.Sound) {vertex : Vertex n}
    (due : search.phase = .evaluate (.vertex vertex)) (informed : Search α n u b)
    (simplex : informed.simplex = search.simplex) (radius : informed.radius = search.radius)
    (count : informed.evaluations = search.evaluations + 1) :
    (informed.recordVertex vertex).simplex.HasInverse ∧
      (search.evaluations ≤ n →
        (informed.recordVertex vertex).simplex.Opening search.radius search.evaluations) := by
  obtain ⟨proper, awaits⟩ := sound.ready.evaluate due
  cases vertex with
  | pole =>
    have opening := Simplex.Opening.setSample awaits .pole informed.evaluator.sample
    simp only [Search.recordVertex, simplex]
    exact ⟨opening.exact, fun _ => opening.mono (Nat.zero_le _)⟩
  | edge j =>
    obtain ⟨before, early⟩ := awaits
    simp only [Search.recordVertex, simplex, radius, count, Nat.add_le_add_iff_right]
    split
    case isTrue few =>
      have opening :=
        (early few).insertInitial proper.2.ne' informed.evaluator.sample informed.point
      exact ⟨opening.exact, fun _ => opening.mono before⟩
    case isFalse many => exact ⟨sound.exact.setSample (.edge j) _, fun few => absurd few many⟩

theorem Continued.sound {recorded : Search α n u b} (continued : Continued recorded next)
    (exact : recorded.simplex.HasInverse) (proper : recorded.ProperRadius)
    (counted : recorded.evaluations ≠ 0)
    (opening : ∀ j : Fin n, j.val + 1 = recorded.evaluations →
      recorded.simplex.Opening recorded.radius j) : next.Sound := by
  cases continued with
  | vertex j early alike =>
    exact alike.sound
      ⟨exact, proper, early ▸ Nat.lt_succ_self j.val, fun _ => opening j early⟩
  | complete late alike => exact alike.sound ⟨exact, proper, late.resolve_left counted⟩

theorem Sound.answerVertex (sound : search.Sound) {vertex : Vertex n}
    (due : search.phase = .evaluate (.vertex vertex)) {box : Box α n}
    (constraints : Vector α u) (objective : α) :
    ((search.informed box constraints objective).answer (.vertex vertex)).Sound := by
  obtain ⟨simplex, point, frame⟩ :=
    recordVertex_frame (search.informed box constraints objective) vertex
  obtain ⟨exact, opening⟩ :=
    sound.recordVertex due (search.informed box constraints objective) rfl rfl rfl
  have outcome := answer_vertex_outcome (search.informed box constraints objective) vertex
  have proper := (sound.ready.evaluate due).1
  refine outcome.sound exact ?_ ?_ fun j early => ?_
  · rw [frame]
    exact proper
  · rw [frame]
    exact Nat.succ_ne_zero _
  · have now : j.val = search.evaluations := by
      rw [frame] at early
      exact Nat.succ.inj early
    have radius : ((search.informed box constraints objective).recordVertex vertex).radius =
        search.radius := by rw [frame]; rfl
    rw [radius, now]
    exact opening (now ▸ j.isLt.le)

theorem Sound.answerTrial (sound : search.Sound) {plan : Plan α n}
    (due : search.phase = .evaluate (.trial plan)) {box : Box α n}
    (constraints : Vector α u) (objective : α) :
    ((search.informed box constraints objective).answer (.trial plan)).Sound := by
  obtain ⟨proper, late, shape⟩ := sound.ready.evaluate due
  have counted : n < (search.informed box constraints objective).evaluations :=
    late.trans (Nat.lt_succ_self _)
  cases answer_trial_outcome (search.informed box constraints objective) plan with
  | dropped _ alike => exact alike.sound ⟨sound.exact, proper, counted⟩
  | @taken j replaced alike =>
    have measured : (search.informed box constraints objective).shape =
        Shape.of search.simplex := shape
    have pivot : dot (search.simplex.inverse.get j) plan.step ≠ 0 := by
      rw [measured] at replaced
      exact sound.exact.pivot_ne_zero proper.2 replaced
    refine alike.sound ⟨sound.exact.replaceVertex pivot _, ?_⟩
    split
    · exact ⟨proper, counted⟩
    · exact ⟨proper, counted⟩

theorem Sound.answer (sound : search.Sound) {pending : Pending α n}
    (due : search.phase = .evaluate pending) {box : Box α n} (constraints : Vector α u)
    (objective : α) : ((search.informed box constraints objective).answer pending).Sound := by
  cases pending with
  | vertex vertex => exact sound.answerVertex due constraints objective
  | trial plan => exact sound.answerTrial due constraints objective

theorem Sound.counted (sound : search.Sound) {pending : Pending α n}
    (due : search.phase = .evaluate pending) (constraints : Vector α u) :
    (search.counted constraints).Sound := by
  obtain ⟨proper, awaits⟩ := sound.ready.evaluate due
  have still : (search.counted constraints).Awaits pending := by
    cases pending with
    | vertex vertex =>
      cases vertex with
      | pole => exact awaits
      | edge j =>
        obtain ⟨before, early⟩ := awaits
        exact ⟨before.trans (Nat.lt_succ_self _), fun few => early (Nat.le_of_succ_le few)⟩
    | trial plan =>
      obtain ⟨late, shape⟩ := awaits
      exact ⟨late.trans (Nat.lt_succ_self _), shape⟩
  refine ⟨sound.exact, ?_⟩
  have phase : (search.counted constraints).phase = .evaluate pending := due
  simp only [Ready, phase]
  exact ⟨proper, still⟩

/-! ## Reached states -/

/-- **Every reached state is sound.** -/
theorem Reached.sound {options : Options α} {box : Box α n} {record : Record α n u}
    (reached : Reached options box record search) : search.Sound := by
  induction reached with
  | create => exact sound_create options
  | enter _ _ entry ih => exact ih.enter entry
  | iterate _ _ due found ih => exact ih.iterate due found
  | reduce _ due ih => exact ih.reduce due
  | exhaust _ _ _ ih => exact ih.finish (by simp)
  | answer constraints objective _ due _ ih => exact ih.answer due constraints objective
  | halt constraints _ due _ ih => exact (alike_halted ..).sound ⟨ih.exact, by simp [Ready]⟩
  | fail constraints _ _ _ due _ ih => exact ih.counted due constraints
  | reset _ ih => exact ih.reset

/-- **The inverse of the simplex is exact in every reached state**, and its edges are
independent.  The pivot of a vertex that is moved is not zero, and neither is the pivot of
one that a trial point replaces, whatever reduction has been found for it.  The search never
ends for inaccuracy. -/
theorem Reached.inverse_exact {options : Options α} {box : Box α n} {record : Record α n u}
    (reached : Reached options box record search) :
    search.simplex.inverseMatrix = search.simplex.edgeMatrix⁻¹ ∧
      search.simplex.edgeMatrix.det ≠ 0 ∧
      (∀ j, search.phase = .iterate → search.surveyed.misplaced = some j →
        dot (search.surveyed.simplex.inverse.get j)
          (search.surveyed.renewalStep search.surveyed.modelled j) ≠ 0) ∧
      (∀ plan reduction j, search.phase = .evaluate (.trial plan) →
        search.simplex.replaced search.shape plan.step search.radius reduction = some j →
        dot (search.simplex.inverse.get j) plan.step ≠ 0) ∧
      search.status? ≠ some .inaccurate ∧
      ∀ fuel (oracle : Oracle Id α n u) (point : Array α),
        ((search.next fuel oracle.recorded box point).run record).1.result ≠
          .ok (some .inaccurate) := by
  have sound := reached.sound
  obtain ⟨inverse, regular⟩ := sound.exact.eq_inv
  refine ⟨inverse, regular, fun j due misplaced => ?_, fun plan reduction j due replaced => ?_,
    fun ended => ?_, fun fuel oracle point result => ?_⟩
  · have ready := sound.ready
    simp only [Ready, due] at ready
    exact renewalStep_pivot (surveyed_exact sound.exact) rfl ready.1.2 _ j
  · obtain ⟨proper, -, shape⟩ := sound.ready.evaluate due
    rw [shape] at replaced
    exact sound.exact.pivot_ne_zero proper.2 replaced
  · have ready := sound.ready
    unfold status? at ended
    split at ended
    case h_1 status due =>
      simp only [Ready, due] at ready
      exact ready (by simpa using ended)
    case h_2 => cases ended
  · obtain ⟨-, entered, settled, -, -, ended⟩ := next_ended result
    have ready := (reached.next fuel oracle point).sound.ready
    simp only [Ready, ended.phase] at ready
    exact ready rfl

/-! ## A search on the real line -/

/-- Options for the real line: the radius goes from one to one half. -/
noncomputable def lineOptions : Options ℝ where
  radiusBegin := 1
  radiusEnd := 1 / 2

/-- The real line without bounds. -/
noncomputable def realLine : Box ℝ 1 :=
  Box.unbounded 1 one_pos

/-- The search on the line that has been started at zero. -/
noncomputable def lineStart : Search ℝ 1 0 0 :=
  (create 1 0 0 lineOptions).startAt #v[0]

/-- Any search in one dimension may start at zero if its radii are in order. -/
theorem enter_at_zero {options : Options ℝ} (radii : options.ValidRadii)
    (enough : 2 ≤ options.maxEvaluations) (u b : Nat) :
    (create 1 u b options).enter #[0] = .ok ((create 1 u b options).startAt #v[0]) := by
  have clear : options.obstacle? 1 #[0] = none :=
    (options.obstacle?_eq_none_iff 1 #[0]).mpr ⟨one_ne_zero, ⟨rfl, by simp⟩, radii, enough⟩
  simp only [enter, create]
  rw [clear]
  rfl

theorem validRadii_line : lineOptions.ValidRadii := by
  norm_num [Options.ValidRadii, lineOptions]

theorem enter_line : (create 1 0 0 lineOptions).enter #[0] = .ok lineStart :=
  enter_at_zero validRadii_line (by decide) 0 0

theorem reached_lineStart : Reached lineOptions realLine #[] lineStart :=
  Reached.create.enter #[0] enter_line

/-- Two questions that are answered with zero complete the simplex. -/
theorem reached_on_line :
    ∃ (record : Record ℝ 1 0) (search : Search ℝ 1 0 0),
      Reached lineOptions realLine record search ∧ search.phase = .iterate ∧
        ∀ inquiry ∈ record, inquiry.answer = .ok 0 := by
  have first := reached_lineStart.answer #v[] 0 rfl (by decide)
  have second := first.answer #v[] 0 rfl (by decide)
  refine ⟨_, _, second, rfl, fun inquiry asked => ?_⟩
  rcases Array.mem_push.mp asked with before | rfl
  · rcases Array.mem_push.mp before with none | rfl
    · exact absurd none (Array.not_mem_empty _)
    · rfl
  · rfl

theorem inverse_exact_on_line :
    ∃ (record : Record ℝ 1 0) (search : Search ℝ 1 0 0),
      Reached lineOptions realLine record search ∧ search.phase = .iterate ∧
        search.simplex.inverseMatrix = search.simplex.edgeMatrix⁻¹ ∧
        search.simplex.edgeMatrix.det ≠ 0 := by
  obtain ⟨record, search, reached, due, -⟩ := reached_on_line
  obtain ⟨inverse, regular, -⟩ := reached.inverse_exact
  exact ⟨record, search, reached, due, inverse, regular⟩

end DerivativeFree.Search
