import DerivativeFree.Proofs.Interpolation.Heights
import DerivativeFree.Proofs.Search.Radius

/-!
# Heights along a search

A search changes the shape of its simplex in two ways, and for both it knows beforehand what the
height of a vertex will be.

An iteration that moves a vertex lays its edge along the normal of the opposite face, and either
takes one away from the edges that are too long or more than doubles the volume
(`Reached.shape_improves`).

A trial point gives the vertex that it replaces the height that was foreseen
(`Reached.height_foreseen`).  If the point is no improvement, or if the vertex was chosen for being
far away, a vertex that was high enough stays so.
-/

namespace DerivativeFree.Search

set_option autoImplicit false

variable {α : Type} [EuclideanField α] {n u b : Nat} {fuel : Nat} {options : Options α}
  {box : Box α n} {record : Record α n u} {search next : Search α n u b}

/-! ## A vertex that is moved -/

/-- A vertex that is moved is the worst one of a shape that is not acceptable. -/
theorem worst_of_misplaced {j : Fin n} (misplaced : search.misplaced = some j) :
    search.acceptable = false ∧
      search.shape.worst (Shape.lengthFactor * search.radius) = some j := by
  simp only [Search.misplaced] at misplaced
  split at misplaced
  case isTrue => cases misplaced
  case isFalse spoilt =>
    rw [Bool.or_eq_true, not_or] at spoilt
    exact ⟨Bool.eq_false_iff.mpr spoilt.2, misplaced⟩

/-- An iteration that asks for the values at a vertex has moved it. -/
theorem moved_of_iterate (found : search.iterate fuel = some next) {j : Fin n}
    (moves : next.phase = .evaluate (.vertex (.edge j))) :
    search.surveyed.misplaced = some j ∧ next.Alike
      (search.surveyed.moved j (search.surveyed.renewalStep search.surveyed.modelled j)) := by
  cases iterate_outcome found with
  | @move k misplaced alike =>
    have waits := alike.measured.1.symm.trans moves
    obtain rfl : k = j := Vertex.edge.inj (Pending.vertex.inj (Phase.evaluate.inj waits))
    exact ⟨misplaced, alike⟩
  | spoilt _ _ alike => cases alike.measured.1.symm.trans moves
  | short _ _ _ alike => cases alike.measured.1.symm.trans moves
  | weigh _ _ _ weighed =>
    cases weighed with
    | trial _ alike => cases alike.measured.1.symm.trans moves
    | raised _ _ alike => cases alike.measured.1.symm.trans moves
    | dethroned _ _ alike => cases alike.measured.1.symm.trans moves

/-- **An iteration that moves a vertex improves the shape of its simplex.**  The simplex is that
of the iteration, with its best vertex as the pole. -/
theorem Reached.shape_improves (reached : Reached options box record search)
    (due : search.phase = .iterate) (found : search.iterate fuel = some next) {j : Fin n}
    (moves : next.phase = .evaluate (.vertex (.edge j))) :
    search.surveyed.simplex.Improved next.simplex j search.radius := by
  have sound := reached.sound
  have exact := surveyed_exact sound.exact
  have ready := sound.ready
  simp only [Ready, due] at ready
  have positive : 0 < search.radius := ready.1.2
  obtain ⟨misplaced, alike⟩ := moved_of_iterate found moves
  obtain ⟨spoilt, worst⟩ := worst_of_misplaced misplaced
  obtain ⟨c, along, size⟩ : ∃ c, search.surveyed.renewalStep search.surveyed.modelled j =
      c * search.surveyed.simplex.inverse.get j ∧
      |c| = |Shape.renewalFactor * search.radius *
        (Shape.of search.surveyed.simplex).heights.get j| :=
    renewalStep_eq ..
  have renewal : (0 : α) < Shape.renewalFactor := by norm_num [Shape.renewalFactor]
  have high := exact.height_pos j
  rw [abs_of_pos (mul_pos (mul_pos renewal positive) high)] at size
  have improved := exact.improved positive size spoilt worst
  rw [← along] at improved
  rw [alike.simplex]
  exact improved

/-! ### A search that does not move -/

/-- Options that reduce the radius once, from one to two fifths. -/
noncomputable def idleOptions : Options ℝ where
  radiusBegin := 1
  radiusEnd := 0.4

/-- A simplex on the line with the value zero at both vertices, which are one apart. -/
noncomputable def idleSimplex : Simplex ℝ 1 (0 + 0) where
  edges := .replicate 1 (.replicate 1 1)
  pole := .replicate 1 0
  inverse := .replicate 1 (.replicate 1 1)
  samples := .replicate 1 ⟨.replicate 0 0, 0, 0⟩
  poleSample := ⟨.replicate 0 0, 0, 0⟩

/-- A search on the line with this simplex. -/
structure Idle (search : Search ℝ 1 0 0) (radius : ℝ) : Prop where
  options : search.options = idleOptions
  simplex : search.simplex = idleSimplex
  radius : search.radius = radius
  penalty : search.penalty = 0

theorem hasInverse_idleSimplex : idleSimplex.HasInverse := by
  intro i j
  rw [Fin.fin_one_eq_zero i, Fin.fin_one_eq_zero j, if_pos rfl]
  simp [idleSimplex, get_eq_getElem]

theorem idleSimplex_selectPole : idleSimplex.selectPole 0 = (idleSimplex, none) := by
  apply Simplex.selectPole_of_not_dethroned
  simp [Simplex.dethroned, Simplex.merit, Simplex.winsTie, Simplex.violation, Simplex.sample,
    idleSimplex, Sample.merit, get_eq_getElem, List.finRange_succ]

theorem idleSimplex_shape : Shape.of idleSimplex = ⟨#v[1], #v[1]⟩ := by
  have one : Scalar.sqrt (1 : ℝ) = 1 := sqrt_eq_of_mul_self zero_le_one (mul_one 1)
  simp [Shape.of, idleSimplex, dot_eq_sum, get_eq_getElem, one]

theorem idleSimplex_descent : (LinearModel.interpolate idleSimplex).descent = 0 := by
  apply vector_ext
  intro i
  simp [LinearModel.descent, LinearModel.interpolate, LinearModel.gradientOf, idleSimplex,
    dot_eq_sum, get_eq_getElem, column, Sample.row]

namespace Idle

variable {search : Search ℝ 1 0 0} {radius : ℝ}

theorem surveyed_simplex (idle : search.Idle radius) : search.surveyed.simplex = idleSimplex := by
  change (search.simplex.selectPole search.penalty).1 = idleSimplex
  rw [idle.simplex, idle.penalty, idleSimplex_selectPole]

/-- There is no step, and a reduction is asked for. -/
theorem iterate (idle : search.Idle radius) (positive : 0 < radius)
    (stepDue : search.stepDue = true) : ∃ next, search.iterate 1 = some next ∧
      next.Idle radius ∧ next.phase = .reduce ∧ next.stepDue = true ∧
      next.acceptable = search.surveyed.acceptable := by
  have flat : search.surveyed.modelled.descent = 0 := by
    rw [modelled, idle.surveyed_simplex, idleSimplex_descent]
  obtain ⟨workspace, active, solved, still⟩ : ∃ ended active,
      search.workspace.solve search.surveyed.modelled search.radius 1 =
        some (ended, .stalled active) ∧ ended.step = 0 :=
    search.workspace.solve_flat rfl flat search.radius 0
  have placed : search.surveyed.misplaced = none := by
    simp [Search.misplaced, surveyed, assess, stepDue]
  have short : dot workspace.step workspace.step < 0.25 * search.radius * search.radius := by
    rw [still, dot_zero, idle.radius]
    positivity
  have exact : search.simplex.HasInverse := idle.simplex ▸ hasInverse_idleSimplex
  obtain ⟨next, found, journal, rfl⟩ := iterate_of_short exact placed solved short
  exact ⟨_, found, ⟨idle.options, idle.surveyed_simplex, idle.radius, idle.penalty⟩, rfl, rfl, rfl⟩

theorem surveyed_acceptable (idle : search.Idle radius) : search.surveyed.acceptable =
    (⟨#v[1], #v[1]⟩ : Shape ℝ 1).acceptable (Shape.heightFactor * radius)
      (Shape.lengthFactor * radius) := by
  change (Shape.of search.surveyed.simplex).acceptable (Shape.heightFactor * search.radius)
    (Shape.lengthFactor * search.radius) = _
  rw [idle.surveyed_simplex, idleSimplex_shape, idle.radius]

theorem acceptable (idle : search.Idle 1) : search.surveyed.acceptable = true := by
  rw [idle.surveyed_acceptable]
  norm_num [Shape.acceptable, List.finRange_succ, get_eq_getElem, Shape.heightFactor,
    Shape.lengthFactor]

/-- For the lesser radius the edge is too long. -/
theorem not_acceptable (idle : search.Idle (0.4)) : search.surveyed.acceptable = false := by
  rw [idle.surveyed_acceptable]
  norm_num [Shape.acceptable, List.finRange_succ, get_eq_getElem, Shape.heightFactor,
    Shape.lengthFactor]

theorem reduce (idle : search.Idle 1) (acceptable : search.acceptable = true) :
    search.reduce.Idle (0.4) ∧ search.reduce.phase = .iterate ∧
      search.reduce.stepDue = search.stepDue := by
  have halved : search.halvedRadius = 0.4 := by
    simp only [halvedRadius, idle.radius, idle.options, idleOptions]
    norm_num
  have penalty : search.loweredPenalty = 0 := by simp [loweredPenalty, idle.penalty]
  cases search.reduce_outcome with
  | spared spoilt => cases acceptable.symm.trans spoilt
  | converged _ final =>
    rw [idle.radius, idle.options, idleOptions] at final
    norm_num at final
  | shrunk _ _ alike =>
    obtain ⟨journal, same⟩ := alike
    rw [same]
    exact ⟨⟨idle.options, idle.simplex, halved, penalty⟩, rfl, rfl⟩

/-- If no step is due, the vertex has to be moved. -/
theorem misplaced (idle : search.Idle (0.4)) (stepDue : search.stepDue = false) :
    search.surveyed.misplaced = some 0 := by
  have calm : search.surveyed.stepDue = false := stepDue
  have spoilt := idle.not_acceptable
  have proper : search.ProperRadius := by
    rw [ProperRadius, idle.options, idle.radius]
    norm_num [Options.ValidRadii, idleOptions]
  obtain ⟨j, worst⟩ := Option.ne_none_iff_exists'.mp (worst_ne_none proper spoilt)
  rw [Search.misplaced, calm, spoilt, ← Fin.fin_one_eq_zero j]
  exact worst

end Idle

/-- The search on the line that has been started at zero. -/
noncomputable def idleStart : Search ℝ 1 0 0 :=
  (create 1 0 0 idleOptions).startAt (.replicate 1 0)

theorem reached_idleStart : Reached idleOptions realLine #[] idleStart := by
  have radii : idleOptions.ValidRadii := by
    norm_num [Options.ValidRadii, idleOptions]
  exact Reached.create.enter #[0] (enter_at_zero radii (by decide) 0 0)

/-- The search on the line after the value zero has been found at zero. -/
noncomputable def idleOpened : Search ℝ 1 0 0 :=
  (idleStart.informed realLine (.replicate 0 0) 0).answer (.vertex .pole)

/-- The search on the line after the value zero has been found at one as well. -/
noncomputable def idleComplete : Search ℝ 1 0 0 :=
  (idleOpened.informed realLine (.replicate 0 0) 0).answer (.vertex (.edge (.last 0)))

theorem idle_idleComplete : idleComplete.Idle 1 := by
  refine ⟨rfl, ?_, rfl, rfl⟩
  have simplex : idleComplete.simplex =
      (((Simplex.axisAligned (.replicate 1 0) 1 (0 + 0)).setSample .pole
        (informed realLine idleStart (.replicate 0 0) 0).evaluator.sample).insertInitial 0
          (informed realLine idleOpened (.replicate 0 0) 0).evaluator.sample
          idleOpened.point 1).1 := rfl
  rw [simplex, informed_on_line, informed_on_line]
  simp [Simplex.insertInitial, Simplex.axisAligned, Simplex.setSample, diagonal, idleSimplex,
    ofFn_eq_mk]

theorem reached_idleComplete : ∃ record, Reached idleOptions realLine record idleComplete :=
  have first := reached_idleStart.answer (.replicate 0 0) 0 rfl (by decide)
  ⟨_, first.answer (.replicate 0 0) 0 rfl (by decide)⟩

/-- After the radius has been reduced, the vertex is moved closer to the pole. -/
theorem shape_improves_on_line :
    ∃ (record : Record ℝ 1 0) (search next : Search ℝ 1 0 0),
      Reached idleOptions realLine record search ∧ search.phase = .iterate ∧
      search.iterate 0 = some next ∧ next.phase = .evaluate (.vertex (.edge 0)) ∧
      search.surveyed.simplex.Improved next.simplex 0 search.radius ∧
      next.simplex.overlong (Shape.lengthFactor * (0.4)) = ∅ := by
  obtain ⟨record, reached⟩ := reached_idleComplete
  have idle := idle_idleComplete
  -- A step that is too short reduces the radius.
  obtain ⟨first, found, idle₁, due₁, stepDue₁, acceptable₁⟩ := idle.iterate one_pos rfl
  have reached₁ := (reached.iterate 1 rfl found).reduce due₁
  obtain ⟨idle₂, due₂, stepDue₂⟩ := idle₁.reduce (acceptable₁.trans idle.acceptable)
  -- Another one finds the edge too long.
  obtain ⟨second, found₃, idle₃, due₃, -, acceptable₃⟩ :=
    idle₂.iterate (by norm_num) (stepDue₂.trans stepDue₁)
  have spoilt := acceptable₃.trans idle₂.not_acceptable
  have reached₃ := (reached₁.iterate 1 due₂ found₃).reduce due₃
  rw [reduce_of_spoilt spoilt] at reached₃
  have idle₄ : second.spared.Idle (0.4) :=
    ⟨idle₃.options, idle₃.simplex, idle₃.radius, idle₃.penalty⟩
  obtain ⟨next, found₄, moves⟩ :=
    iterate_of_misplaced reached₃.sound.exact (idle₄.misplaced rfl) 0
  have improved := reached₃.shape_improves rfl found₄ moves
  refine ⟨_, _, next, reached₃, rfl, found₄, moves, improved, ?_⟩
  have long : 0 ∈ second.spared.surveyed.simplex.overlong (Shape.lengthFactor * (0.4)) := by
    rw [Simplex.mem_overlong, idle₄.surveyed_simplex, idleSimplex_shape]
    norm_num [Shape.lengthFactor, get_eq_getElem]
  have fewer := improved.shortens (by
    rw [idle₄.radius]
    exact Finset.ne_empty_of_mem long)
  rw [idle₄.radius] at fewer
  have most := Finset.card_le_univ
    (second.spared.surveyed.simplex.overlong (Shape.lengthFactor * (0.4)))
  rw [Fintype.card_fin] at most
  exact Finset.card_eq_zero.mp (by omega)

/-! ## A vertex that is replaced -/

/-- **A trial point gives the vertex that it replaces the height that was foreseen.**  If the point
is no improvement, or if the vertex was chosen for being far away, it is not lower than it was or
at least as high as the radius asks for; so a vertex that was high enough stays so. -/
theorem Reached.height_foreseen (reached : Reached options box record search) {plan : Plan α n}
    (due : search.phase = .evaluate (.trial plan)) (constraints : Vector α u) (objective : α)
    {informed : Search α n u b} (told : search.informed box constraints objective = informed)
    (answered : informed.answer (.trial plan) = next) {j : Fin n}
    (replaced : search.simplex.replaced search.shape plan.step search.radius
      (informed.reductions plan).1 = some j) :
    next.simplex.point (.edge j) = search.simplex.pole + plan.step ∧
      next.simplex.HasHeight j ((search.simplex.heightsAfter search.shape plan.step).get j) ∧
      (Shape.of next.simplex).heights.get j =
        (search.simplex.heightsAfter search.shape plan.step).get j ∧
      search.simplex.HasHeight j (search.shape.heights.get j) ∧
      ((informed.reductions plan).1 ≤ 0 ∨
        search.simplex.farVertex search.shape plan.step search.radius
          (0 < (informed.reductions plan).1) = some j →
        min (Shape.heightFactor * search.radius) (search.shape.heights.get j) ≤
            (search.simplex.heightsAfter search.shape plan.step).get j ∧
          (Shape.heightFactor * search.radius ≤ search.shape.heights.get j →
            Shape.heightFactor * search.radius ≤ (Shape.of next.simplex).heights.get j)) := by
  obtain ⟨proper, -, measured⟩ := reached.sound.ready.evaluate due
  have exact := reached.sound.exact
  rw [measured] at replaced ⊢
  have after : next.simplex =
      search.simplex.replaceVertex j plan.step informed.evaluator.sample := by
    subst told
    have outcome := answer_trial_outcome (search.informed box constraints objective) plan
    rw [answered] at outcome
    have chosen : (search.informed box constraints objective).simplex.replaced
        (search.informed box constraints objective).shape plan.step
        (search.informed box constraints objective).radius
        ((search.informed box constraints objective).reductions plan).1 = some j := by
      rw [← measured] at replaced
      exact replaced
    cases outcome with
    | dropped kept => cases kept.symm.trans chosen
    | taken taken alike =>
      obtain rfl := Option.some.inj (taken.symm.trans chosen)
      obtain ⟨journal, rfl⟩ := alike
      rfl
  have pivot := exact.pivot_ne_zero proper.2 replaced
  have foreseen := search.simplex.heights_replaceVertex j plan.step informed.evaluator.sample
  have height := (exact.replaceVertex pivot informed.evaluator.sample).hasHeight j
  rw [after, foreseen]
  rw [foreseen] at height
  refine ⟨?_, height, rfl, exact.hasHeight j, fun guarded => ?_⟩
  · rw [Simplex.replaceVertex, Simplex.point_setSample, Simplex.point_replaceEdge, if_pos rfl]
  · have least := exact.min_le_heightsAfter replaced guarded
    exact ⟨least, fun high => (min_eq_left high).symm.trans_le least⟩

/-- On the line the other vertex is far from a trial point on the other side of the pole. -/
theorem lineSimplex_farVertex :
    lineSimplex.farVertex (Shape.of lineSimplex) #v[1] 1 true = some 0 := by
  have foreseen : (lineSimplex.heightsAfter ⟨#v[1], #v[1]⟩ #v[1]).get 0 = 1 := by
    rw [Simplex.heightsAfter, Vector.get_ofFn, lineSimplex_volumeFactors one_pos, one_mul]
    rfl
  have distance : (lineSimplex.edges.map (Simplex.distanceFrom #v[1])).get 0 = 2 := by
    have across : lineSimplex.edges.get 0 = #v[-1] := rfl
    rw [get_map, Simplex.distanceFrom_eq, across, mk_sub_mk, lengthOf, dot_mk_mk]
    exact sqrt_eq_of_mul_self zero_le_two (by norm_num)
  cases chosen : lineSimplex.farVertex (Shape.of lineSimplex) #v[1] 1 true with
  | some j => rw [Fin.fin_one_eq_zero j]
  | none =>
    rw [lineSimplex_shape] at chosen
    have near := Shape.greatestAbove_none chosen 0 (by
      rw [foreseen]
      norm_num [Shape.heightFactor])
    rw [if_pos rfl, distance] at near
    norm_num [Shape.farFactor] at near

/-- A trial point on the line replaces a vertex that is far away. -/
theorem height_foreseen_on_line :
    ∃ (record : Record ℝ 1 0) (search next : Search ℝ 1 0 0),
      Reached lineOptions realLine record search ∧
      search.phase = .evaluate (.trial ⟨#v[1], 0, 1⟩) ∧
      (search.informed realLine #v[] (-1)).answer (.trial ⟨#v[1], 0, 1⟩) = next ∧
      search.simplex.farVertex search.shape #v[1] search.radius true = some 0 ∧
      next.simplex.HasHeight 0 ((search.simplex.heightsAfter search.shape #v[1]).get 0) ∧
      min (Shape.heightFactor * search.radius) (search.shape.heights.get 0) ≤
        (search.simplex.heightsAfter search.shape #v[1]).get 0 := by
  obtain ⟨record, complete, reached, -, -, due, -, line⟩ := reached_lineSimplex
  obtain ⟨search, found, tried, shape, -, waiting, -⟩ := line.iterate one_pos 0
  have reductions := tried.reductions #v[] (by norm_num : (-1 : ℝ) ≠ 0)
  rw [neg_neg] at reductions
  have far : search.simplex.farVertex search.shape #v[1] search.radius true = some 0 := by
    rw [tried.simplex, shape, tried.radius]
    exact lineSimplex_farVertex
  have improves : decide ((0 : ℝ) < 1) = true := decide_eq_true one_pos
  have replaced : search.simplex.replaced search.shape #v[1] search.radius
      ((search.informed realLine #v[] (-1)).reductions ⟨#v[1], 0, 1⟩).1 = some 0 := by
    rw [reductions, Simplex.replaced, improves, far, Option.some_or]
  obtain ⟨-, height, -, -, keeps⟩ :=
    (reached.iterate 1 due found).height_foreseen waiting #v[] (-1) rfl rfl replaced
  rw [reductions, improves] at keeps
  exact ⟨_, search, _, reached.iterate 1 due found, waiting, rfl, far, height,
    (keeps (.inr far)).1⟩

end DerivativeFree.Search
