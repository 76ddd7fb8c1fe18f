import DerivativeFree.Proofs.TrustRegion.Combination
import DerivativeFree.Proofs.TrustRegion.Guarded

/-!
# The step that nothing blocks

If all constraints hold in the pole, then the second stage begins there, and its first turn takes
the objective into the active set.  As no other constraint is active, all columns of the basis are
turned until the first of them lies along the gradient (`alignBasis_idle`), whatever their number.
The workspace then goes `Downhill`, against the gradient of the objective at unit rate.

The walk leads to the boundary of the trust region.  The objective itself does not block it, and a
constraint does not either if it holds at the end (`Downhill.turn`).  So the step is the steepest
one of the length of the radius if that keeps all constraints (`solve_downhill`).  An objective
without a gradient cannot enter, and there is no step (`solve_flat`).  `solve_descends` says both
in terms of the gradient that the model holds negated.
-/

namespace DerivativeFree

set_option autoImplicit false

variable {α : Type} [EuclideanField α] {n m : Nat}

/-- The gradient of the objective, which is to be followed backwards, has been negated in the
model. -/
def LinearModel.descent (model : LinearModel α n m) : Vector α n :=
  model.gradients.get (Fin.last m)

/-- The step of the given length in the direction in which the objective falls the most. -/
def LinearModel.steepest (model : LinearModel α n m) (length : α) : Vector α n :=
  (length / Scalar.sqrt (dot model.descent model.descent)) * model.descent

namespace Workspace

variable {model : LinearModel α n m} {workspace : Workspace α n m} {radius : α} {k : Nat}

/-! ## The objective enters -/

/-- Without active constraints the first column is turned towards the gradient, and its component
is all of the gradient. -/
theorem alignBasis_idle {basis : Vector (Vector α n) n} {gradient : Vector α n}
    {state : Vector (Vector α n) n × α} (turned : AlignedFrom basis gradient 0 0 state) :
    gradient = state.2 * columnAt state.1 0 := by
  refine turned.ortho.ext fun j => ?_
  rw [turned.component j (Nat.zero_le j), dot_smul]
  by_cases first : j = 0
  · rw [if_pos first, first]
    by_cases component : state.2 = 0
    · rw [component, zero_mul]
    · rw [turned.ortho.self (turned.inside component), mul_one]
  · rw [if_neg first, turned.ortho.apart first, mul_zero]

/-- The objective is the only active constraint, and the search goes against its gradient at unit
rate from the pole, where nothing is violated. -/
structure Downhill (model : LinearModel α n m) (workspace : Workspace α n m) : Prop where
  direction : workspace.direction = (1 / dot model.descent model.descent) * model.descent
  step : workspace.step = 0
  violation : workspace.violation = 0
  active : workspace.active = 1
  considered : workspace.considered = m + 1
  constraint : ∀ k, 1 ≤ k → k < m + 1 → workspace.constraintAt k ≠ Fin.last m

theorem alignBasis_opening (workspace : Workspace α n m) (model : LinearModel α n m)
    (gradient : Vector α n) : AlignedFrom (diagonal n 1) gradient 0 0
      ((workspace.begin model).includeObjective.alignBasis gradient) := by
  have ortho : OrthonormalColumns (workspace.begin model).includeObjective.basis :=
    .diagonal n
  exact AlignedFrom.alignBasis ortho gradient

theorem gradientAt_opening (workspace : Workspace α n m) (model : LinearModel α n m) :
    (workspace.begin model).includeObjective.gradientAt model m = model.descent := by
  rw [gradientAt, constraintAt_includeObjective, if_pos rfl, LinearModel.descent]

/-- The constraint at the first position makes room for the objective. -/
theorem constraintAt_opening (workspace : Workspace α n m) (model : LinearModel α n m)
    (later : 1 ≤ k) (inside : k < m + 1) :
    (workspace.begin model).includeObjective.constraintAt (Equiv.swap m 0 k) ≠ Fin.last m := by
  have moved : Equiv.swap m 0 k < m := by
    rw [Equiv.swap_apply_def]
    split_ifs <;> omega
  rw [constraintAt_includeObjective, if_neg moved.ne, constraintAt_begin workspace model moved]
  exact Fin.ne_of_lt moved

/-- The direction is the first column, scaled to unit rate. -/
theorem descend_of_single {gradient column : Vector α n} {component : α}
    (along : gradient = component * column) (nonzero : gradient ≠ 0)
    (unit : dot column column = 1) :
    1 / component * column = (1 / dot gradient gradient) * gradient := by
  have free : component ≠ 0 := by
    rintro rfl
    exact nonzero (along.trans (vector_ext fun i => by simp))
  have square : dot gradient gradient = component * component := by
    rw [along, smul_dot, dot_smul, unit, mul_one]
  refine vector_ext fun i => ?_
  rw [square, along, get_smul, get_smul, get_smul]
  field_simp

/-- The objective stays where it has entered. -/
theorem settleEntry_of_objective (model : LinearModel α n m) (second : workspace.secondStage = true)
    (objective : workspace.constraintAt workspace.incoming = Fin.last m) :
    workspace.settleEntry model = workspace.placed.descend := by
  have placed : workspace.placed.secondStage = true := second
  rw [settleEntry_eq, if_pos placed, if_neg fun entered => entered.1 objective]

/-- **The objective enters first, if it has a gradient.** -/
theorem revise_downhill (workspace : Workspace α n m) (satisfied : (worstBound model).1 = 0)
    (steep : model.descent ≠ 0) :
    ∃ revised, (workspace.begin model).includeObjective.revise model = (revised, true) ∧
      revised.Downhill model := by
  have turned := workspace.alignBasis_opening model model.descent
  have along := alignBasis_idle turned
  obtain ⟨basis, component, aligned⟩ : ∃ basis component,
      (workspace.begin model).includeObjective.alignBasis model.descent = (basis, component) :=
    ⟨_, _, rfl⟩
  rw [aligned] at along turned
  have free : component ≠ 0 := by
    intro zero
    refine steep (along.trans (vector_ext fun i => ?_))
    rw [zero, get_smul, zero_mul, get_zero]
  have unit := turned.ortho.self (turned.inside free)
  have objective : (workspace.begin model).includeObjective.constraintAt m = Fin.last m := by
    rw [constraintAt_includeObjective, if_pos rfl]
  have revision := revise_of_free (Nat.zero_le m) (workspace.gradientAt_opening model) aligned free
  have entered : (enterIndependent { (workspace.begin model).includeObjective with
      basis, trial := model.descent } component).secondStage = true :=
    secondStage_includeObjective (workspace.begin model)
  rw [settleEntry_of_objective model entered objective] at revision
  refine ⟨_, revision, ?direction, rfl, satisfied, rfl, rfl, fun k later inside => ?constraint⟩
  case direction =>
    rw [← descend_of_single along steep unit]
    change 1 / entry (Vector.setIfInBounds _ 0 component) 0 * columnAt basis 0 = _
    rw [entry_setIfInBounds _ (Nat.succ_pos m), if_pos rfl]
  case constraint =>
    have swapped := constraintAt_swap (workspace.begin model).includeObjective
      (Nat.lt_succ_self m) (Nat.succ_pos m) k
    exact swapped.symm ▸ workspace.constraintAt_opening model later inside

/-! ## The walk -/

/-- A walk that makes nothing negative is not blocked. -/
theorem blocking_of_nonneg
    (nonneg : ∀ k < workspace.considered, 0 ≤ entry workspace.candidates k) :
    workspace.blocking = (1, none) := by
  refine foldl_invariant _ (1, none) (fun _ found => found = (1, none)) rfl fun k found before => ?_
  rw [if_neg (not_lt.mpr (nonneg k k.isLt))]
  exact before

/-- The last active constraint of the second stage gets no negative multiplier. -/
theorem candidate_last_nonneg (model : LinearModel α n m) (second : workspace.secondStage = true)
    (some : 0 < workspace.active) (few : workspace.active ≤ m + 1) (length : α) :
    0 ≤ entry (workspace.judged model length).candidates (workspace.active - 1) := by
  have walk : (workspace.walk length).secondStage = true := second
  have place : workspace.active - 1 < m + 1 := by omega
  have taken : ¬ (workspace.active ≤ workspace.active - 1 ∧
      workspace.active - 1 < workspace.considered) := by omega
  have last : entry (workspace.judged model length).candidates (workspace.active - 1) =
      entry ((workspace.walk length).activeCandidates model) (workspace.active - 1) := by
    rw [judged, walked, if_pos walk, entry_of_lt _ place, entry_of_lt _ place]
    simp only [withCandidates, Vector.getElem_ofFn]
    exact if_neg taken
  rw [last, activeCandidates, if_pos ⟨walk, some⟩]
  have least := entry_setIfInBounds ((Fin.foldr (workspace.walk length).active
    (fun k => multiplierAt model (workspace.walk length) k)
    ((workspace.walk length).trial, (workspace.walk length).candidates)).2) place
  have active : (workspace.walk length).active = workspace.active := rfl
  rw [active] at least ⊢
  rw [least, if_pos rfl, larger_eq_max]
  exact le_max_right _ _

namespace Downhill

variable {revised : Workspace α n m}

theorem room (downhill : revised.Downhill model) (radius : α) :
    revised.room radius = radius * radius := by
  have still : ∀ i, revised.step.get i = 0 := fun i => by rw [downhill.step, get_zero]
  rw [room_eq revised fun i => .inl (still i), downhill.step, dot_zero, sub_zero]

theorem fullLength (downhill : revised.Downhill model) (steep : model.descent ≠ 0)
    (positive : 0 < radius) : revised.fullLength (radius * radius) =
      radius * Scalar.sqrt (dot model.descent model.descent) := by
  have square := dot_self_pos steep
  have size := sqrt_pos square
  have whole := sqrt_mul_sqrt square.le
  have along : dot revised.step revised.direction = 0 := by rw [downhill.step, zero_dot]
  have root : radius / Scalar.sqrt (dot model.descent model.descent) *
      (radius / Scalar.sqrt (dot model.descent model.descent)) =
        dot revised.direction revised.direction * (radius * radius) + 0 * 0 := by
    rw [downhill.direction, smul_dot, dot_smul]
    generalize Scalar.sqrt (dot model.descent model.descent) = length at *
    rw [← whole]
    field_simp
    ring
  rw [fullLength_eq revised (mul_self_nonneg radius) along (div_pos positive size).le root
    (.inl rfl), add_zero]
  field_simp

/-- The walk ends at the steepest step. -/
theorem trial (downhill : revised.Downhill model) (steep : model.descent ≠ 0) (radius : α) :
    (revised.judged model (radius * Scalar.sqrt (dot model.descent model.descent))).trial =
      model.steepest radius := by
  have square := dot_self_pos steep
  have size := sqrt_pos square
  have whole := sqrt_mul_sqrt square.le
  rw [judged_trial, downhill.step, downhill.direction]
  refine vector_ext fun i => ?_
  rw [LinearModel.steepest, get_add, get_zero, zero_add, get_smul, get_smul, get_smul]
  generalize Scalar.sqrt (dot model.descent model.descent) = length at *
  rw [← whole]
  field_simp

theorem secondStage (downhill : revised.Downhill model) : revised.secondStage = true := by
  rw [Workspace.secondStage, downhill.considered, decide_eq_true (Nat.lt_succ_self m)]

/-- Nothing blocks the walk if all constraints hold at its end. -/
theorem blocking (downhill : revised.Downhill model) (steep : model.descent ≠ 0)
    (holds : ∀ c : Fin m, model.bounds.get c.castSucc ≤
      model.slope c.castSucc (model.steepest radius)) :
    (revised.judged model (radius * Scalar.sqrt (dot model.descent model.descent))).blocking =
      (1, none) := by
  have active := downhill.active
  have considered : (revised.judged model
      (radius * Scalar.sqrt (dot model.descent model.descent))).considered = m + 1 := by
    obtain ⟨candidates, trial, violation, judged⟩ := revised.judged_frame model
      (radius * Scalar.sqrt (dot model.descent model.descent))
    rw [judged, downhill.considered]
  refine blocking_of_nonneg fun k inside => ?_
  rw [considered] at inside
  rcases Nat.eq_zero_or_pos k with rfl | later
  · have least := candidate_last_nonneg model downhill.secondStage
      (active.symm ▸ Nat.one_pos) (active.symm ▸ Nat.succ_le_succ (Nat.zero_le m))
      (radius * Scalar.sqrt (dot model.descent model.descent))
    rwa [active] at least
  · obtain ⟨c, constraint⟩ := Fin.exists_castSucc_eq.mpr (downhill.constraint k later inside)
    rw [judged_candidate (active.trans_le later) (inside.trans_eq downhill.considered.symm) inside,
      judged_second model downhill.secondStage, downhill.violation, downhill.trial steep,
      ← constraint, dot_comm, zero_sub, neg_add_eq_sub, sub_nonneg]
    exact holds c

end Downhill

/-! ## The step -/

/-- A stage does not run out of patience before its first turn. -/
theorem patient_opening (workspace : Workspace α n m) (model : LinearModel α n m) :
    ((Stage.first workspace).watch model).patience ≠ 0 := by
  simp [Stage.watch, Stage.first, patienceLimit]

/-- **The first turn ends on the boundary**, at the steepest step. -/
theorem Downhill.turn {revised : Workspace α n m} (downhill : revised.Downhill model)
    {stage : Stage α n m} (patient : (stage.watch model).patience ≠ 0)
    (revision : stage.workspace.revise model = (revised, true)) (steep : model.descent ≠ 0)
    (positive : 0 < radius)
    (holds : ∀ c : Fin m, model.bounds.get c.castSucc ≤
      model.slope c.castSucc (model.steepest radius)) :
    ∃ ended, stage.turn model radius = .done ended .boundary ∧
      ended.step = model.steepest radius := by
  have watched : (stage.watch model).workspace.revise model = (revised, true) := by
    rw [Stage.workspace_watch, revision]
  refine ⟨(revised.judged model (radius * Scalar.sqrt (dot model.descent model.descent))).advance 1
    revised.violation, ?turned, ?step⟩
  case turned =>
    rw [Stage.turn_eq_walkTurn rfl patient watched downhill.secondStage (downhill.room radius)
      (mul_pos positive positive) (downhill.fullLength steep positive), Stage.walkTurn_judged,
      downhill.blocking steep holds]
    exact congrArg _ (if_pos (beq_self_eq_true _))
  case step => rw [advance_one, downhill.trial steep]

/-- If no constraint is violated, then the outcome of the first turn decides. -/
theorem solve_of_turn (satisfied : (worstBound model).1 = 0) {ended : Workspace α n m}
    {how : StageEnd} (turned : (Stage.first (workspace.begin model).includeObjective).turn model
      radius = .done ended how) (last : how ≠ .inside) (fuel : Nat) :
    workspace.solve model radius (fuel + 1) =
      some (ended, if how = .boundary then .boundary else .stalled ended.active) := by
  have idle : ((workspace.begin model).violation == 0) = true := beq_iff_eq.mpr satisfied
  rw [solve, idle, if_pos rfl, runSecondStage, Stage.run_done turned]
  cases how with
  | boundary => rfl
  | inside => exact absurd rfl last
  | stalled => rfl

/-- The steepest step of the length of the radius is taken if it keeps all constraints. -/
theorem solve_downhill (workspace : Workspace α n m) (satisfied : (worstBound model).1 = 0)
    (steep : model.descent ≠ 0) (positive : 0 < radius)
    (holds : ∀ c : Fin m, model.bounds.get c.castSucc ≤
      model.slope c.castSucc (model.steepest radius)) (fuel : Nat) :
    ∃ ended, workspace.solve model radius (fuel + 1) = some (ended, .boundary) ∧
      ended.step = model.steepest radius := by
  obtain ⟨revised, revision, downhill⟩ := workspace.revise_downhill satisfied steep
  have patient := (workspace.begin model).includeObjective.patient_opening model
  obtain ⟨ended, turned, step⟩ := downhill.turn patient revision steep positive holds
  exact ⟨ended, solve_of_turn satisfied turned nofun fuel, step⟩

/-- An objective without a gradient finds no active constraint whose place it could take. -/
theorem revise_flat (workspace : Workspace α n m) (flat : model.descent = 0) :
    ∃ stuck, (workspace.begin model).includeObjective.revise model = (stuck, false) := by
  have turned := workspace.alignBasis_opening model model.descent
  have component : ((workspace.begin model).includeObjective.alignBasis model.descent).2 = 0 := by
    have first := turned.component 0 le_rfl
    rw [flat, dot_zero] at first
    exact flat ▸ first.symm
  have inactive : ¬ (workspace.begin model).includeObjective.incoming <
      (workspace.begin model).includeObjective.active := Nat.not_lt_zero m
  rw [revise, if_neg inactive, activate_eq]
  change ∃ stuck, (if ((workspace.begin model).includeObjective.alignBasis
    ((workspace.begin model).includeObjective.gradientAt model m)).2 == 0 then _ else _) = _
  rw [gradientAt_opening, component, beq_self_eq_true, if_pos rfl]
  split
  case h_1 dependent entered => exact absurd (active_pos_of_enterDependent entered) (lt_irrefl 0)
  case h_2 stuck entered => exact ⟨stuck, rfl⟩

/-- Without a gradient of the objective there is no step. -/
theorem solve_flat (workspace : Workspace α n m) (satisfied : (worstBound model).1 = 0)
    (flat : model.descent = 0) (radius : α) (fuel : Nat) :
    ∃ ended active, workspace.solve model radius (fuel + 1) = some (ended, .stalled active) ∧
      ended.step = 0 := by
  obtain ⟨stuck, revision⟩ := workspace.revise_flat flat
  have patient := (workspace.begin model).includeObjective.patient_opening model
  have turned : (Stage.first (workspace.begin model).includeObjective).turn model radius =
      .done stuck .stalled := by
    have revised :
        ((Stage.first (workspace.begin model).includeObjective).watch model).workspace.revise
          model = (stuck, false) := by
      rw [Stage.workspace_watch]
      exact revision
    rw [Stage.turn_of_stuck rfl patient (congrArg Prod.snd revised), revised]
  refine ⟨stuck, stuck.active, solve_of_turn satisfied turned nofun fuel, ?_⟩
  have frame := (revise_frame model (workspace.begin model).includeObjective).1
  rw [revision] at frame
  exact frame

/-- **The step down an objective that nothing blocks.**  If all constraints hold in the pole and
at the point against the gradient of the objective on the boundary of the trust region, then that
point is the step.  An objective without a gradient makes no step. -/
theorem solve_descends {gradient : Vector α n} (model : LinearModel α n m)
    (negated : model.gradients.get (Fin.last m) = -gradient)
    (satisfied : ∀ c : Fin m, model.bounds.get c.castSucc ≤ 0) (positive : 0 < radius)
    (workspace : Workspace α n m) (fuel : Nat) :
    (gradient ≠ 0 →
      (∀ c : Fin m, model.bounds.get c.castSucc ≤ model.slope c.castSucc
        (-(radius / Scalar.sqrt (dot gradient gradient)) * gradient)) →
      ∃ ended, workspace.solve model radius (fuel + 1) = some (ended, .boundary) ∧
        ended.step = -(radius / Scalar.sqrt (dot gradient gradient)) * gradient) ∧
    (gradient = 0 →
      ∃ ended active, workspace.solve model radius (fuel + 1) = some (ended, .stalled active) ∧
        ended.step = 0) := by
  have none := worstBound_of_satisfied satisfied
  have descent : ∀ i, model.descent.get i = -gradient.get i := by
    intro i
    rw [LinearModel.descent, negated, get_neg]
  have square : dot model.descent model.descent = dot gradient gradient := by
    simp only [dot_eq_sum, descent, neg_mul_neg]
  have steepest : model.steepest radius =
      -(radius / Scalar.sqrt (dot gradient gradient)) * gradient := by
    refine vector_ext fun i => ?_
    rw [LinearModel.steepest, square, get_smul, get_smul, descent, mul_neg, neg_mul]
  refine ⟨fun nonzero holds => ?_, fun zero => ?_⟩
  · have steep : model.descent ≠ 0 := by
      intro flat
      have positive := dot_self_pos nonzero
      rw [← square, flat, dot_zero] at positive
      exact lt_irrefl 0 positive
    rw [← steepest] at holds ⊢
    exact workspace.solve_downhill none steep positive holds fuel
  · have flat : model.descent = 0 := by
      refine vector_ext fun i => (descent i).trans ?_
      rw [zero, get_zero, neg_zero]
    exact workspace.solve_flat none flat radius fuel

/-- The first coordinate is to be at least `-1`, and the objective has the given gradient. -/
noncomputable def planeModel (gradient : Vector ℝ 2) : LinearModel ℝ 2 1 where
  gradients := .ofFn ![rationals ![1, 0], -gradient]
  bounds := rationals ![-1, 0]

/-- The gradient of an objective that rises to the right and falls upwards. -/
noncomputable def slant : Vector ℝ 2 :=
  rationals ![3, -4]

theorem solve_descends_on_plane :
    (∃ ended, (fresh 2 1).solve (planeModel slant) (1 / 2) 1 = some (ended, .boundary) ∧
      ended.step = #v[-3 / 10, 2 / 5]) ∧
    ∃ ended active, (fresh 2 1).solve (planeModel 0) (1 / 2) 1 = some (ended, .stalled active) ∧
      ended.step = 0 := by
  have half : (0 : ℝ) < 1 / 2 := by norm_num
  have satisfied : ∀ (gradient : Vector ℝ 2) (c : Fin 1),
      (planeModel gradient).bounds.get c.castSucc ≤ 0 := by
    simp [planeModel, rationals]
  have objective : ∀ gradient : Vector ℝ 2,
      (planeModel gradient).gradients.get (Fin.last 1) = -gradient := fun _ => by
    simp [planeModel, Fin.last, get_eq_getElem]
  have square : dot slant slant = 25 := by
    simp [dot_eq_sum, Fin.sum_univ_two, slant, rationals]
    norm_num
  have length : Scalar.sqrt (dot slant slant) = 5 :=
    sqrt_eq_of_mul_self (by norm_num) (square.symm ▸ by norm_num)
  have steep : slant ≠ 0 := by
    intro zero
    rw [zero, dot_zero] at square
    norm_num at square
  have point : -(1 / 2 / Scalar.sqrt (dot slant slant)) * slant = #v[-3 / 10, 2 / 5] := by
    rw [length]
    refine vector_ext fun i => ?_
    rw [get_smul]
    fin_cases i <;> simp [slant, rationals, get_eq_getElem] <;> norm_num
  have holds : ∀ c : Fin 1, (planeModel slant).bounds.get c.castSucc ≤
      (planeModel slant).slope c.castSucc #v[-3 / 10, 2 / 5] := by
    simp [planeModel, LinearModel.slope, rationals, dot_eq_sum, Fin.sum_univ_two, get_eq_getElem]
    norm_num
  obtain ⟨descends, -⟩ :=
    solve_descends (planeModel slant) (objective slant) (satisfied slant) half (fresh 2 1) 0
  obtain ⟨-, stays⟩ :=
    solve_descends (planeModel 0) (objective 0) (satisfied 0) half (fresh 2 1) 0
  rw [point] at descends
  exact ⟨descends steep holds, stays rfl⟩

/-- With one variable and no constraints the step is as long as the radius. -/
theorem solve_on_line (workspace : Workspace α 1 0) (model : LinearModel α 1 0)
    (positive : 0 < (model.gradients.get 0).get 0) (valid : 0 < radius) (fuel : Nat) :
    ∃ solved, workspace.solve model radius (fuel + 1) = some (solved, .boundary) ∧
      solved.step = #v[radius] := by
  have square : dot model.descent model.descent =
      (model.gradients.get 0).get 0 * (model.gradients.get 0).get 0 := by
    rw [dot_eq_sum, Fin.sum_univ_one]
    rfl
  have length : Scalar.sqrt (dot model.descent model.descent) = (model.gradients.get 0).get 0 :=
    sqrt_eq_of_mul_self positive.le square.symm
  have steep : model.descent ≠ 0 := by
    intro flat
    rw [flat, dot_zero] at square
    exact (mul_pos positive positive).ne square
  obtain ⟨ended, solved, step⟩ := workspace.solve_downhill rfl steep valid nofun fuel
  refine ⟨ended, solved, step.trans (vector_ext fun i => ?_)⟩
  rw [Fin.fin_one_eq_zero i, LinearModel.steepest, get_smul, length]
  exact div_mul_cancel₀ radius positive.ne'

end Workspace

end DerivativeFree
