import DerivativeFree.Proofs.Interpolation.Penalty
import DerivativeFree.Proofs.Interpolation.Rivals
import DerivativeFree.Proofs.Search.Inverse
import DerivativeFree.Proofs.Search.Turns
import DerivativeFree.Proofs.TrustRegion.Fuel

/-!
# The effort of a call

Between two questions a search cannot make turns forever.  Three things become less.  The
radius can only be halved until it is the final one.  At one radius the pole can only be
dethroned as often as there are vertices with a smaller violation.  And a step that is too
short leads to a reduction of the radius, or else to a vertex that is moved.  `effort` is a
number that counts all of this, and `Turned.effort_lt` says that every turn lowers it.

Fuel only limits the turns: a call that comes to rest does so with more fuel as well, and
in the same state.
-/

namespace DerivativeFree.Search

set_option autoImplicit false

/-! ## Fuel -/

section Fuel

variable {α : Type} [Scalar α] {n u b : Nat} {fuel more : Nat}
  {search next settled : Search α n u b}

theorem explore_mono (found : search.explore fuel = some next) (le : fuel ≤ more) :
    search.explore more = some next := by
  simp only [explore] at found ⊢
  split at found
  case h_1 => exact found
  case h_2 =>
    simp only [planStep, Option.map_eq_some_iff] at found ⊢
    obtain ⟨solved, solution, planned⟩ := found
    exact ⟨solved, Workspace.solve_mono solution le, planned⟩

theorem iterate_mono (found : search.iterate fuel = some next) (le : fuel ≤ more) :
    search.iterate more = some next := by
  simp only [iterate] at found ⊢
  split at found
  case isTrue spoilt =>
    rw [if_pos spoilt]
    split at found
    case isTrue strict =>
      rw [if_pos strict]
      exact found
    case isFalse lenient =>
      rw [if_neg lenient]
      exact explore_mono found le
  case isFalse fine =>
    rw [if_neg fine]
    exact explore_mono found le

theorem Turned.mono (turned : Turned fuel search next) (le : fuel ≤ more) :
    Turned more search next := by
  cases turned with
  | iterate due found => exact .iterate due (iterate_mono found le)
  | reduce due => exact .reduce due

/-- **More fuel leads to the same state.** -/
theorem settle_mono {turns later : Nat} (found : search.settle fuel turns = some settled)
    (le : fuel ≤ more) (further : turns ≤ later) : search.settle more later = some settled := by
  induction turns generalizing search later with
  | zero => cases found
  | succ turns ih =>
    obtain ⟨later, rfl⟩ := Nat.exists_eq_add_of_le' further
    rw [← Nat.add_assoc]
    unfold Search.settle at found ⊢
    split at found
    case h_1 =>
      split at found
      case h_1 next iterated =>
        rw [iterate_mono iterated le]
        exact ih found (Nat.le_add_left turns later)
      case h_2 => cases found
    case h_2 => exact ih found (Nat.le_add_left turns later)
    all_goals exact found

end Fuel

variable {α : Type} [EuclideanField α] {n u b : Nat} {fuel : Nat}
  {search other next : Search α n u b}

/-! ## The penalty is raised -/

/-- A step for which the penalty is raised calls for a positive one. -/
theorem penaltyFor_pos {model : LinearModel α n (u + b)} {step : Vector α n}
    (nonneg : 0 ≤ search.penalty) (low : search.penalty < 1.5 * search.penaltyFor model step) :
    0 < search.penaltyFor model step :=
  pos_of_mul_pos_right (nonneg.trans_lt low) (by norm_num)

/-- The penalty is raised by more than a third. -/
theorem penalty_lt_raised {model : LinearModel α n (u + b)} {step : Vector α n}
    (nonneg : 0 ≤ search.penalty) (low : search.penalty < 1.5 * search.penaltyFor model step) :
    search.penalty < 2.0 * search.penaltyFor model step := by
  have positive := penaltyFor_pos nonneg low
  refine low.trans (mul_lt_mul_of_pos_right ?_ positive)
  norm_num

/-! ## What a turn does -/

theorem reduce_of_spoilt (spoilt : search.acceptable = false) : search.reduce = search.spared := by
  simp only [Search.reduce, spoilt, Bool.false_eq_true, not_false_eq_true, if_true, spared]

/-- What a turn does in exact arithmetic to all that the effort depends on. -/
inductive Progress (search : Search α n u b) : Search α n u b → Prop
  /-- The search comes to rest. -/
  | rest {next : Search α n u b} (due : search.phase = .iterate ∨ search.phase = .reduce)
      (rests : next.phase ≠ .iterate ∧ next.phase ≠ .reduce)
      (options : next.options = search.options) (radius : next.radius = search.radius)
      (nonneg : 0 ≤ next.penalty) : Progress search next
  /-- A greater penalty has dethroned the pole. -/
  | dethroned {next : Search α n u b} (due : search.phase = .iterate)
      (again : next.phase = .iterate) (options : next.options = search.options)
      (radius : next.radius = search.radius) (stepDue : next.stepDue = search.stepDue)
      (simplex : next.simplex = search.surveyed.simplex) (rise : search.penalty < next.penalty)
      (lost : next.simplex.dethroned next.penalty = true) : Progress search next
  /-- The step was too short. -/
  | short {next : Search α n u b} (due : search.phase = .iterate) (further : next.phase = .reduce)
      (options : next.options = search.options) (radius : next.radius = search.radius)
      (penalty : next.penalty = search.penalty)
      (simplex : next.simplex = search.surveyed.simplex)
      (acceptable : next.acceptable = search.surveyed.acceptable)
      (placed : search.surveyed.misplaced = none) : Progress search next
  /-- The shape is to be improved before the radius is reduced. -/
  | spared (due : search.phase = .reduce) (spoilt : search.acceptable = false) :
      Progress search search.spared
  /-- The radius is reduced. -/
  | shrunk {next : Search α n u b} (due : search.phase = .reduce)
      (acceptable : search.acceptable = true) (above : search.options.radiusEnd < search.radius)
      (again : next.phase = .iterate) (options : next.options = search.options)
      (radius : next.radius = search.halvedRadius) (nonneg : 0 ≤ next.penalty) :
      Progress search next

theorem loweredPenalty_nonneg (nonneg : 0 ≤ search.penalty) : 0 ≤ search.loweredPenalty := by
  unfold loweredPenalty
  split
  · exact Simplex.revisedPenalty_nonneg nonneg
  · exact nonneg

/-- **A turn does one of these things.** -/
theorem Turned.progress (turned : Turned fuel search next) (nonneg : 0 ≤ search.penalty) :
    Progress search next := by
  have rises : ∀ {weighing : Search α n u b} {model : LinearModel α n (u + b)} {step : Vector α n},
      weighing.penalty < 1.5 * weighing.penaltyFor model step →
      weighing.penalty = search.penalty →
        search.penalty < 2.0 * weighing.penaltyFor model step := by
    intro weighing model step low same
    exact same ▸ penalty_lt_raised (nonneg.trans_eq same.symm) low
  cases turned with
  | iterate due found =>
    cases iterate_outcome found with
    | spoilt _ _ alike =>
      obtain ⟨journal, rfl⟩ := alike
      exact .rest (.inl due) ⟨nofun, nofun⟩ rfl rfl nonneg
    | move _ alike =>
      obtain ⟨journal, rfl⟩ := alike
      exact .rest (.inl due) ⟨nofun, nofun⟩ rfl rfl nonneg
    | short placed _ _ alike =>
      obtain ⟨journal, rfl⟩ := alike
      exact .short due rfl rfl rfl rfl rfl rfl placed
    | weigh _ _ _ weighed =>
      cases weighed with
      | trial _ alike =>
        obtain ⟨journal, rfl⟩ := alike
        exact .rest (.inl due) ⟨nofun, nofun⟩ rfl rfl nonneg
      | raised low _ alike =>
        obtain ⟨journal, rfl⟩ := alike
        exact .rest (.inl due) ⟨nofun, nofun⟩ rfl rfl (nonneg.trans (rises low rfl).le)
      | dethroned low lost alike =>
        obtain ⟨journal, rfl⟩ := alike
        exact .dethroned due rfl rfl rfl rfl rfl (rises low rfl) lost
  | reduce due =>
    cases search.reduce_outcome with
    | spared spoilt =>
      rw [reduce_of_spoilt spoilt]
      exact .spared due spoilt
    | converged _ _ alike =>
      obtain ⟨journal, ended⟩ := alike
      rw [ended]
      exact .rest (.inr due) ⟨nofun, nofun⟩ rfl rfl nonneg
    | shrunk acceptable further alike =>
      obtain ⟨journal, shrunk⟩ := alike
      rw [shrunk]
      exact .shrunk due acceptable (not_le.mp further) rfl rfl rfl (loweredPenalty_nonneg nonneg)

theorem Progress.penalty_nonneg (progress : Progress search next) (nonneg : 0 ≤ search.penalty) :
    0 ≤ next.penalty := by
  cases progress with
  | rest _ _ _ _ nonneg => exact nonneg
  | dethroned _ _ _ _ _ _ rise => exact nonneg.trans rise.le
  | short _ _ _ _ penalty => exact nonneg.trans_eq penalty.symm
  | spared => exact nonneg
  | shrunk _ _ _ _ _ _ nonneg => exact nonneg

theorem Reached.penalty_nonneg {options : Options α} {box : Box α n} {record : Record α n u}
    (reached : Reached options box record search) : 0 ≤ search.penalty := by
  induction reached with
  | create => exact le_rfl
  | enter _ _ entry ih =>
    rcases enter_eq entry with ⟨-, rfl⟩ | ⟨-, -, rfl⟩
    · exact ih
    · exact (alike_startAt _ _).frame.2.2.ge
  | iterate _ _ due found ih => exact ((Turned.iterate due found).progress ih).penalty_nonneg ih
  | @reduce record search _ due ih =>
    have turned : Turned 0 search search.reduce := .reduce due
    exact (turned.progress ih).penalty_nonneg ih
  | exhaust _ _ _ ih => exact ih.trans_eq (alike_finish _ _).frame.2.2.symm
  | answer _ _ _ _ _ ih =>
    rw [(answer_frame _ _).2.2]
    exact ih
  | halt _ _ _ _ ih => exact ih.trans_eq (alike_halted _ _).frame.2.2.symm
  | fail _ _ _ _ _ _ ih => exact ih
  | reset => exact le_rfl

/-! ## The radius -/

/-- The number of reductions that the radius has left. -/
noncomputable def reductionsLeft (search : Search α n u b) : Nat :=
  sInf {count | search.radius * 0.5 ^ count ≤ search.options.radiusEnd}

theorem reductionsLeft_eq (options : next.options = search.options)
    (radius : next.radius = search.radius) : next.reductionsLeft = search.reductionsLeft := by
  rw [reductionsLeft, reductionsLeft, options, radius]

/-- **A reduction of the radius uses one of them up.** -/
theorem reductionsLeft_lt [Archimedean α] (valid : 0 < search.options.radiusEnd)
    (above : search.options.radiusEnd < search.radius) (options : next.options = search.options)
    (radius : next.radius = search.halvedRadius) :
    next.reductionsLeft < search.reductionsLeft := by
  have positive : 0 < search.radius := valid.trans above
  have bounded : {count | search.radius * 0.5 ^ count ≤ search.options.radiusEnd}.Nonempty := by
    obtain ⟨count, small⟩ := exists_pow_lt_of_lt_one (div_pos valid positive)
      (by norm_num : (0.5 : α) < 1)
    exact ⟨count, (mul_comm _ _).trans_le ((lt_div_iff₀ positive).mp small).le⟩
  have least := Nat.sInf_mem bounded
  change search.radius * 0.5 ^ search.reductionsLeft ≤ search.options.radiusEnd at least
  cases left : search.reductionsLeft with
  | zero =>
    rw [left, pow_zero, mul_one] at least
    exact absurd above (not_lt.mpr least)
  | succ count =>
    rw [left] at least
    refine Nat.lt_succ_of_le (Nat.sInf_le ?_)
    change next.radius * 0.5 ^ count ≤ next.options.radiusEnd
    rw [radius, options]
    simp only [halvedRadius]
    split
    case isTrue =>
      exact mul_le_of_le_one_right valid.le (pow_le_one₀ (by norm_num) (by norm_num))
    case isFalse =>
      rw [mul_assoc, ← pow_succ']
      exact least

/-! ## The effort -/

/-- A bound for the number of turns before the next question or the end. -/
noncomputable def effort (search : Search α n u b) : Nat :=
  let ahead := search.reductionsLeft * (n + 1) + search.surveyed.simplex.rivals
  match search.phase with
  | .iterate => 4 * ahead + if search.stepDue then 4 else 2
  | .reduce => 4 * ahead + if search.acceptable then 1 else 3
  | .start | .evaluate _ | .done _ => 0

theorem effort_iterate (due : search.phase = .iterate) :
    search.effort = 4 * (search.reductionsLeft * (n + 1) + search.surveyed.simplex.rivals) +
      if search.stepDue then 4 else 2 := by
  simp only [effort, due]

theorem effort_reduce (due : search.phase = .reduce) :
    search.effort = 4 * (search.reductionsLeft * (n + 1) + search.surveyed.simplex.rivals) +
      if search.acceptable then 1 else 3 := by
  simp only [effort, due]

theorem effort_rest (rests : search.phase ≠ .iterate ∧ search.phase ≠ .reduce) :
    search.effort = 0 := by
  cases due : search.phase with
  | iterate => exact absurd due rests.1
  | reduce => exact absurd due rests.2
  | start | evaluate | done => simp only [effort, due]

/-- To survey a chosen pole again changes nothing. -/
theorem surveyed_simplex_again (simplex : next.simplex = search.surveyed.simplex)
    (penalty : next.penalty = search.penalty) :
    next.surveyed.simplex = search.surveyed.simplex := by
  change (next.simplex.selectPole next.penalty).1 = _
  rw [simplex, penalty]
  exact (congrArg Prod.fst (search.simplex.selectPole_selectPole search.penalty) :)

theorem surveyed_acceptable_again (simplex : next.surveyed.simplex = search.surveyed.simplex)
    (radius : next.radius = search.radius) :
    next.surveyed.acceptable = search.surveyed.acceptable := by
  change (Shape.of next.surveyed.simplex).acceptable (Shape.heightFactor * next.radius)
    (Shape.lengthFactor * next.radius) = _
  rw [simplex, radius]
  rfl

/-- **After the pole has been dethroned the next one has fewer rivals**, and a smaller
violation. -/
theorem Progress.rivals_lt (progress : Progress search next) (nonneg : 0 ≤ search.penalty)
    (due : search.phase = .iterate) (again : next.phase = .iterate) :
    search.penalty < next.penalty ∧ next.simplex.dethroned next.penalty = true ∧
      next.surveyed.violation < search.surveyed.violation ∧
      next.surveyed.simplex.rivals < search.surveyed.simplex.rivals := by
  cases progress with
  | rest _ rests => exact absurd again rests.1
  | dethroned _ _ _ _ _ simplex rise lost =>
    have best : next.simplex.PoleBest search.penalty := by
      rw [simplex]
      exact Simplex.poleBest_selectPole _ _
    obtain ⟨fewer, smaller⟩ :=
      Simplex.rivals_selectPole_lt best rise (nonneg.trans_lt rise) lost
    have before : next.simplex.violation .pole = search.surveyed.violation := by
      rw [simplex]
      rfl
    exact ⟨rise, lost, smaller.trans_eq before, fewer.trans_eq (congrArg _ simplex)⟩
  | short _ further =>
    rw [again] at further
    cases further
  | spared due' =>
    rw [due] at due'
    cases due'
  | shrunk due' =>
    rw [due] at due'
    cases due'

/-- **A shape that has been found unacceptable has a vertex to be moved.** -/
theorem worst_ne_none (proper : search.ProperRadius) (spoilt : search.surveyed.acceptable = false) :
    search.surveyed.shape.worst (Shape.lengthFactor * search.surveyed.radius) ≠ none := by
  have ordered : (Shape.heightFactor : α) ≤ Shape.lengthFactor := by
    norm_num [Shape.heightFactor, Shape.lengthFactor]
  exact Shape.worst_ne_none (mul_le_mul_of_nonneg_right ordered proper.2.le) spoilt

theorem acceptable_of_not_misplaced (proper : search.ProperRadius)
    (placed : search.surveyed.misplaced = none) :
    search.stepDue = true ∨ search.surveyed.acceptable = true := by
  unfold misplaced at placed
  split at placed
  case isTrue excused => exact (Bool.or_eq_true _ _).mp excused
  case isFalse neither =>
    rw [Bool.or_eq_true, not_or] at neither
    exact absurd placed (worst_ne_none proper (Bool.eq_false_iff.mpr neither.2))

/-- **Every turn lowers the effort.** -/
theorem Progress.effort_lt [Archimedean α] (progress : Progress search next)
    (sound : search.Sound) (nonneg : 0 ≤ search.penalty) : next.effort < search.effort := by
  have dethroning := progress.rivals_lt nonneg
  cases progress with
  | rest due rests =>
    rw [effort_rest rests]
    rcases due with due | due
    · rw [effort_iterate due]
      split <;> omega
    · rw [effort_reduce due]
      split <;> omega
  | dethroned due again options radius stepDue =>
    obtain ⟨-, -, -, fewer⟩ := dethroning due again
    rw [effort_iterate due, effort_iterate again, reductionsLeft_eq options radius, stepDue]
    omega
  | short due further options radius penalty simplex acceptable placed =>
    have ready := sound.ready
    simp only [Ready, due] at ready
    rw [effort_iterate due, effort_reduce further, reductionsLeft_eq options radius,
      surveyed_simplex_again simplex penalty, acceptable]
    rcases acceptable_of_not_misplaced ready.1 placed with tried | good
    · rw [tried, if_pos rfl]
      split <;> omega
    · rw [good, if_pos rfl]
      split <;> omega
  | spared due spoilt =>
    have again : search.spared.phase = .iterate := rfl
    have same : search.spared.surveyed.simplex = search.surveyed.simplex := rfl
    have late : search.spared.stepDue = false := rfl
    have left : search.spared.reductionsLeft = search.reductionsLeft := reductionsLeft_eq rfl rfl
    rw [effort_reduce due, effort_iterate again, left, same, late, spoilt]
    simp only [Bool.false_eq_true, if_false]
    exact Nat.add_lt_add_left (by omega) _
  | shrunk due acceptable above again options radius =>
    have ready := sound.ready
    simp only [Ready, due] at ready
    have fewer := reductionsLeft_lt ready.1.1.1 above options radius
    have bound := next.surveyed.simplex.rivals_le
    have ahead : (next.reductionsLeft + 1) * (n + 1) ≤ search.reductionsLeft * (n + 1) :=
      Nat.mul_le_mul_right _ fewer
    rw [Nat.add_mul, one_mul] at ahead
    rw [effort_reduce due, effort_iterate again, acceptable, if_pos rfl]
    split <;> omega

end DerivativeFree.Search
