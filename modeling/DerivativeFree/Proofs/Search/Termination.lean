import DerivativeFree.Proofs.Search.Best
import DerivativeFree.Proofs.Search.Effort

/-!
# Calls return

Every turn lowers the effort of a search, so a call comes to rest after finitely many turns
if only the steps that it asks for are found (`Reached.settles`).  Then fuel does not matter
beyond some amount.

How often things happen is counted along a trail of moves (`Trail`), and a potential that a
kind of move lowers bounds the number of these moves (`Trail.count_le`).  The rivals of the
pole bound how often it is dethroned at one radius, and the reductions that are left bound
how often the radius is reduced at all (`Reached.returns`).
-/

namespace DerivativeFree.Search

set_option autoImplicit false

/-! ## Trails -/

/-- The moves that lead from a first state to another one, `count` of which are of a certain
kind. -/
inductive Trail {β : Type} (move kind : β → β → Prop) (first : β) : Nat → β → Prop
  /-- No move at all. -/
  | start : Trail move kind first 0 first
  /-- A move of another kind. -/
  | plain {count : Nat} {last next : β} (trail : Trail move kind first count last)
      (moved : move last next) (other : ¬ kind last next) : Trail move kind first count next
  /-- A move of this kind. -/
  | counted {count : Nat} {last next : β} (trail : Trail move kind first count last)
      (moved : move last next) (same : kind last next) : Trail move kind first (count + 1) next

/-- **A potential that no move raises and that the moves of a kind lower bounds their
number.** -/
theorem Trail.count_le {β : Type} {move kind : β → β → Prop} {first last : β} {count : Nat}
    {Kept : β → Prop} {potential : β → Nat} (trail : Trail move kind first count last)
    (kept : Kept first)
    (keeps : ∀ {state next}, move state next → Kept state → Kept next)
    (falls : ∀ {state next}, move state next → Kept state → potential next ≤ potential state)
    (drops : ∀ {state next}, move state next → Kept state → kind state next →
      potential next < potential state) : count ≤ potential first := by
  have invariant : Kept last ∧ count + potential last ≤ potential first := by
    induction trail with
    | start => exact ⟨kept, (Nat.zero_add _).le⟩
    | plain _ moved _ ih =>
      obtain ⟨before, bound⟩ := ih
      have less := falls moved before
      exact ⟨keeps moved before, by omega⟩
    | counted _ moved same ih =>
      obtain ⟨before, bound⟩ := ih
      have less := drops moved before same
      exact ⟨keeps moved before, by omega⟩
  omega

variable {α : Type} [EuclideanField α] {n u b : Nat} {fuel : Nat} {options : Options α}
  {box : Box α n} {record : Record α n u} {search next : Search α n u b}

/-! ## The moves of a search -/

/-- A turn, with whatever fuel. -/
def Turns (search next : Search α n u b) : Prop :=
  ∃ fuel, Turned fuel search next

/-- A turn that leaves the radius as it is. -/
def Lingers (search next : Search α n u b) : Prop :=
  Turns search next ∧ next.radius = search.radius

/-- An iteration that makes another one due. -/
def Repeats (search next : Search α n u b) : Prop :=
  search.phase = .iterate ∧ next.phase = .iterate

/-- What can happen to a search until it is reset. -/
inductive Advanced (box : Box α n) (search : Search α n u b) : Search α n u b → Prop
  /-- A step begins. -/
  | enter {entered : Search α n u b} (point : Array α) (entry : search.enter point = .ok entered) :
      Advanced box search entered
  /-- A turn. -/
  | turn {next : Search α n u b} (turns : Turns search next) : Advanced box search next
  /-- The evaluations are used up. -/
  | exhaust {pending : Pending α n} (due : search.phase = .evaluate pending)
      (spent : search.evaluator.limit ≤ search.evaluator.evaluations) :
      Advanced box search (search.finish .exhausted)
  /-- A question is answered with values. -/
  | answer {pending : Pending α n} (constraints : Vector α u) (objective : α)
      (due : search.phase = .evaluate pending)
      (allowed : search.evaluator.evaluations < search.evaluator.limit) :
      Advanced box search ((search.informed box constraints objective).answer pending)
  /-- A question is answered with a halt. -/
  | halt {pending : Pending α n} (constraints : Vector α u)
      (due : search.phase = .evaluate pending)
      (allowed : search.evaluator.evaluations < search.evaluator.limit) :
      Advanced box search (search.halted constraints)
  /-- A question is answered with another error. -/
  | fail {pending : Pending α n} (constraints : Vector α u) (error : EvalError)
      (other : error ≠ .halt) (due : search.phase = .evaluate pending)
      (allowed : search.evaluator.evaluations < search.evaluator.limit) :
      Advanced box search (search.counted constraints)

/-- The radius changes. -/
def Rescales (search next : Search α n u b) : Prop :=
  next.radius ≠ search.radius

theorem Turned.reached (turned : Turned fuel search next)
    (reached : Reached options box record search) : Reached options box record next := by
  cases turned with
  | iterate due found => exact reached.iterate fuel due found
  | reduce due => exact reached.reduce due

/-- The search is reached with some record of questions. -/
def Reachable (options : Options α) (box : Box α n) (search : Search α n u b) : Prop :=
  ∃ record, Reached options box record search

theorem Advanced.reached (advanced : Advanced box search next)
    (reached : Reached options box record search) : Reachable options box next := by
  cases advanced with
  | enter point entry => exact ⟨_, reached.enter point entry⟩
  | turn turns =>
    obtain ⟨fuel, turned⟩ := turns
    exact ⟨_, turned.reached reached⟩
  | exhaust due spent => exact ⟨_, reached.exhaust due spent⟩
  | answer constraints objective due allowed =>
    exact ⟨_, reached.answer constraints objective due allowed⟩
  | halt constraints due allowed => exact ⟨_, reached.halt constraints due allowed⟩
  | fail constraints error other due allowed =>
    exact ⟨_, reached.fail constraints error other due allowed⟩

theorem Advanced.started (advanced : Advanced box search next) : next.Started := by
  cases advanced with
  | enter _ entry => exact started_enter entry
  | turn turns =>
    obtain ⟨fuel, turned⟩ := turns
    exact turned.started
  | exhaust => exact (alike_finish ..).started nofun
  | answer => exact (answer_underway _ _).1
  | halt => exact (alike_halted ..).started nofun
  | @fail pending constraints _ _ due =>
    have waits : (search.counted constraints).phase = .evaluate pending := due
    exact started_of_phase waits nofun

theorem Reached.progress (reached : Reached options box record search)
    (turns : Turns search next) : Progress search next := by
  obtain ⟨fuel, turned⟩ := turns
  exact turned.progress reached.penalty_nonneg

/-! ## The radius -/

theorem Reached.properRadius (reached : Reached options box record search)
    (due : search.phase = .iterate ∨ search.phase = .reduce) : search.ProperRadius := by
  have ready := reached.sound.ready
  rcases due with due | due
  · simp only [Ready, due] at ready
    exact ready.1
  · simp only [Ready, due] at ready
    exact ready.1

/-- A search that has not started has its first radius. -/
theorem Reached.radius_of_start (reached : Reached options box record search)
    (fresh : search.phase = .start) : search.radius = search.options.radiusBegin := by
  induction reached with
  | create => rfl
  | enter _ _ entry => exact absurd fresh (started_enter entry)
  | iterate fuel _ due found =>
    have turned : Turned fuel _ _ := .iterate due found
    exact absurd fresh turned.started
  | reduce _ due =>
    have turned : Turned 0 _ _ := .reduce due
    exact absurd fresh turned.started
  | exhaust => exact absurd fresh ((alike_finish ..).started nofun)
  | answer => exact absurd fresh (answer_underway _ _).1
  | halt => exact absurd fresh ((alike_halted ..).started nofun)
  | fail _ _ _ _ due =>
    rw [counted, due] at fresh
    cases fresh
  | reset => rfl

theorem halvedRadius_lt (proper : search.ProperRadius)
    (above : search.options.radiusEnd < search.radius) : search.halvedRadius < search.radius := by
  simp only [halvedRadius]
  split
  case isTrue => exact above
  case isFalse => exact mul_lt_of_lt_one_right proper.2 (by norm_num)

/-- **Only a reduction changes the radius**, and nothing changes the options. -/
theorem Advanced.radius (advanced : Advanced box search next)
    (reached : Reached options box record search) :
    next.options = search.options ∧ (next.radius = search.radius ∨
      search.phase = .reduce ∧ search.options.radiusEnd < search.radius ∧
        next.radius = search.halvedRadius) := by
  cases advanced with
  | enter point entry =>
    rcases enter_eq entry with ⟨-, rfl⟩ | ⟨fresh, -, rfl⟩
    · exact ⟨rfl, .inl rfl⟩
    · obtain ⟨options, radius, -⟩ := (alike_startAt search _).frame
      exact ⟨options, .inl (radius.trans (reached.radius_of_start fresh).symm)⟩
  | turn turns =>
    cases reached.progress turns with
    | rest _ _ options radius => exact ⟨options, .inl radius⟩
    | dethroned _ _ options radius => exact ⟨options, .inl radius⟩
    | short _ _ options radius => exact ⟨options, .inl radius⟩
    | spared => exact ⟨rfl, .inl rfl⟩
    | shrunk due _ above _ options radius => exact ⟨options, .inr ⟨due, above, radius⟩⟩
  | exhaust => exact ⟨(alike_finish ..).frame.1, .inl (alike_finish ..).frame.2.1⟩
  | answer => exact ⟨(answer_frame _ _).1, .inl (answer_frame _ _).2.1⟩
  | halt => exact ⟨(alike_halted ..).frame.1, .inl (alike_halted ..).frame.2.1⟩
  | fail => exact ⟨rfl, .inl rfl⟩

/-- A change of the radius uses up one of the reductions that are left. -/
theorem Advanced.reductionsLeft [Archimedean α] (advanced : Advanced box search next)
    (reached : Reached options box record search) :
    next.reductionsLeft ≤ search.reductionsLeft ∧
      (Rescales search next → next.radius < search.radius ∧
        next.reductionsLeft < search.reductionsLeft) := by
  obtain ⟨options, radius | ⟨due, above, radius⟩⟩ := advanced.radius reached
  · exact ⟨(reductionsLeft_eq options radius).le, fun changed => absurd radius changed⟩
  · have proper := reached.properRadius (.inr due)
    have less := reductionsLeft_lt proper.1.1 above options radius
    exact ⟨less.le, fun _ => ⟨radius.trans_lt (halvedRadius_lt proper above), less⟩⟩

/-! ## The pole -/

/-- The rivals of the next pole, as long as the search is not at rest. -/
def contenders (search : Search α n u b) : Nat :=
  match search.phase with
  | .iterate | .reduce => search.surveyed.simplex.rivals
  | .start | .evaluate _ | .done _ => 0

theorem contenders_le (search : Search α n u b) : search.contenders ≤ n := by
  unfold contenders
  split
  · exact Simplex.rivals_le _
  · exact Simplex.rivals_le _
  all_goals exact Nat.zero_le n

theorem contenders_iterate (due : search.phase = .iterate) :
    search.contenders = search.surveyed.simplex.rivals := by
  simp only [contenders, due]

theorem contenders_reduce (due : search.phase = .reduce) :
    search.contenders = search.surveyed.simplex.rivals := by
  simp only [contenders, due]

theorem contenders_rest (rests : search.phase ≠ .iterate ∧ search.phase ≠ .reduce) :
    search.contenders = 0 := by
  cases due : search.phase with
  | iterate => exact absurd due rests.1
  | reduce => exact absurd due rests.2
  | start | evaluate | done => simp only [contenders, due]

/-- At one radius the pole never gets more rivals. -/
theorem Lingers.contenders_le (lingers : Lingers search next)
    (reached : Reached options box record search) : next.contenders ≤ search.contenders := by
  obtain ⟨turns, still⟩ := lingers
  have progress := reached.progress turns
  have dethroning := progress.rivals_lt reached.penalty_nonneg
  cases progress with
  | rest _ rests => exact (contenders_rest rests).trans_le (Nat.zero_le _)
  | dethroned due again =>
    rw [contenders_iterate due, contenders_iterate again]
    exact (dethroning due again).2.2.2.le
  | short due further _ _ penalty simplex =>
    rw [contenders_iterate due, contenders_reduce further,
      surveyed_simplex_again simplex penalty]
  | spared due =>
    have again : search.spared.phase = .iterate := rfl
    rw [contenders_reduce due, contenders_iterate again]
    exact le_rfl
  | shrunk due _ above _ _ radius =>
    have less := halvedRadius_lt (reached.properRadius (.inr due)) above
    exact absurd (radius.symm.trans still) less.ne

theorem Lingers.contenders_lt (lingers : Lingers search next)
    (reached : Reached options box record search) (repeats : Repeats search next) :
    next.contenders < search.contenders := by
  obtain ⟨due, again⟩ := repeats
  have dethroning := (reached.progress lingers.1).rivals_lt reached.penalty_nonneg due again
  rw [contenders_iterate due, contenders_iterate again]
  exact dethroning.2.2.2

/-! ## A vertex that is moved -/

/-- With an exact inverse there is nothing to find for the check of an iteration. -/
theorem iterate_of_exact (exact : search.simplex.HasInverse) (fuel : Nat) :
    ∃ journal, search.iterate fuel = Search.explore fuel { search with
      simplex := (search.simplex.selectPole search.penalty).1, journal } := by
  obtain ⟨journal, selected⟩ := search.alike_selectPole
  have fine : Search.inverseSpoilt { search with
      simplex := (search.simplex.selectPole search.penalty).1, journal } = false := by
    have small : ¬ (0.1 : α) < 0 := by norm_num
    simp only [inverseSpoilt, (exact.selectPole search.penalty).inverseError, small,
      decide_false, Bool.and_false]
  refine ⟨journal, ?_⟩
  simp only [iterate]
  rw [selected, fine]
  simp only [Bool.false_eq_true, if_false]

/-- An iteration that has a vertex to move needs no step. -/
theorem iterate_of_misplaced (exact : search.simplex.HasInverse) {j : Fin n}
    (misplaced : search.surveyed.misplaced = some j) (fuel : Nat) :
    ∃ next, search.iterate fuel = some next ∧ next.phase = .evaluate (.vertex (.edge j)) := by
  obtain ⟨journal, explored⟩ := iterate_of_exact exact fuel
  rw [explored]
  simp only [explore]
  split
  case h_1 k worst =>
    obtain rfl : k = j := Option.some.inj (worst.symm.trans misplaced)
    exact ⟨_, rfl, rfl⟩
  case h_2 placed => cases placed.symm.trans misplaced

/-- A step that is too short asks for a reduction. -/
theorem planStep_of_short (search : Search α n u b) {model : LinearModel α n (u + b)}
    {workspace : Workspace α n (u + b)} {active : Nat}
    (solved : search.workspace.solve model search.radius fuel = some (workspace, .stalled active))
    (short : dot workspace.step workspace.step < 0.25 * search.radius * search.radius) :
    ∃ next, search.planStep fuel model = some next ∧
      next.Alike { search with workspace, stepDue := true, phase := .reduce } := by
  simp only [planStep, solved, Option.map_some]
  refine ⟨_, rfl, ?_⟩
  split
  case isTrue => exact ⟨_, rfl⟩
  case isFalse long => exact absurd short long

/-- An iteration with such a step does so as well. -/
theorem iterate_of_short (exact : search.simplex.HasInverse)
    (placed : search.surveyed.misplaced = none) {workspace : Workspace α n (u + b)} {active : Nat}
    (solved : search.workspace.solve search.surveyed.modelled search.radius fuel =
      some (workspace, .stalled active))
    (short : dot workspace.step workspace.step < 0.25 * search.radius * search.radius) :
    ∃ next, search.iterate fuel = some next ∧
      next.Alike { search.surveyed with workspace, stepDue := true, phase := .reduce } := by
  obtain ⟨journal, explored⟩ := iterate_of_exact exact fuel
  obtain ⟨next, planned, alike⟩ := planStep_of_short (assess { search with
    simplex := (search.simplex.selectPole search.penalty).1, journal }) solved short
  rw [explored, explore_eq]
  split
  case h_1 j worst => cases worst.symm.trans placed
  case h_2 => exact ⟨next, planned, alike.trans ⟨_, rfl⟩⟩

/-- **A step that is too short for an unacceptable shape leads to a vertex that is moved.** -/
theorem Reached.moves_vertex (reached : Reached options box record search)
    (turns : Turns search next) (due : search.phase = .iterate) (further : next.phase = .reduce)
    (spoilt : next.acceptable = false) : next.reduce.phase = .iterate ∧
      ∀ fuel, ∃ j moved, next.settle fuel 3 = some moved ∧
        moved.phase = .evaluate (.vertex (.edge j)) := by
  have progress := reached.progress turns
  obtain ⟨fuel, turned⟩ := turns
  have reaching := turned.reached reached
  have reduced := reduce_of_spoilt spoilt
  refine ⟨congrArg Search.phase reduced, fun fuel => ?_⟩
  cases progress with
  | rest _ rests => exact absurd further rests.2
  | short _ _ _ radius penalty simplex acceptable =>
    -- The shape is assessed again, and found as it was.
    have again : next.spared.surveyed.simplex = search.surveyed.simplex :=
      surveyed_simplex_again simplex penalty
    have still : next.spared.surveyed.acceptable = false := by
      rw [surveyed_acceptable_again again radius, ← acceptable]
      exact spoilt
    have calm : next.spared.surveyed.stepDue = false := rfl
    have proper : next.spared.ProperRadius := reaching.properRadius (.inr further)
    obtain ⟨j, worst⟩ := Option.ne_none_iff_exists'.mp (worst_ne_none proper still)
    have misplaced : next.spared.surveyed.misplaced = some j := by
      rw [Search.misplaced, calm, still]
      exact worst
    have exact : next.spared.simplex.HasInverse := reaching.sound.exact
    obtain ⟨moved, found, waits⟩ := iterate_of_misplaced exact misplaced fuel
    have reduction : Turned fuel next next.spared := reduced ▸ .reduce further
    have iteration : Turned fuel next.spared moved := .iterate rfl found
    refine ⟨j, moved, ?_, waits⟩
    rw [reduction.settle, iteration.settle]
    exact settle_of_rest (by simp [waits]) fuel 0
  | dethroned _ again =>
    rw [further] at again
    cases again
  | spared due' =>
    rw [due] at due'
    cases due'
  | shrunk due' =>
    rw [due] at due'
    cases due'

/-! ## Coming to rest -/

/-- Every step that the turns from a search ask for can be found. -/
def StepsFound (search : Search α n u b) : Prop :=
  ∀ state, Relation.ReflTransGen Turns search state → state.phase = .iterate →
    state.surveyed.misplaced = none →
    ∃ fuel, (state.workspace.solve state.surveyed.modelled state.radius fuel).isSome

theorem StepsFound.turn (found : search.StepsFound) (turns : Turns search next) :
    next.StepsFound :=
  fun state visited => found state (.head turns visited)

/-- A search that is not at rest can make a turn. -/
theorem Reached.turns (reached : Reached options box record search) (found : search.StepsFound)
    (due : search.phase = .iterate ∨ search.phase = .reduce) : ∃ next, Turns search next := by
  rcases due with due | due
  · cases misplaced : search.surveyed.misplaced with
    | none =>
      obtain ⟨fuel, solved⟩ := found search .refl due misplaced
      obtain ⟨next, iterated⟩ := Option.isSome_iff_exists.mp (iterate_isSome solved)
      exact ⟨next, fuel, .iterate due iterated⟩
    | some j =>
      obtain ⟨next, iterated, -⟩ := iterate_of_misplaced reached.sound.exact misplaced 0
      exact ⟨next, 0, .iterate due iterated⟩
  · exact ⟨search.reduce, 0, .reduce due⟩

/-- **A search comes to rest if the steps are found that it asks for.** -/
theorem Reached.settles [Archimedean α] (reached : Reached options box record search)
    (found : search.StepsFound) :
    ∃ fuel settled, ∀ more ≥ fuel, search.settle more more = some settled := by
  suffices settles : ∃ fuel turns settled, search.settle fuel turns = some settled by
    obtain ⟨fuel, turns, settled, rests⟩ := settles
    exact ⟨max fuel turns, settled, fun more le => settle_mono rests
      ((le_max_left fuel turns).trans le) ((le_max_right fuel turns).trans le)⟩
  induction left : search.effort using Nat.strong_induction_on generalizing search with
  | _ effort ih =>
    by_cases due : search.phase = .iterate ∨ search.phase = .reduce
    · obtain ⟨next, turns⟩ := reached.turns found due
      obtain ⟨fuel, turned⟩ := turns
      have less := (reached.progress ⟨fuel, turned⟩).effort_lt reached.sound reached.penalty_nonneg
      obtain ⟨later, turns, settled, rests⟩ :=
        ih next.effort (left ▸ less) (turned.reached reached) (found.turn ⟨fuel, turned⟩) rfl
      refine ⟨max fuel later, turns + 1, settled, ?_⟩
      rw [(turned.mono (le_max_left fuel later)).settle]
      exact settle_mono rests (le_max_right fuel later) le_rfl
    · exact ⟨0, 1, search, settle_of_rest (not_or.mp due) 0 0⟩

/-! ## Calls -/

theorem enter_ne_outOfFuel {point : Array α} {failure : Failure}
    (entry : search.enter point = .error failure) : failure ≠ .outOfFuel := by
  unfold Search.enter at entry
  split at entry
  case h_1 =>
    split at entry
    case h_1 other obstacle =>
      cases entry
      intro same
      rw [same] at obstacle
      unfold Options.obstacle? at obstacle
      split_ifs at obstacle <;> cases obstacle
    case h_2 => cases entry
  all_goals cases entry

theorem handOut_ne_outOfFuel (search : Search α n u b) (point : Array α) (result : Option Status) :
    (search.handOut point result).result ≠ .error .outOfFuel := by
  unfold handOut
  split
  · exact nofun
  · exact nofun

/-- A call that comes to rest does not run out of fuel. -/
theorem next_ne_outOfFuel {point : Array α}
    (settles : ∀ entered, search.enter point = .ok entered →
      ∃ settled, entered.settle fuel fuel = some settled) (oracle : Oracle Id α n u)
    (log : Record α n u) :
    ((search.next fuel oracle.recorded box point).run log).1.result ≠ .error .outOfFuel := by
  unfold Search.next
  cases entry : search.enter point with
  | error failure =>
    intro ended
    exact enter_ne_outOfFuel entry (Except.error.inj ended)
  | ok entered =>
    obtain ⟨settled, found⟩ := settles entered entry
    simp only [found]
    rcases settle_outcome (started_enter entry) found with ⟨pending, due⟩ | ⟨status, due⟩
    · simp only [due, run_ask]
      split
      · exact handOut_ne_outOfFuel _ _ _
      · simp only [asked]
        split
        · exact handOut_ne_outOfFuel _ _ _
        · exact handOut_ne_outOfFuel _ _ _
        · intro ended
          cases ended
    · simp only [due]
      exact handOut_ne_outOfFuel _ _ _

/-- **A call returns if the steps are found that it asks for**, whatever the oracle answers,
and more fuel does not matter.  At one radius and without a question the penalty dethrones
the pole at most `n` times, and each time the penalty is greater than before and the next
pole has a smaller violation.  A shape that has been found unacceptable has a vertex to be
moved, and a step that is too short for one leads to the evaluation of a moved vertex.  The
radius only changes by reductions, of which there are finitely many until a reset, and if
none is left the search ends. -/
theorem Reached.returns [Archimedean α] (reached : Reached options box record search) :
    (∀ point, (∀ entered, search.enter point = .ok entered → entered.StepsFound) →
      ∃ fuel, ∀ more ≥ fuel, ∀ (oracle : Oracle Id α n u) (log : Record α n u),
        ((search.next more oracle.recorded box point).run log).1.result ≠ .error .outOfFuel) ∧
    (∀ count last, Trail Lingers Repeats search count last → count ≤ n) ∧
    (∀ next, Turns search next → Repeats search next →
      search.penalty < next.penalty ∧ next.simplex.dethroned next.penalty = true ∧
        next.surveyed.violation < search.surveyed.violation) ∧
    (search.phase = .iterate → search.surveyed.acceptable = false →
      search.surveyed.shape.worst (Shape.lengthFactor * search.radius) ≠ none) ∧
    (∀ next, Turns search next → search.phase = .iterate → next.phase = .reduce →
      next.acceptable = false → next.reduce.phase = .iterate ∧
        ∀ fuel, ∃ j moved, next.settle fuel 3 = some moved ∧
          moved.phase = .evaluate (.vertex (.edge j))) ∧
    (∃ bound, ∀ count last, Trail (Advanced box) Rescales search count last → count ≤ bound) ∧
    (∀ next, Advanced box search next → Rescales search next → next.radius < search.radius) ∧
    (search.phase = .reduce → search.acceptable = true →
      search.reduce.radius < search.radius ∨ search.reduce.phase = .done .converged) := by
  refine ⟨fun point found => ?returns, fun count last trail => ?dethroned,
    fun next turns repeats => ?raised, fun due spoilt => ?worst,
    fun next turns due further spoilt => reached.moves_vertex turns due further spoilt,
    ⟨search.reductionsLeft, fun count last trail => ?reduced⟩,
    fun next advanced changed => ((advanced.reductionsLeft reached).2 changed).1,
    fun due acceptable => ?final⟩
  case returns =>
    cases entry : search.enter point with
    | error failure =>
      refine ⟨0, fun more _ oracle log => next_ne_outOfFuel (fun entered other => ?_) oracle log⟩
      rw [entry] at other
      cases other
    | ok entered =>
      obtain ⟨fuel, settled, rests⟩ := (reached.enter point entry).settles (found entered entry)
      refine ⟨fuel, fun more le oracle log =>
        next_ne_outOfFuel (fun other same => ⟨settled, ?_⟩) oracle log⟩
      obtain rfl : entered = other := Except.ok.inj (entry.symm.trans same)
      exact rests more le
  case dethroned =>
    have kept : Reachable options box search := ⟨record, reached⟩
    refine (trail.count_le kept ?_ ?_ ?_).trans search.contenders_le
    · intro state next lingers kept
      obtain ⟨record, reached⟩ := kept
      obtain ⟨⟨fuel, turned⟩, -⟩ := lingers
      exact ⟨record, turned.reached reached⟩
    · intro state next lingers kept
      obtain ⟨record, reached⟩ := kept
      exact lingers.contenders_le reached
    · intro state next lingers kept repeats
      obtain ⟨record, reached⟩ := kept
      exact lingers.contenders_lt reached repeats
  case raised =>
    obtain ⟨rise, lost, smaller, -⟩ :=
      (reached.progress turns).rivals_lt reached.penalty_nonneg repeats.1 repeats.2
    exact ⟨rise, lost, smaller⟩
  case worst => exact worst_ne_none (reached.properRadius (.inl due)) spoilt
  case reduced =>
    have kept : Reachable options box search := ⟨record, reached⟩
    refine trail.count_le kept ?_ ?_ ?_
    · intro state next advanced kept
      obtain ⟨record, reached⟩ := kept
      exact advanced.reached reached
    · intro state next advanced kept
      obtain ⟨record, reached⟩ := kept
      exact (advanced.reductionsLeft reached).1
    · intro state next advanced kept changed
      obtain ⟨record, reached⟩ := kept
      exact ((advanced.reductionsLeft reached).2 changed).2
  case final =>
    cases search.reduce_outcome with
    | spared spoilt =>
      rw [acceptable] at spoilt
      cases spoilt
    | converged _ _ alike =>
      obtain ⟨journal, ended⟩ := alike
      exact .inr (by rw [ended])
    | shrunk _ further alike =>
      have proper := reached.properRadius (.inr due)
      exact .inl (alike.frame.2.1.trans_lt (halvedRadius_lt proper (not_le.mp further)))

/-! ## On the line -/

theorem stepsFound_of_rest (rests : search.phase ≠ .iterate ∧ search.phase ≠ .reduce) :
    search.StepsFound := by
  intro state visited due
  rcases visited.cases_head with rfl | ⟨next, ⟨fuel, turned⟩, -⟩
  · exact absurd due rests.1
  · cases turned with
    | iterate due' => exact absurd due' rests.1
    | reduce due' => exact absurd due' rests.2

theorem OnLine.stepsFound {search : Search ℝ 1 0 0} {radius : ℝ} (line : search.OnLine radius)
    (valid : 0 < radius) (due : search.phase = .iterate) : search.StepsFound := by
  intro state visited due' placed
  rcases visited.cases_head with rfl | ⟨next, ⟨fuel, turned⟩, further⟩
  · obtain ⟨workspace, solved, -⟩ := search.workspace.solve_on_line search.surveyed.modelled
      line.slope_pos (line.radius ▸ valid) 0
    exact ⟨1, by rw [solved]; rfl⟩
  · cases turned with
    | iterate _ found =>
      obtain ⟨tried, found', -, -, -, waits, -⟩ := line.iterate valid fuel
      obtain rfl : next = tried :=
        Option.some.inj ((iterate_mono found (Nat.le_succ fuel)).symm.trans found')
      exact stepsFound_of_rest (by simp [waits]) state further due' placed
    | reduce reduces =>
      rw [due] at reduces
      cases reduces

/-- Calls on the line return. -/
theorem returns_on_line : ∃ (record : Record ℝ 1 0) (search : Search ℝ 1 0 realLine.boundCount),
    Reached lineOptions realLine record search ∧ search.StepsFound ∧
      search.phase = .iterate ∧ record.size = 2 ∧
      ∃ fuel, ∀ more ≥ fuel, ∀ (oracle : Oracle Id ℝ 1 0) (log : Record ℝ 1 0),
        ((search.next more oracle.recorded realLine #[0]).run log).1.result ≠
          .error .outOfFuel := by
  obtain ⟨record, search, reached, size, -, due, -, line⟩ := reached_lineSimplex
  have started := started_of_phase due (by simp)
  have finds := line.stepsFound one_pos due
  refine ⟨record, search, reached, finds, due, size, reached.returns.1 #[0] fun entered entry => ?_⟩
  obtain rfl : search = entered := Except.ok.inj ((started.enter #[0]).symm.trans entry)
  exact finds

end DerivativeFree.Search
