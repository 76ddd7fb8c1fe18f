import DerivativeFree.Proofs.Search.Termination

/-!
# The radius along a run

A run begins with the initial radius, and only reductions change it.  Each one halves the
radius, or sets it to the final one where half of it would come close to that.  So the radius
falls from the initial to the final one, and the number of its changes is at most the binary
logarithm of their ratio, rounded up (`Paced.count_le`).

A reduction goes by the flag that says whether the shape is acceptable.  The flag is set by an
iteration, from the shape of the simplex at that moment and the radius (`LastAssessed`).
Whenever a reduction is due, the radius is still that of the last assessment (`Sustained`), so
that a search does not converge before its shape has been found acceptable for the final
radius (`Reached.paced`).
-/

namespace DerivativeFree.Search

set_option autoImplicit false

variable {α : Type} [EuclideanField α] {n u b : Nat} {fuel count : Nat} {options : Options α}
  {box : Box α n} {record : Record α n u}
  {search next first started last assessed : Search α n u b}

/-! ## The number of changes -/

/-- The radius after a number of changes.  Half of it has been left each time, unless it is
the final one by now. -/
structure Paced (options : Options α) (count : Nat) (radius : α) : Prop where
  least : options.radiusEnd ≤ radius
  most : radius ≤ options.radiusBegin
  halved : radius = options.radiusBegin * 0.5 ^ count ∨ radius = options.radiusEnd
  needed : ∀ earlier < count, options.radiusEnd * 2 ^ earlier < options.radiusBegin

theorem paced_begin (valid : options.ValidRadii) : Paced options 0 options.radiusBegin where
  least := valid.2.1.le
  most := le_rfl
  halved := .inl (by rw [pow_zero, mul_one])
  needed := fun _ none => absurd none (Nat.not_lt_zero _)

theorem halvedRadius_eq (search : Search α n u b) :
    search.halvedRadius = search.radius * 0.5 ∨
      search.halvedRadius = search.options.radiusEnd := by
  simp only [halvedRadius]
  split
  · exact .inr rfl
  · exact .inl rfl

theorem radiusEnd_le_halvedRadius (proper : search.ProperRadius) :
    search.options.radiusEnd ≤ search.halvedRadius := by
  have final : 0 < search.options.radiusEnd := proper.1.1
  simp only [halvedRadius]
  split
  case isTrue => exact le_rfl
  case isFalse far => exact (le_mul_of_one_le_left final.le (by norm_num)).trans (not_le.mp far).le

/-- A change of the radius is one more that was needed. -/
theorem Paced.halve (paced : Paced search.options count search.radius)
    (proper : search.ProperRadius) (above : search.options.radiusEnd < search.radius) :
    Paced search.options (count + 1) search.halvedRadius := by
  have now : search.radius = search.options.radiusBegin * 0.5 ^ count :=
    paced.halved.resolve_right above.ne'
  have twice : search.radius * 2 ^ count = search.options.radiusBegin := by
    rw [now, mul_assoc, ← mul_pow]
    norm_num
  refine ⟨radiusEnd_le_halvedRadius proper, (halvedRadius_lt proper above).le.trans paced.most,
    ?_, fun earlier before => ?_⟩
  · refine search.halvedRadius_eq.imp_left fun half => ?_
    rw [half, now, mul_assoc, ← pow_succ]
  · rcases Nat.lt_succ_iff_lt_or_eq.mp before with before | rfl
    · exact paced.needed earlier before
    · exact (mul_lt_mul_of_pos_right above (by positivity)).trans_eq twice

/-- **The changes are at most as many as halvings lead from the initial to the final radius.** -/
theorem Paced.count_le {radius : α} (paced : Paced options count radius) {bound : Nat}
    (enough : options.radiusBegin ≤ options.radiusEnd * 2 ^ bound) : count ≤ bound := by
  by_contra more
  exact absurd (paced.needed bound (Nat.lt_of_not_le more)) (not_lt.mpr enough)

theorem Paced.count_le_clog [FloorSemiring α] {radius : α} (paced : Paced options count radius)
    (valid : options.ValidRadii) :
    (count : ℤ) ≤ Int.clog 2 (options.radiusBegin / options.radiusEnd) := by
  have above : 1 ≤ options.radiusBegin / options.radiusEnd :=
    (one_le_div valid.1).mpr valid.2.1.le
  obtain ⟨bound, log⟩ := Int.eq_ofNat_of_zero_le
    ((Int.clog_of_one_le_right 2 above).symm ▸ Int.natCast_nonneg _)
  rw [log]
  refine Int.ofNat_le.mpr (paced.count_le ?_)
  have ratio := Int.self_le_zpow_clog (R := α) one_lt_two (options.radiusBegin / options.radiusEnd)
  rw [log, zpow_natCast, div_le_iff₀ valid.1, mul_comm] at ratio
  exact_mod_cast ratio

/-! ## The last assessment -/

/-- An iteration of the run has assessed the simplex of `assessed.surveyed`, and there has been
no other iteration since. -/
inductive LastAssessed (box : Box α n) (first assessed : Search α n u b) : Search α n u b → Prop
  /-- The iteration. -/
  | iterate {next : Search α n u b} (run : Relation.ReflTransGen (Advanced box) first assessed)
      (due : assessed.phase = .iterate) (turns : Turns assessed next) :
      LastAssessed box first assessed next
  /-- Another move. -/
  | later {last next : Search α n u b} (earlier : LastAssessed box first assessed last)
      (calm : last.phase ≠ .iterate) (advanced : Advanced box last next) :
      LastAssessed box first assessed next

/-- The flag, the shape and the radius are those of an assessment. -/
structure Relies (assessed search : Search α n u b) : Prop where
  acceptable : search.acceptable = assessed.surveyed.acceptable
  shape : search.shape = assessed.surveyed.shape
  radius : search.radius = assessed.radius

/-- The flag stems from the last assessment of the run, which was made with the radius that the
search still has. -/
def Current (box : Box α n) (first search : Search α n u b) : Prop :=
  ∃ assessed, LastAssessed box first assessed search ∧ Relies assessed search

/-- A search that waits for the values at a trial point, that is to reduce the radius, or that
has converged goes by a current assessment. -/
def Sustained (box : Box α n) (first search : Search α n u b) : Prop :=
  match search.phase with
  | .evaluate (.trial _) | .reduce => Current box first search
  | .done .converged =>
    Current box first search ∧ search.acceptable = true ∧
      search.radius ≤ search.options.radiusEnd
  | .start | .evaluate (.vertex _) | .iterate | .done .exhausted | .done .inaccurate => True

theorem Current.later (current : Current box first search) (calm : search.phase ≠ .iterate)
    (advanced : Advanced box search next) (acceptable : next.acceptable = search.acceptable)
    (shape : next.shape = search.shape) (radius : next.radius = search.radius) :
    Current box first next := by
  obtain ⟨assessed, last, relies⟩ := current
  exact ⟨assessed, last.later calm advanced, acceptable.trans relies.acceptable,
    shape.trans relies.shape, radius.trans relies.radius⟩

theorem Alike.measured {other : Search α n u b} (alike : search.Alike other) :
    search.phase = other.phase ∧ search.acceptable = other.acceptable ∧
      search.shape = other.shape ∧ search.radius = other.radius := by
  obtain ⟨journal, rfl⟩ := alike
  exact ⟨rfl, rfl, rfl, rfl⟩

/-- An iteration rests on its own assessment. -/
theorem sustained_iterate (run : Relation.ReflTransGen (Advanced box) first search)
    (due : search.phase = .iterate) (found : search.iterate fuel = some next) :
    Sustained box first next := by
  have last : LastAssessed box first search next := .iterate run due ⟨fuel, .iterate due found⟩
  have stays : ∀ {other : Search α n u b}, next.Alike other →
      other.acceptable = search.surveyed.acceptable → other.shape = search.surveyed.shape →
      other.radius = search.radius → other.phase ≠ .done .converged →
      Sustained box first next := by
    intro other alike acceptable shape radius further
    obtain ⟨phase, acceptable', shape', radius'⟩ := alike.measured
    have current : Current box first next :=
      ⟨search, last, acceptable'.trans acceptable, shape'.trans shape, radius'.trans radius⟩
    unfold Sustained
    split
    case h_3 ended => exact absurd (phase.symm.trans ended) further
    case h_1 => exact current
    case h_2 => exact current
    all_goals trivial
  cases iterate_outcome found with
  | spoilt _ _ alike => simp only [Sustained, alike.measured.1]
  | move _ alike => exact stays alike rfl rfl rfl nofun
  | short _ _ _ alike => exact stays alike rfl rfl rfl nofun
  | weigh _ _ _ weighed =>
    cases weighed with
    | trial _ alike => exact stays alike rfl rfl rfl nofun
    | raised _ _ alike => exact stays alike rfl rfl rfl nofun
    | dethroned _ _ alike => exact stays alike rfl rfl rfl nofun

/-- A reduction ends the search only by the assessment that is current. -/
theorem Sustained.reduce (sustained : Sustained box first search) (due : search.phase = .reduce) :
    Sustained box first search.reduce := by
  simp only [Sustained, due] at sustained
  have advanced : Advanced box search search.reduce := .turn ⟨0, .reduce due⟩
  cases search.reduce_outcome with
  | spared _ alike => simp only [Sustained, alike.measured.1, spared]
  | shrunk _ _ alike => simp only [Sustained, alike.measured.1]
  | converged acceptable final alike =>
    obtain ⟨phase, acceptable', shape, radius⟩ := alike.measured
    have options := alike.frame.1
    simp only [Sustained, phase]
    refine ⟨sustained.later (by simp [due]) advanced acceptable' shape radius,
      acceptable'.trans acceptable, ?_⟩
    rw [radius, options]
    exact final

/-- The values at a trial point leave the assessment current. -/
theorem Sustained.answer {pending : Pending α n} (sustained : Sustained box first search)
    (due : search.phase = .evaluate pending)
    (allowed : search.evaluator.evaluations < search.evaluator.limit)
    (constraints : Vector α u) (objective : α) :
    Sustained box first ((search.informed box constraints objective).answer pending) := by
  have advanced :
      Advanced box search ((search.informed box constraints objective).answer pending) :=
    .answer constraints objective due allowed
  cases pending with
  | vertex vertex =>
    cases answer_vertex_outcome (search.informed box constraints objective) vertex with
    | vertex _ _ alike => simp only [Sustained, alike.measured.1]
    | complete _ alike => simp only [Sustained, alike.measured.1]
  | trial plan =>
    simp only [Sustained, due] at sustained
    have later := sustained.later (by simp [due]) advanced
    cases answer_trial_outcome (search.informed box constraints objective) plan with
    | dropped _ alike =>
      obtain ⟨phase, acceptable, shape, radius⟩ := alike.measured
      simp only [Sustained, phase]
      exact later acceptable shape radius
    | taken _ alike =>
      obtain ⟨phase, acceptable, shape, radius⟩ := alike.measured
      split at phase
      case isTrue => simp only [Sustained, phase]
      case isFalse =>
        simp only [Sustained, phase]
        exact later acceptable shape radius

/-- **Every move leaves what a reduction needs.** -/
theorem Sustained.advanced (sustained : Sustained box first search)
    (run : Relation.ReflTransGen (Advanced box) first search) (started : search.Started)
    (advanced : Advanced box search next) : Sustained box first next := by
  cases advanced with
  | enter point entry =>
    rw [started.enter] at entry
    cases entry
    exact sustained
  | turn turns =>
    obtain ⟨fuel, turned⟩ := turns
    cases turned with
    | iterate due found => exact sustained_iterate run due found
    | reduce due => exact sustained.reduce due
  | exhaust => simp only [Sustained, (alike_finish ..).measured.1]
  | answer constraints objective due allowed =>
    exact sustained.answer due allowed constraints objective
  | halt => simp only [Sustained, (alike_halted ..).measured.1]
  | @fail pending constraints error other due allowed =>
    have again : (search.counted constraints).phase = .evaluate pending := due
    have moved : Advanced box search (search.counted constraints) :=
      .fail constraints error other due allowed
    cases pending with
    | vertex vertex => simp only [Sustained, again]
    | trial plan =>
      simp only [Sustained, due] at sustained
      simp only [Sustained, again]
      exact sustained.later (by simp [due]) moved rfl rfl rfl

/-! ## Runs -/

/-- What is known about a search that a run has led to. -/
structure Scheduled (options : Options α) (box : Box α n) (first : Search α n u b) (count : Nat)
    (search : Search α n u b) : Prop where
  reached : Reachable options box search
  run : Relation.ReflTransGen (Advanced box) first search
  started : search.Started
  kept : search.options = options
  paced : Paced options count search.radius
  sustained : Sustained box first search

theorem enter_fresh (fresh : search.phase = .start) {point : Array α}
    (entry : search.enter point = .ok started) : search.options.ValidRadii ∧
      started = search.startAt (Vector.ofFn fun i => point[i.val]?.getD 0) := by
  rcases enter_eq entry with ⟨begun, -⟩ | ⟨-, clear, begins⟩
  · exact absurd fresh begun
  · exact ⟨((search.options.obstacle?_eq_none_iff n point).mp clear).2.2.1, begins⟩

/-- A run begins with the initial radius. -/
theorem Reached.scheduled (reached : Reached options box record search)
    (fresh : search.phase = .start) {point : Array α} (entry : search.enter point = .ok started) :
    started.radius = options.radiusBegin ∧ Scheduled options box started 0 started := by
  obtain ⟨valid, begins⟩ := enter_fresh fresh entry
  have before := reached.options
  have alike := search.alike_startAt (Vector.ofFn fun i => point[i.val]?.getD 0)
  rw [← begins] at alike
  have radius : started.radius = options.radiusBegin := before ▸ alike.frame.2.1
  refine ⟨radius, ⟨record, reached.enter point entry⟩, .refl, started_enter entry,
    alike.frame.1.trans before, ?_, ?_⟩
  · rw [radius]
    exact paced_begin (before ▸ valid)
  · simp only [Sustained, alike.measured.1]

/-- A move is a change of the radius that was needed, or leaves it as it is. -/
theorem Scheduled.advanced (scheduled : Scheduled options box first count search)
    (advanced : Advanced box search next) :
    next.radius ≤ search.radius ∧
      (Rescales search next →
        next.radius = search.radius * 0.5 ∨ next.radius = options.radiusEnd) ∧
      Scheduled options box first
        (if next.radius = search.radius then count else count + 1) next := by
  obtain ⟨⟨record, reached⟩, run, started, kept, paced, sustained⟩ := scheduled
  obtain ⟨same, radius⟩ := advanced.radius reached
  have later : ∀ {count : Nat}, Paced options count next.radius →
      Scheduled options box first count next := fun paced =>
    ⟨advanced.reached reached, run.tail advanced, advanced.started, same.trans kept, paced,
      sustained.advanced run started advanced⟩
  subst kept
  rcases radius with radius | ⟨due, above, radius⟩
  · rw [if_pos radius]
    exact ⟨radius.le, fun changed => absurd radius changed, later (radius ▸ paced)⟩
  · have proper := reached.properRadius (.inr due)
    have less := radius.trans_lt (halvedRadius_lt proper above)
    rw [if_neg less.ne]
    exact ⟨less.le, fun _ => radius ▸ search.halvedRadius_eq,
      later (radius ▸ paced.halve proper above)⟩

theorem Scheduled.trail (scheduled : Scheduled options box first 0 first)
    (trail : Trail (Advanced box) Rescales first count last) :
    Scheduled options box first count last := by
  induction trail with
  | start => exact scheduled
  | plain _ advanced other ih =>
    have next := (ih.advanced advanced).2.2
    rwa [if_pos (not_not.mp other)] at next
  | counted _ advanced changed ih =>
    have next := (ih.advanced advanced).2.2
    rwa [if_neg changed] at next

/-- The turns of a call are moves of the run. -/
theorem Scheduled.settle {turns : Nat} {settled : Search α n u b}
    (scheduled : Scheduled options box first count search)
    (found : search.settle fuel turns = some settled) :
    ∃ count, Scheduled options box first count settled := by
  have keeps : ∀ {state next : Search α n u b}, Turned fuel state next →
      (∃ count, Scheduled options box first count state) →
      ∃ count, Scheduled options box first count next := by
    rintro state next turned ⟨count, scheduled⟩
    exact ⟨_, (scheduled.advanced (.turn ⟨fuel, turned⟩)).2.2⟩
  exact settle_keeps keeps ⟨count, scheduled⟩ found

theorem Shape.within_of_acceptable {shape : Shape α n} {floor cap : α}
    (acceptable : shape.acceptable floor cap = true) (j : Fin n) :
    floor ≤ shape.heights.get j ∧ shape.lengths.get j ≤ cap := by
  simp only [Shape.acceptable, Bool.not_eq_true', List.any_eq_false, List.mem_finRange,
    Bool.or_eq_true, decide_eq_true_eq, not_or, not_lt, true_implies] at acceptable
  exact acceptable j

/-- A search that has converged has assessed its simplex with the final radius, and no vertex
was out of place. -/
theorem Scheduled.converged (scheduled : Scheduled options box first count search)
    (ended : search.phase = .done .converged) :
    search.radius = options.radiusEnd ∧
      ∃ assessed, LastAssessed box first assessed search ∧
        assessed.radius = options.radiusEnd ∧
        ∀ j, Shape.heightFactor * options.radiusEnd ≤ assessed.surveyed.shape.heights.get j ∧
          assessed.surveyed.shape.lengths.get j ≤ Shape.lengthFactor * options.radiusEnd := by
  have sustained := scheduled.sustained
  simp only [Sustained, ended, scheduled.kept] at sustained
  obtain ⟨⟨assessed, last, relies⟩, acceptable, low⟩ := sustained
  have final := low.antisymm scheduled.paced.least
  have radius : assessed.radius = options.radiusEnd := relies.radius.symm.trans final
  refine ⟨final, assessed, last, radius, fun j => ?_⟩
  have fine : assessed.surveyed.shape.acceptable (Shape.heightFactor * assessed.radius)
      (Shape.lengthFactor * assessed.radius) = true := relies.acceptable.symm.trans acceptable
  rw [radius] at fine
  exact Shape.within_of_acceptable fine j

/-- **The radius along a run from a valid start.**  It begins with the initial radius and never
rises, nor does it fall below the final one; each change halves it or makes it the final one,
and the changes are at most the binary logarithm of the ratio of the two, rounded up.  Whenever
a reduction is due, the flag that it goes by stems from the last assessment of the simplex, and
the radius has not changed since.  A call from any state of the run tells that the search has
converged only if the radius is the final one and the last assessment, made with that radius,
has found every vertex acceptable. -/
theorem Reached.paced (reached : Reached options box record search)
    (fresh : search.phase = .start) {point : Array α} (entry : search.enter point = .ok started)
    (run : Trail (Advanced box) Rescales started count last) :
    started.radius = options.radiusBegin ∧
      options.radiusEnd ≤ last.radius ∧ last.radius ≤ options.radiusBegin ∧
      (∀ next, Advanced box last next → next.radius ≤ last.radius ∧
        (Rescales last next →
          next.radius = last.radius * 0.5 ∨ next.radius = options.radiusEnd)) ∧
      (∀ bound, options.radiusBegin ≤ options.radiusEnd * 2 ^ bound → count ≤ bound) ∧
      (∀ [FloorSemiring α],
        (count : ℤ) ≤ Int.clog 2 (options.radiusBegin / options.radiusEnd)) ∧
      (last.phase = .reduce →
        ∃ assessed, LastAssessed box started assessed last ∧ Relies assessed last) ∧
      ∀ fuel (oracle : Oracle Id α n u) (caller : Array α) (log : Record α n u),
        ((last.next fuel oracle.recorded box caller).run log).1.result = .ok (some .converged) →
        ((last.next fuel oracle.recorded box caller).run log).1.search.radius =
            options.radiusEnd ∧
          ∃ assessed,
            LastAssessed box started assessed
              ((last.next fuel oracle.recorded box caller).run log).1.search ∧
            assessed.radius = options.radiusEnd ∧
            ∀ j,
              Shape.heightFactor * options.radiusEnd ≤ assessed.surveyed.shape.heights.get j ∧
                assessed.surveyed.shape.lengths.get j ≤
                  Shape.lengthFactor * options.radiusEnd := by
  obtain ⟨radius, first⟩ := reached.scheduled fresh entry
  have scheduled := first.trail run
  have valid : options.ValidRadii := reached.options ▸ (enter_fresh fresh entry).1
  refine ⟨radius, scheduled.paced.least, scheduled.paced.most, fun next advanced => ?_,
    fun bound enough => scheduled.paced.count_le enough, scheduled.paced.count_le_clog valid,
    fun due => ?_, fun fuel oracle caller log result => ?_⟩
  · obtain ⟨falls, halves, -⟩ := scheduled.advanced advanced
    exact ⟨falls, halves⟩
  · have sustained := scheduled.sustained
    simp only [Sustained, due] at sustained
    exact sustained
  · obtain ⟨-, entered, settled, entry, found, ended⟩ := next_ended result
    have phase := ended.phase
    generalize ((last.next fuel oracle.recorded box caller).run log).1.search = final at ended phase
    rw [scheduled.started.enter] at entry
    cases entry
    obtain ⟨changes, settling⟩ := scheduled.settle found
    cases ended with
    | settled => exact settling.converged phase

/-! ## On the line -/

theorem Trail.extend {β : Type} {move kind : β → β → Prop} {first last next : β} {count : Nat}
    (trail : Trail move kind first count last) (moved : move last next) :
    ∃ count, Trail move kind first count next := by
  by_cases same : kind last next
  · exact ⟨_, trail.counted moved same⟩
  · exact ⟨_, trail.plain moved same⟩

/-- The search is on a run that has begun in a reached state. -/
def OnRun (options : Options α) (box : Box α n) (search : Search α n u b) : Prop :=
  ∃ (earlier : Record α n u) (fresh first : Search α n u b) (point : Array α) (count : Nat),
    Reached options box earlier fresh ∧ fresh.phase = .start ∧ fresh.enter point = .ok first ∧
      Trail (Advanced box) Rescales first count search

theorem Advanced.onRun (advanced : Advanced box search next) (onRun : OnRun options box search) :
    OnRun options box next := by
  obtain ⟨earlier, fresh, first, point, count, reached, due, entry, trail⟩ := onRun
  obtain ⟨count, trail⟩ := trail.extend advanced
  exact ⟨earlier, fresh, first, point, count, reached, due, entry, trail⟩

/-- A reached search that has started is on a run. -/
theorem Reached.onRun (reached : Reached options box record search) (started : search.Started) :
    OnRun options box search := by
  induction reached with
  | create => exact absurd rfl started
  | @enter record search entered point reached entry ih =>
    by_cases fresh : search.phase = .start
    · exact ⟨record, search, entered, point, 0, reached, fresh, entry, .start⟩
    · exact (Advanced.enter point entry).onRun (ih fresh)
  | iterate fuel _ due found ih =>
    have advanced : Advanced box _ _ := .turn ⟨fuel, .iterate due found⟩
    exact advanced.onRun (ih (started_of_phase due nofun))
  | @reduce _ search _ due ih =>
    have advanced : Advanced box search search.reduce := .turn ⟨0, .reduce due⟩
    exact advanced.onRun (ih (started_of_phase due nofun))
  | exhaust _ due spent ih =>
    exact (Advanced.exhaust due spent).onRun (ih (started_of_phase due nofun))
  | answer constraints objective _ due allowed ih =>
    exact (Advanced.answer constraints objective due allowed).onRun
      (ih (started_of_phase due nofun))
  | halt constraints _ due allowed ih =>
    exact (Advanced.halt constraints due allowed).onRun (ih (started_of_phase due nofun))
  | fail constraints error other _ due allowed ih =>
    exact (Advanced.fail constraints error other due allowed).onRun
      (ih (started_of_phase due nofun))
  | reset => exact absurd rfl started

/-- A run on the line halves the radius once and then converges. -/
theorem paced_on_line : ∃ (record : Record ℝ 1 0) (fresh first last : Search ℝ 1 0 0)
    (point : Array ℝ) (count : Nat),
    Reached lineOptions realLine record fresh ∧ fresh.phase = .start ∧
      fresh.enter point = .ok first ∧
      Trail (Advanced realLine) Rescales first count last ∧ first.radius = 1 ∧ count ≤ 1 ∧
      last.phase = .reduce ∧ last.radius = 1 / 2 ∧
      (∃ assessed, LastAssessed realLine first assessed last ∧ Relies assessed last) ∧
      ∀ oracle : Oracle Id ℝ 1 0,
        ((last.next 2 oracle.recorded realLine #[0]).run #[]).1.result = .ok (some .converged) ∧
        ((last.next 2 oracle.recorded realLine #[0]).run #[]).1.search.radius = 1 / 2 := by
  obtain ⟨record, last, reached, -, -, overlooks⟩ := reached_overlooking
  have due : last.phase = .reduce := overlooks.1
  have options : last.options = lineOptions := reached.options
  obtain ⟨earlier, fresh, first, point, count, before, begins, entry, run⟩ :=
    reached.onRun (started_of_phase due nofun)
  obtain ⟨radius, least, -, -, few, -, assessed, converged⟩ :=
    before.paced begins entry run
  have low : last.radius ≤ lineOptions.radiusEnd := options ▸ overlooks.2.2.1
  refine ⟨earlier, fresh, first, last, point, count, before, begins, entry, run, radius, few 1 ?_,
    due, low.antisymm least, assessed due, fun oracle => ?_⟩
  · norm_num [lineOptions]
  · have result : ((last.next 2 oracle.recorded realLine #[0]).run #[]).1.result =
        .ok (some .converged) := by
      rw [overlooks.ends]
      exact congrArg Step.result (handOut_sized rfl _)
    exact ⟨result, (converged 2 oracle #[0] #[] result).1⟩

end DerivativeFree.Search
