import DerivativeFree.Proofs.Linear.Fold
import DerivativeFree.Proofs.Machine.Nan
import DerivativeFree.Proofs.Search.Turns

/-!
# Objectives that are not a number

A function may have a value that is not a number, and comparisons with it fail.  The choice of
the pole takes only vertices that have won a comparison, so that such a vertex never becomes
the pole in it (`proper_of_promoted`), and a pole with such a value is never left again.

The initial simplex is set up by another comparison: the pole stays if its objective is at
most the new one, and gives way if not.  So it also gives way to a value that is not a number.
What is shown in the end is a number if and only if the last of the values for the initial
simplex is one (`Reached.isNan_objective_iff`), whatever has been found before and
afterwards.
-/

namespace DerivativeFree

set_option autoImplicit false

variable {α : Type} {n m u b : Nat}

/-! ## The values that have been found -/

/-- The objectives that have been found, in order. -/
def valuesOf (record : Record α n u) : List α :=
  record.toList.filterMap fun inquiry => inquiry.answer.toOption

/-- The last objective for the initial simplex that has been found. -/
def lastInitial (record : Record α n u) : Option α :=
  ((valuesOf record).take (n + 1)).getLast?

theorem valuesOf_push_ok (record : Record α n u) (x : Vector α n) (constraints : Vector α u)
    (objective : α) :
    valuesOf (record.push ⟨x, constraints, .ok objective⟩) = valuesOf record ++ [objective] := by
  simp [valuesOf, Except.toOption]

theorem valuesOf_push_error (record : Record α n u) (x : Vector α n) (constraints : Vector α u)
    (error : EvalError) :
    valuesOf (record.push ⟨x, constraints, .error error⟩) = valuesOf record := by
  simp [valuesOf, Except.toOption]

/-- While the initial simplex is set up, the last value is the last one for it. -/
theorem lastInitial_push_early {record : Record α n u} (few : (valuesOf record).length ≤ n)
    (x : Vector α n) (constraints : Vector α u) (objective : α) :
    lastInitial (record.push ⟨x, constraints, .ok objective⟩) = some objective := by
  have all : (valuesOf record ++ [objective]).take (n + 1) = valuesOf record ++ [objective] :=
    List.take_of_length_le (by simpa using few)
  rw [lastInitial, valuesOf_push_ok, all, List.getLast?_concat]

theorem lastInitial_push_late {record : Record α n u} (many : n < (valuesOf record).length)
    (x : Vector α n) (constraints : Vector α u) (objective : α) :
    lastInitial (record.push ⟨x, constraints, .ok objective⟩) = lastInitial record := by
  rw [lastInitial, valuesOf_push_ok, List.take_append_of_le_length many, lastInitial]

variable [Scalar α] [LawfulNan α]

/-! ## The pole -/

namespace Simplex

variable {simplex : Simplex α n m} {penalty : α}

/-- A vertex with a proper merit has a proper objective. -/
theorem proper_of_merit {vertex : Vertex n} (proper : ¬ IsNan (simplex.merit penalty vertex)) :
    ¬ IsNan (simplex.sample vertex).objective :=
  fun nan => proper (LawfulNan.add _ nan)

/-- The pole has not been left so far, or both the best vertex and the pole have proper
objectives. -/
def ProperSoFar (simplex : Simplex α n m) (penalty : α) (best : Vertex n × α) : Prop :=
  best = (.pole, simplex.merit penalty .pole) ∨
    ¬ IsNan (simplex.sample best.1).objective ∧ ¬ IsNan simplex.poleSample.objective

/-- The best vertex is the pole, or it has won a comparison and the pole has lost one. -/
theorem proper_of_best {j : Fin n} (chosen : simplex.best penalty = .edge j) :
    ¬ IsNan (simplex.sample (.edge j)).objective ∧ ¬ IsNan simplex.poleSample.objective := by
  have invariant : simplex.ProperSoFar penalty
      (Fin.foldl n (simplex.betterOf penalty) (.pole, simplex.merit penalty .pole)) := by
    refine foldl_invariant _ _ (fun _ => simplex.ProperSoFar penalty) (.inl rfl) ?_
    intro k best before
    -- Whatever has lost to a proper merit was proper itself.
    have lost : ¬ IsNan best.2 → ¬ IsNan simplex.poleSample.objective := by
      intro proper
      rcases before with rfl | ⟨-, pole⟩
      · exact (proper_of_merit proper :)
      · exact pole
    simp only [betterOf]
    split
    case isTrue less =>
      have proper := LawfulNan.of_lt less
      exact .inr ⟨proper_of_merit proper.1, lost proper.2⟩
    case isFalse =>
      split
      case isTrue tie =>
        have proper := LawfulNan.of_beq (Bool.and_eq_true_iff.mp tie).1
        exact .inr ⟨proper_of_merit proper.1, lost proper.2⟩
      case isFalse => exact before
  rw [best] at chosen
  rcases invariant with same | proper
  · rw [same] at chosen
    cases chosen
  · rwa [chosen] at proper

/-- The choice of the pole neither takes a vertex whose objective is not a number nor leaves
one. -/
theorem isNan_selectPole (simplex : Simplex α n m) (penalty : α) :
    IsNan (simplex.selectPole penalty).1.poleSample.objective ↔
      IsNan simplex.poleSample.objective := by
  unfold selectPole
  split
  case h_1 => exact Iff.rfl
  case h_2 j chosen =>
    obtain ⟨winner, pole⟩ := proper_of_best chosen
    exact iff_of_false winner pole

/-- A vertex that is made the pole has a proper objective. -/
theorem proper_of_promoted {j : Fin n} (promoted : (simplex.selectPole penalty).2 = some j) :
    ¬ IsNan (simplex.selectPole penalty).1.poleSample.objective := by
  unfold selectPole at promoted ⊢
  split
  case h_1 chosen =>
    rw [chosen] at promoted
    cases promoted
  case h_2 chosen => exact (proper_of_best chosen).1

/-- A vertex of the initial simplex leaves a pole whose objective is a number if and only if
its own is one. -/
theorem isNan_insertInitial (simplex : Simplex α n m) (j : Fin n) (sample : Sample α m)
    (x : Vector α n) (size : α) :
    IsNan (simplex.insertInitial j sample x size).1.poleSample.objective ↔
      IsNan sample.objective := by
  unfold insertInitial
  split
  case isTrue least =>
    have proper := LawfulNan.of_le least
    exact iff_of_false proper.1 proper.2
  case isFalse => exact Iff.rfl

end Simplex

namespace Search

variable {options : Options α} {box : Box α n} {record : Record α n u}
  {search other next : Search α n u b} {fuel : Nat}

/-! ## The invariant -/

/-- The values suffice for the phase. -/
def Furnished (record : Record α n u) (search : Search α n u b) : Prop :=
  match search.phase with
  | .start | .evaluate (.vertex .pole) => valuesOf record = []
  | .evaluate (.vertex (.edge _)) => valuesOf record ≠ []
  | .evaluate (.trial _) | .iterate | .reduce => n < (valuesOf record).length
  | .done _ => True

omit [LawfulNan α] in
theorem furnished_of_complete (complete : n < (valuesOf record).length)
    (due : search.phase = .iterate ∨ search.phase = .reduce) : Furnished record search := by
  rcases due with due | due
  · simpa only [Furnished, due] using complete
  · simpa only [Furnished, due] using complete

/-- What the values that have been found say of a search. -/
structure Accounts (record : Record α n u) (search : Search α n u b) : Prop where
  count : (∀ status, search.phase ≠ .done status) →
    (valuesOf record).length = search.evaluations
  furnished : Furnished record search
  objective : valuesOf record ≠ [] →
    (IsNan search.objective ↔ ∃ value ∈ lastInitial record, IsNan value)

theorem Turned.accounts (turned : Turned fuel search next) (accounts : Accounts record search) :
    Accounts record next := by
  have enough : n < (valuesOf record).length ∧
      (valuesOf record).length = search.evaluations := by
    have furnished := accounts.furnished
    cases turned with
    | iterate due =>
      simp only [Furnished, due] at furnished
      exact ⟨furnished, accounts.count (by simp [due])⟩
    | reduce due =>
      simp only [Furnished, due] at furnished
      exact ⟨furnished, accounts.count (by simp [due])⟩
  have goes : ∀ {other : Search α n u b}, next.Alike other → Furnished record other →
      (IsNan other.objective ↔ IsNan search.objective) → Accounts record next := by
    rintro other ⟨journal, same⟩ furnished objective
    refine ⟨fun _ => ?_, ?_, fun found => ?_⟩
    · rw [evaluations, turned.evaluator]
      exact enough.2
    · rw [same]
      exact furnished
    · rw [same]
      exact objective.trans (accounts.objective found)
  have selected := search.simplex.isNan_selectPole search.penalty
  have some : valuesOf record ≠ [] := List.ne_nil_of_length_pos (Nat.zero_lt_of_lt enough.1)
  cases turned with
  | iterate _ found =>
    cases iterate_outcome found with
    | spoilt _ _ alike => exact goes alike trivial selected
    | move _ alike => exact goes alike some selected
    | short _ _ _ alike => exact goes alike enough.1 selected
    | weigh _ _ _ weighed =>
      cases weighed with
      | trial _ alike => exact goes alike enough.1 selected
      | raised _ _ alike => exact goes alike enough.1 selected
      | dethroned _ _ alike => exact goes alike enough.1 selected
  | reduce =>
    cases search.reduce_outcome with
    | spared _ alike => exact goes alike enough.1 Iff.rfl
    | converged _ _ alike => exact goes alike trivial Iff.rfl
    | shrunk _ _ alike => exact goes alike enough.1 Iff.rfl

variable {pending : Pending α n} {constraints : Vector α u} {objective : α}

/-- A value at a vertex decides on the pole as long as the initial simplex is set up. -/
theorem Accounts.isNan_recordVertex (accounts : Accounts record search) {vertex : Vertex n}
    (due : search.phase = .evaluate (.vertex vertex)) :
    IsNan ((search.informed box constraints objective).recordVertex vertex).objective ↔
      ∃ value ∈ lastInitial (record.push ⟨search.point, constraints, .ok objective⟩),
        IsNan value := by
  have furnished := accounts.furnished
  have count := accounts.count (by simp [due])
  cases vertex with
  | pole =>
    simp only [Furnished, due] at furnished
    rw [lastInitial_push_early (by simp [furnished])]
    simp only [Option.mem_some, exists_eq_left']
    exact Iff.rfl
  | edge j =>
    simp only [Furnished, due] at furnished
    have evaluations : (search.informed box constraints objective).evaluations =
        (valuesOf record).length + 1 := by
      rw [count]
      rfl
    by_cases few : (search.informed box constraints objective).evaluations ≤ n + 1
    case pos =>
      rw [recordVertex_early few, lastInitial_push_early (by omega)]
      simp only [Option.mem_some, exists_eq_left']
      exact Simplex.isNan_insertInitial ..
    case neg =>
      rw [recordVertex_late few, lastInitial_push_late (by omega)]
      exact accounts.objective furnished

theorem Accounts.answer (accounts : Accounts record search)
    (due : search.phase = .evaluate pending) (box : Box α n) (constraints : Vector α u)
    (objective : α) :
    Accounts (record.push ⟨search.point, constraints, .ok objective⟩)
      ((search.informed box constraints objective).answer pending) := by
  have length : (valuesOf (record.push ⟨search.point, constraints, .ok objective⟩)).length =
      search.evaluations + 1 := by
    rw [valuesOf_push_ok, List.length_append, accounts.count (by simp [due])]
    rfl
  have some : valuesOf (record.push ⟨search.point, constraints, .ok objective⟩) ≠ [] :=
    List.ne_nil_of_length_pos (length ▸ Nat.succ_pos _)
  have goes : ∀ {state next : Search α n u b}, next.Alike state →
      state.evaluations = search.evaluations + 1 →
      Furnished (record.push ⟨search.point, constraints, .ok objective⟩) state →
      (IsNan state.objective ↔
        ∃ value ∈ lastInitial (record.push ⟨search.point, constraints, .ok objective⟩),
          IsNan value) →
      Accounts (record.push ⟨search.point, constraints, .ok objective⟩) next := by
    rintro state next ⟨journal, rfl⟩ count furnished nan
    exact ⟨fun _ => length.trans count.symm, furnished, fun _ => nan⟩
  cases pending with
  | vertex vertex =>
    have nan : IsNan ((search.informed box constraints objective).recordVertex vertex).objective ↔
        ∃ value ∈ lastInitial (record.push ⟨search.point, constraints, .ok objective⟩),
          IsNan value := accounts.isNan_recordVertex due
    have count := (search.informed box constraints objective).recordVertex_evaluations vertex
    cases answer_vertex_outcome (search.informed box constraints objective) vertex with
    | vertex _ _ alike => exact goes alike count some nan
    | complete late alike =>
      refine goes alike count ?_ nan
      change n < (valuesOf _).length
      rw [count] at late
      rw [length]
      exact late.resolve_left (Nat.succ_ne_zero _)
  | trial plan =>
    have furnished := accounts.furnished
    simp only [Furnished, due] at furnished
    have enough :
        n < (valuesOf (record.push ⟨search.point, constraints, .ok objective⟩)).length := by
      rw [valuesOf_push_ok, List.length_append]
      omega
    have nan : IsNan search.objective ↔
        ∃ value ∈ lastInitial (record.push ⟨search.point, constraints, .ok objective⟩),
          IsNan value := by
      rw [lastInitial_push_late furnished]
      exact accounts.objective (List.ne_nil_of_length_pos (Nat.zero_lt_of_lt furnished))
    cases answer_trial_outcome (search.informed box constraints objective) plan with
    | dropped _ alike => exact goes alike rfl enough nan
    | taken _ alike =>
      refine goes alike rfl (furnished_of_complete enough ?_) nan
      split
      · exact .inl rfl
      · exact .inr rfl

omit [LawfulNan α] in
/-- A search that has ended keeps its objective. -/
theorem Accounts.ended (accounts : Accounts record search) {status : Status}
    (alike : next.Alike { other with best := other.simplex.pole, phase := .done status })
    (same : other.objective = search.objective) {after : Record α n u}
    (values : valuesOf after = valuesOf record) : Accounts after next := by
  obtain ⟨journal, rfl⟩ := alike
  refine ⟨fun running => absurd rfl (running status), trivial, fun found => ?_⟩
  rw [lastInitial, values]
  rw [values] at found
  exact (iff_of_eq (congrArg IsNan same)).trans (accounts.objective found)

/-- **The values account for every search that is reached** without a failure. -/
theorem Reached.accounts (reached : Reached options box record search)
    (clean : ∀ inquiry ∈ record, ∀ error, inquiry.answer = .error error → error = .halt) :
    Accounts record search := by
  have earlier : ∀ {record : Record α n u} {inquiry : Inquiry α n u},
      (∀ asked ∈ record.push inquiry, ∀ error, asked.answer = .error error → error = .halt) →
      ∀ asked ∈ record, ∀ error, asked.answer = .error error → error = .halt :=
    fun clean asked before => clean asked (Array.mem_push.mpr (.inl before))
  induction reached with
  | create => exact ⟨fun _ => rfl, rfl, fun found => absurd rfl found⟩
  | @enter record search entered point _ entry ih =>
    rcases enter_eq entry with ⟨-, rfl⟩ | ⟨fresh, -, rfl⟩
    · exact ih clean
    · have none : valuesOf record = [] := by
        have furnished := (ih clean).furnished
        simpa only [Furnished, fresh] using furnished
      obtain ⟨journal, started⟩ := search.alike_startAt (Vector.ofFn fun i => point[i.val]?.getD 0)
      rw [started]
      exact ⟨fun _ => (ih clean).count (by simp [fresh]), none, fun found => absurd none found⟩
  | iterate fuel _ due found ih =>
    have turned : Turned fuel _ _ := .iterate due found
    exact turned.accounts (ih clean)
  | reduce _ due ih =>
    have turned : Turned 0 _ _ := .reduce due
    exact turned.accounts (ih clean)
  | exhaust _ _ _ ih => exact (ih clean).ended (alike_finish ..) rfl rfl
  | answer constraints objective _ due _ ih =>
    exact (ih (earlier clean)).answer due box constraints objective
  | halt constraints _ _ _ ih =>
    exact (ih (earlier clean)).ended (alike_halted ..) rfl (valuesOf_push_error ..)
  | fail constraints error other => exact absurd (clean _ Array.mem_push_self error rfl) other
  | reset => exact ⟨fun _ => rfl, rfl, fun found => absurd rfl found⟩

/-- **What is shown is a number if and only if the last of the values for the initial simplex
is one**, in every state that is reached without a failure, as soon as a value has been found.
Until the initial simplex is complete this is the last value of all.  A vertex that is made
the pole afterwards has a proper objective. -/
theorem Reached.isNan_objective_iff (reached : Reached options box record search)
    (clean : ∀ inquiry ∈ record, ∀ error, inquiry.answer = .error error → error = .halt)
    (found : valuesOf record ≠ []) :
    (IsNan search.objective ↔ ∃ value ∈ lastInitial record, IsNan value) ∧
      ∀ penalty j, (search.simplex.selectPole penalty).2 = some j →
        ¬ IsNan (search.simplex.selectPole penalty).1.poleSample.objective :=
  ⟨(reached.accounts clean).objective found, fun _ _ => Simplex.proper_of_promoted⟩

/-! ## In double precision -/

/-- Options for double precision: the radius goes from one to one half. -/
def doubleOptions : Options Float where
  radiusBegin := 1
  radiusEnd := 0.5

/-- The line in double precision, without bounds. -/
def doubleLine : Box Float 1 :=
  Box.unbounded 1 Nat.one_pos

/-- The value one on the left, and what is not a number on the right. -/
def brokenOracle : Oracle Id Float 1 0 :=
  fun x constraints => (constraints, .ok (if x.get ⟨0, Nat.one_pos⟩ < 0.5 then 1 else 0 / 0))

/-- The first call of a search in double precision that starts at zero. -/
def firstCall : Step Float 1 0 0 × Record Float 1 0 :=
  ((create 1 0 0 doubleOptions).next 2 brokenOracle.recorded doubleLine #[0]).run #[]

/-- The second call. -/
def secondCall : Step Float 1 0 0 × Record Float 1 0 :=
  (firstCall.1.search.next 2 brokenOracle.recorded doubleLine firstCall.1.point).run firstCall.2

/-- The value at zero is a number and the one at one is not, which becomes the pole. -/
theorem isNan_objective_iff_in_double_precision :
    Reached doubleOptions doubleLine secondCall.2 secondCall.1.search ∧
      (∀ inquiry ∈ secondCall.2, ∀ error, inquiry.answer = .error error → error = .halt) ∧
      valuesOf secondCall.2 ≠ [] ∧
      (IsNan secondCall.1.search.objective ↔
        ∃ value ∈ lastInitial secondCall.2, IsNan value) := by
  have reached : Reached doubleOptions doubleLine secondCall.2 secondCall.1.search :=
    (Reached.create.next 2 brokenOracle #[0]).next 2 brokenOracle firstCall.1.point
  have clean : ∀ inquiry ∈ secondCall.2, ∀ error, inquiry.answer = .error error →
      error = .halt := by
    have answered : secondCall.2.all (fun inquiry => inquiry.answer.isOk) = true := by
      decide +kernel
    intro inquiry asked error failed
    have ok := Array.all_eq_true'.mp answered inquiry asked
    rw [failed] at ok
    cases ok
  have found : valuesOf secondCall.2 ≠ [] := by decide +kernel
  exact ⟨reached, clean, found, (reached.isNan_objective_iff clean found).1⟩

/-- A value that is not a number becomes the pole of the initial simplex, although the value
at the starting point is one, both calls succeed, and the start is still a vertex. -/
theorem promoted_in_double_precision :
    firstCall.1.result = .ok none ∧ ¬ IsNan firstCall.1.search.objective ∧
      secondCall.1.result = .ok none ∧ IsNan secondCall.1.search.objective ∧
      ¬ IsNan (secondCall.1.search.simplex.sample (.edge 0)).objective :=
  ⟨result_of_toOption (by decide +kernel), by decide +kernel,
    result_of_toOption (by decide +kernel), by decide +kernel, by decide +kernel⟩

end Search

end DerivativeFree
