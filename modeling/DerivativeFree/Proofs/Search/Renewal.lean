import DerivativeFree.Proofs.Search.Inverse
import DerivativeFree.Proofs.Search.Lockstep

/-!
# Searches that are used again

A reset sets the counter of the evaluations, the phase and four more fields back.  The rest
is left as it was: the simplex and its shape, the workspace of the steps, the last sample and
the values of the constraints, the point and the best point.  A search that starts writes
all of this before it reads it.  So whatever a search has been used for, after a reset it
cannot be told from a new one (`Used.renewed`).

The oracle has to write all of its constraints whenever it answers with values, because it
is handed what was left by the last question.
-/

namespace DerivativeFree.Search

set_option autoImplicit false

variable {α : Type} [Scalar α] {n u b : Nat} {options : Options α} {search : Search α n u b}

/-! ## Use -/

/-- A search that has been used in any way: for any number of calls, each with an oracle, a
box and a point of its own, and resets in between. -/
inductive Used (options : Options α) : Search α n u b → Prop
  /-- A new search. -/
  | create : Used options (create n u b options)
  /-- A search after another call. -/
  | call {search : Search α n u b} (used : Used options search) (fuel : Nat)
      (oracle : Oracle Id α n u) (box : Box α n) (point : Array α) (record : Record α n u) :
      Used options ((search.next fuel oracle.recorded box point).run record).1.search
  /-- A search that has been reset. -/
  | reset {search : Search α n u b} (used : Used options search) : Used options search.reset

theorem ask_kept (oracle : Oracle Id α n u) (box : Box α n) (search : Search α n u b)
    (pending : Pending α n) (point : Array α) (record : Record α n u) :
    ((search.ask oracle.recorded box pending point).run record).1.search.options =
        search.options ∧
      ((search.ask oracle.recorded box pending point).run record).1.search.evaluator.limit =
        search.evaluator.limit := by
  have finished : ∀ (state : Search α n u b) (status : Status),
      (state.finish status).options = state.options ∧
        (state.finish status).evaluator.limit = state.evaluator.limit := fun state status =>
    ⟨(alike_finish ..).frame.1, congrArg Evaluator.limit (alike_finish ..).evaluator⟩
  rw [run_ask]
  split
  case isTrue =>
    rw [search_handOut]
    exact finished search .exhausted
  case isFalse =>
    simp only [asked]
    split
    case h_1 objective _ =>
      rw [search_handOut]
      rw [(answer_frame _ pending).1, answer_evaluator]
      exact ⟨rfl, rfl⟩
    case h_2 =>
      rw [search_handOut]
      exact finished _ .exhausted
    case h_3 => exact ⟨rfl, rfl⟩

/-- A call keeps the options and the limit of the evaluations. -/
theorem next_kept (search : Search α n u b) (fuel : Nat) (oracle : Oracle Id α n u)
    (box : Box α n) (point : Array α) (record : Record α n u) :
    ((search.next fuel oracle.recorded box point).run record).1.search.options =
        search.options ∧
      ((search.next fuel oracle.recorded box point).run record).1.search.evaluator.limit =
        search.evaluator.limit := by
  unfold Search.next
  cases entry : search.enter point with
  | error failure => exact ⟨rfl, rfl⟩
  | ok entered =>
    have evaluator : entered.evaluator = search.evaluator := by
      rcases enter_eq entry with ⟨-, rfl⟩ | ⟨-, -, rfl⟩
      · rfl
      · exact (alike_startAt ..).evaluator
    have options := enter_options entry
    cases found : entered.settle fuel fuel with
    | none =>
      simp only [found]
      exact ⟨options, congrArg Evaluator.limit evaluator⟩
    | some settled =>
      have kept : settled.options = search.options ∧
          settled.evaluator.limit = search.evaluator.limit := by
        rw [settle_options found, settle_evaluator found]
        exact ⟨options, congrArg Evaluator.limit evaluator⟩
      simp only [found]
      cases due : settled.phase with
      | evaluate pending =>
        obtain ⟨sameOptions, sameLimit⟩ := ask_kept oracle box settled pending point record
        exact ⟨sameOptions.trans kept.1, sameLimit.trans kept.2⟩
      | start | iterate | reduce | done =>
        change (settled.handOut point _).search.options = _ ∧
          (settled.handOut point _).search.evaluator.limit = _
        rw [search_handOut]
        exact kept

/-- Use keeps the options and the limit of the evaluations. -/
theorem Used.kept (used : Used options search) :
    search.options = options ∧ search.evaluator.limit = options.maxEvaluations := by
  induction used with
  | create => exact ⟨rfl, rfl⟩
  | call _ fuel oracle box point record ih =>
    obtain ⟨sameOptions, sameLimit⟩ := next_kept _ fuel oracle box point record
    exact ⟨sameOptions.trans ih.1, sameLimit.trans ih.2⟩
  | reset _ ih => exact ih

/-! ## Renewal -/

/-- After a reset, a used search is poised beside a new one. -/
theorem Used.poised (used : Used options search) (point : Array α) :
    Poised (fun _ _ => True) options options point search.reset
      (Search.create n u b options) :=
  .fresh {
    given := used.kept.1
    given' := rfl
    limit := used.kept.2
    limit' := rfl
    count := rfl
    within := Nat.zero_le _
    buffers := trivial
    published := fun _ ended => by cases ended
    published' := fun _ ended => by cases ended } rfl rfl rfl

/-- **A used search that is reset behaves as a new one.**  If what the oracle shows depends on
the point alone, then call by call the results, the points that are handed out and all that
is asked and found are the same, starting from any point, and after every call that succeeds
an observer is shown the same. -/
theorem Used.renewed {box : Box α n} {search : Search α n u box.boundCount}
    (used : Used options search) (oracle : Oracle Id α n u)
    (determined : ∀ x constraints constraints',
      (oracle.inquire x constraints').shown = (oracle.inquire x constraints).shown)
    (fuel calls : Nat) (point : Array α) :
    List.Forall₂
      (fun called called' => SameOutcome called called' ∧
        ∀ status, called.1.result = .ok status →
          called'.1.search.view = called.1.search.view)
      (search.reset.transcript fuel oracle box calls point #[])
      ((Search.create n u box.boundCount options).transcript fuel oracle box calls point #[]) := by
  have respects : oracle.Respects (fun _ _ => True) :=
    fun x constraints constraints' _ => ⟨determined x constraints constraints', trivial⟩
  have never : ∀ called : Step α n u box.boundCount × Record α n u,
      ¬ Parted options options called.1 := by
    rintro called (⟨strict, lax, -⟩ | ⟨less, -, -⟩)
    · exact lax strict
    · exact Nat.lt_irrefl _ less
  refine AgreesUntil.forall₂ (AgreesUntil.imp ((used.poised point).transcript (.refl options)
    respects fuel calls rfl False.elim) ?_ fun _ => id) never
  exact fun _ _ same => ⟨same.1, same.2.1⟩

/-- A search on the line whose first question has failed is reset, and two calls to it are like
two calls to a new search. -/
theorem renewed_on_line :
    let failing : Oracle Id ℝ 1 0 := fun _ constraints => (constraints, .error .invalidValue)
    let oracle : Oracle Id ℝ 1 0 := fun x constraints => (constraints, .ok (x.get 0))
    let new : Search ℝ 1 0 realLine.boundCount := create 1 0 realLine.boundCount lineOptions
    let failed := ((new.next 1 failing.recorded realLine #[0]).run #[]).1
    failed.result = .error (.evaluation .invalidValue) ∧
      List.Forall₂
        (fun called called' => SameOutcome called called' ∧
          ∀ status, called.1.result = .ok status →
            called'.1.search.view = called.1.search.view)
        (failed.search.reset.transcript 2 oracle realLine 2 #[0] #[])
        (new.transcript 2 oracle realLine 2 #[0] #[]) := by
  intro failing oracle new failed
  have result : failed.result = .error (.evaluation .invalidValue) := by
    have entry : new.enter #[0] = .ok lineStart := enter_line
    simp only [failed, Search.next, entry]
    rfl
  have used : Used lineOptions failed.search := Used.create.call 1 failing realLine #[0] #[]
  refine ⟨result, used.renewed oracle (fun x constraints constraints' => ?_) 2 2 #[0]⟩
  have same : constraints' = constraints := by
    ext i inside
    exact absurd inside (Nat.not_lt_zero i)
  rw [same]

end DerivativeFree.Search
