import DerivativeFree.Proofs.Search.Inverse
import DerivativeFree.Proofs.Search.Lockstep

/-!
# Options that only observe or truncate

Besides the two radii, a search has three options: the verbosity, what is done about
rounding errors, and the number of evaluations.  None of them has a say in what is asked.
The verbosity, and a check of the inverse that does not end the search, cannot be noticed at
all.  A smaller number of evaluations or a strict check ends a run earlier, and until then
the run is the one that it would have been (`options_truncate`).
-/

namespace DerivativeFree.Search

set_option autoImplicit false

variable {α : Type} [Scalar α] {n u b : Nat} {options options' : Options α}

/-- Two calls cannot be told from each other by their outcomes and by what is seen of the
searches afterwards. -/
def Indistinguishable (called called' : Step α n u b × Record α n u) : Prop :=
  SameOutcome called called' ∧ called'.1.search.view = called.1.search.view

/-- New searches with the same radii are poised side by side. -/
theorem create_poised (n u b : Nat) (begins : options'.radiusBegin = options.radiusBegin)
    (point : Array α) :
    Poised Eq options options' point (create n u b options) (create n u b options') ∧
      (create n u b options').view = (create n u b options).view := by
  refine ⟨.fresh {
    given := rfl
    given' := rfl
    limit := rfl
    limit' := rfl
    count := rfl
    within := Nat.zero_le _
    buffers := rfl
    published := fun _ ended => by cases ended
    published' := fun _ ended => by cases ended } rfl rfl rfl, ?_⟩
  simp only [view, create, begins]
  rfl

/-- New searches cannot be told from each other until the one with the tighter options
ends. -/
theorem create_agreesUntil (tighter : options.Tighter n options') (oracle : Oracle Id α n u)
    (box : Box α n) (fuel calls : Nat) (point : Array α) :
    AgreesUntil Indistinguishable (fun called => Parted options options' called.1)
      ((create n u box.boundCount options).transcript fuel oracle box calls point #[])
      ((create n u box.boundCount options').transcript fuel oracle box calls point #[]) := by
  obtain ⟨poised, view⟩ := create_poised n u box.boundCount tighter.radiusBegin point
  refine AgreesUntil.imp (poised.transcript tighter oracle.respects_eq fuel calls rfl
    fun _ : True => view) ?_ fun _ => id
  exact fun _ _ same => ⟨same.1, same.2.2 trivial⟩

/-- **All options but the radii only observe or truncate.**  Two runs of new searches are
compared that have the same radii, the same oracle, the same box and the same starting point.

If they may ask equally many questions, and both or neither have a strict check, then no call
can be told from the corresponding one.  If only the numbers of questions differ, and both
suffice for an initial simplex, then this is so for all calls before one that ends the run
with the smaller number because it has been reached.  If only one of the runs has a strict
check, this is so for all calls before one that ends that run because of rounding errors.
The verbosities may differ in any case. -/
theorem options_truncate (begins : options'.radiusBegin = options.radiusBegin)
    (ends : options'.radiusEnd = options.radiusEnd) (oracle : Oracle Id α n u) (box : Box α n)
    (fuel calls : Nat) (point : Array α) :
    let run (options : Options α) :=
      (create n u box.boundCount options).transcript fuel oracle box calls point #[]
    (options'.maxEvaluations = options.maxEvaluations →
      (options'.roundingCheck = .abort ↔ options.roundingCheck = .abort) →
      List.Forall₂ Indistinguishable (run options) (run options')) ∧
    (n + 1 ≤ options.maxEvaluations → options.maxEvaluations ≤ options'.maxEvaluations →
      (options'.roundingCheck = .abort ↔ options.roundingCheck = .abort) →
      AgreesUntil Indistinguishable
        (fun called => called.1.result = .ok (some .exhausted) ∧
          called.1.search.evaluations = options.maxEvaluations)
        (run options) (run options')) ∧
    (options'.maxEvaluations = options.maxEvaluations → options.roundingCheck = .abort →
      options'.roundingCheck ≠ .abort →
      AgreesUntil Indistinguishable
        (fun called => called.1.result = .ok (some .inaccurate))
        (run options) (run options')) := by
  intro run
  refine ⟨fun same check => ?observed, fun enough less check => ?limited,
    fun same strict lax => ?checked⟩
  case observed =>
    have tighter : options.Tighter n options' := ⟨begins, ends, .inl same, check.mp⟩
    refine (create_agreesUntil tighter oracle box fuel calls point).forall₂ ?_
    rintro called (⟨strict, lax, -⟩ | ⟨less, -, -⟩)
    · exact lax (check.mpr strict)
    · exact less.ne same.symm
  case limited =>
    have tighter : options.Tighter n options' := ⟨begins, ends, .inr ⟨enough, less⟩, check.mp⟩
    refine (create_agreesUntil tighter oracle box fuel calls point).imp (fun _ _ => id) ?_
    rintro called (⟨strict, lax, -⟩ | ⟨-, result, spent⟩)
    · exact absurd (check.mpr strict) lax
    · exact ⟨result, spent⟩
  case checked =>
    have tighter : options.Tighter n options' := ⟨begins, ends, .inl same, fun _ => strict⟩
    refine (create_agreesUntil tighter oracle box fuel calls point).imp (fun _ _ => id) ?_
    rintro called (⟨-, -, result⟩ | ⟨less, -, -⟩)
    · exact result
    · exact absurd same.symm less.ne

/-- Runs on the line with the reports of all evaluations and without any, with two and with
three evaluations, and with and without a strict check. -/
theorem options_truncate_on_line :
    let talkative : Options ℝ := { lineOptions with verbosity := .evaluations }
    let short : Options ℝ := { lineOptions with maxEvaluations := 2 }
    let long : Options ℝ := { lineOptions with maxEvaluations := 3 }
    let strict : Options ℝ := { lineOptions with roundingCheck := .abort }
    let oracle : Oracle Id ℝ 1 0 := fun x constraints => (constraints, .ok (x.get 0))
    let run (options : Options ℝ) :=
      (create 1 0 realLine.boundCount options).transcript 9 oracle realLine 4 #[0] #[]
    List.Forall₂ Indistinguishable (run lineOptions) (run talkative) ∧
      AgreesUntil Indistinguishable
        (fun called => called.1.result = .ok (some .exhausted) ∧
          called.1.search.evaluations = 2)
        (run short) (run long) ∧
      AgreesUntil Indistinguishable
        (fun called => called.1.result = .ok (some .inaccurate))
        (run strict) (run lineOptions) := by
  intro talkative short long strict oracle run
  obtain ⟨observed, -, -⟩ :=
    @options_truncate ℝ _ 1 0 lineOptions talkative rfl rfl oracle realLine 9 4 #[0]
  obtain ⟨-, limited, -⟩ :=
    @options_truncate ℝ _ 1 0 short long rfl rfl oracle realLine 9 4 #[0]
  obtain ⟨-, -, checked⟩ :=
    @options_truncate ℝ _ 1 0 strict lineOptions rfl rfl oracle realLine 9 4 #[0]
  exact ⟨observed rfl Iff.rfl, limited (Nat.le_refl 2) (Nat.le_succ 2) Iff.rfl,
    checked rfl rfl (by simp [lineOptions])⟩

end DerivativeFree.Search
