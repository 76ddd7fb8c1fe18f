import DerivativeFree.Proofs.Search.Bounds
import DerivativeFree.Proofs.Search.Truncation

/-!
# Translated runs

The run for a problem that has been translated is the translated run (`transcript_translated`):
the objective and the constraints are taken at points shifted back, the bounds and the starting
point are shifted, and then every point that is asked about and every point that is handed out
is shifted, and nothing else changes.

The run in the box is recast as a translated run without bounds, and so is the run in the
translated box, without moving it.  This leaves two runs with the same oracle and the same
starting point.  They differ only in what the searches held before they started, which has no
say in anything but the best point that is shown before there is one.
-/

namespace DerivativeFree

set_option autoImplicit false

variable {α : Type} {n u b : Nat}

/-! ## Translated problems -/

section Problem

variable [EuclideanField α]

/-- The box with all its bounds shifted. -/
def Box.translated (box : Box α n) (offset : Vector α n) : Box α n where
  lower := Vector.ofFn fun i => (box.lower.get i).map (· + offset.get i)
  upper := Vector.ofFn fun i => (box.upper.get i).map (· + offset.get i)
  positive := box.positive
  ordered := by
    intro i l lower u upper
    simp only [get_eq_getElem, Vector.getElem_ofFn, Option.mem_def, Option.map_eq_some_iff]
      at lower upper
    obtain ⟨l, given, rfl⟩ := lower
    obtain ⟨u, given', rfl⟩ := upper
    exact add_le_add_left (box.ordered i l given u given') _

/-- The oracle whose values at a shifted point are those of the given one at the point. -/
def Oracle.translated (oracle : Oracle Id α n u) (offset : Vector α n) : Oracle Id α n u :=
  fun x constraints => oracle (x - offset) constraints

theorem Box.distance_translated (bound : Option α) (offset : α) (inwards inwards' : α → α)
    (same : ∀ a, inwards' (a + offset) = inwards a) :
    distance (bound.map (· + offset)) inwards' = distance bound inwards := by
  cases bound with
  | none => rfl
  | some bound => simp [distance, same]

theorem Box.residuals_translated (box : Box α n) (offset x : Vector α n) :
    (box.translated offset).residuals x = box.residuals (x - offset) := by
  have lower : ∀ i, (box.translated offset).lower.get i =
      (box.lower.get i).map (· + offset.get i) := by
    simp [translated, get_eq_getElem]
  have upper : ∀ i, (box.translated offset).upper.get i =
      (box.upper.get i).map (· + offset.get i) := by
    simp [translated, get_eq_getElem]
  simp only [residuals_eq_distances, distances, lower, upper, get_sub]
  congr 1
  · refine congrArg (List.flatMap · _) (funext fun i => ?_)
    exact distance_translated _ _ _ _ fun a => by ring
  · refine congrArg (List.flatMap · _) (funext fun i => ?_)
    exact distance_translated _ _ _ _ fun a => by ring

theorem Box.boundCount_translated (box : Box α n) (offset : Vector α n) :
    (box.translated offset).boundCount = box.boundCount := by
  rw [← length_residuals (box.translated offset) 0, residuals_translated, length_residuals]

/-- The translated oracle with the bounds spells out the translated run. -/
theorem Oracle.translated_spellsOut (oracle : Oracle Id α n u) (box : Box α n)
    (offset : Vector α n) :
    oracle.SpellsOut (.translation offset) box ((oracle.withBounds box).translated offset) ∧
      (oracle.translated offset).SpellsOut (.still α n) (box.translated offset)
        ((oracle.withBounds box).translated offset) := by
  have spells := oracle.withBounds_spellsOut box
  constructor
  · intro x constraints values
    have back : x + offset - offset = x := vector_ext fun i => by simp
    have here := spells x constraints values
    rw [Motion.move_still] at here
    rw [Motion.move_translation, translated, back]
    exact here
  · intro x constraints values
    have here := spells (x - offset) constraints values
    rw [Motion.move_still] at here
    rw [Motion.move_still, translated, Box.residuals_translated]
    exact here

end Problem

/-! ## Runs that begin differently -/

/-- Lists are related entry by entry if lists that they are related to are. -/
theorem forall₂_square {β γ δ ε : Type} {R : β → γ → Prop} {S : δ → ε → Prop} {T : γ → ε → Prop}
    {Q : β → δ → Prop} {xs : List β} {ys : List γ} {xs' : List δ} {ys' : List ε}
    (first : List.Forall₂ R xs ys) (second : List.Forall₂ S xs' ys')
    (across : List.Forall₂ T ys ys')
    (closes : ∀ {x y x' y'}, R x y → S x' y' → T y y' → Q x x') : List.Forall₂ Q xs xs' := by
  induction first generalizing xs' ys' with
  | nil =>
    cases across
    cases second
    exact .nil
  | cons here _ ih =>
    cases across with
    | cons between onwards =>
      cases second with
      | cons there others => exact .cons (closes here there between) (ih others onwards)

/-- What is seen but for the best point. -/
def View.unpublished [Scalar α] (view : View α n) : View α n :=
  { view with best := 0 }

namespace Search

section Beginnings

variable [Scalar α] {Related : Vector α u → Vector α u → Prop} {tight loose : Options α}
  {point : Array α} {box : Box α n} {record record' : Record α n u} {oracle : Oracle Id α n u}

theorem Abreast.unpublished {search other : Search α n u b}
    (abreast : Abreast Related tight loose search other) :
    other.view.unpublished = search.view.unpublished := by
  have seen : view { other with best := search.best } = search.view :=
    view_eq abreast.same abreast.paired.count rfl
  exact (congrArg View.unpublished seen :)

/-- A call of poised searches shows the same but for the best point, if this was so before. -/
theorem InStep.unpublished {search other : Search α n u box.boundCount} {fuel : Nat}
    {before : Prop}
    (instep : InStep Related tight loose before
      ((search.next fuel oracle.recorded box point).run record)
      ((other.next fuel oracle.recorded box point).run record'))
    (held : other.view.unpublished = search.view.unpublished) :
    ((other.next fuel oracle.recorded box point).run record').1.search.view.unpublished =
      ((search.next fuel oracle.recorded box point).run record).1.search.view.unpublished := by
  cases instep.poised with
  | underway abreast => exact abreast.unpublished
  | fresh _ due due' =>
    have here : ((search.next fuel oracle.recorded box point).run record).1.search = search :=
      next_unstarted rfl due
    have there : ((other.next fuel oracle.recorded box point).run record').1.search = other :=
      next_unstarted rfl due'
    rw [here, there]
    exact held

/-- Searches with the same options that have not started make the same calls, whatever point
they have published before. -/
theorem Poised.transcript_unpublished {options : Options α} (sized : box.boundCount = b)
    {search other : Search α n u b} (poised : Poised Eq options options point search other)
    (held : other.view.unpublished = search.view.unpublished) (fuel calls : Nat)
    (questions : record'.map Inquiry.shown = record.map Inquiry.shown) :
    List.Forall₂ (fun called called' => SameOutcome called called' ∧
        called'.1.search.view.unpublished = called.1.search.view.unpublished ∧
        ∀ status, called.1.result = .ok status →
          called'.1.search.best = called.1.search.best)
      (search.transcript fuel oracle box calls point record)
      (other.transcript fuel oracle box calls point record') := by
  subst sized
  induction calls generalizing search other point record record' with
  | zero => exact .nil
  | succ calls ih =>
    have instep := (poised.next (.refl options) oracle.respects_eq fuel questions).resolve_right ?_
    case refine_1 =>
      rintro (⟨strict, lax, -⟩ | ⟨less, -, -⟩)
      · exact lax strict
      · exact lt_irrefl _ less
    have seen := instep.unpublished held
    refine .cons ⟨instep.outcome, seen, fun status result =>
      congrArg View.best (instep.succeeded status result)⟩ ?_
    rw [instep.outcome.point]
    exact ih instep.outcome.questions instep.poised seen

end Beginnings

/-! ## Translated runs -/

variable [EuclideanField α]

/-- The second call is the first one translated: it has the same result, it hands out the
shifted point, it has asked about the shifted points and got the same answers, and an observer
is shown the same values afterwards, and the shifted best point if the call succeeds. -/
structure Translated {b' : Nat} (offset : Vector α n) (called : Step α n u b × Record α n u)
    (called' : Step α n u b' × Record α n u) : Prop where
  result : called'.1.result = called.1.result
  point : called'.1.point = (Motion.translation offset).moveArray called.1.point
  questions : called'.2.toList.map Inquiry.shown = called.2.toList.map fun inquiry =>
    (inquiry.point + offset, inquiry.shown.2)
  unpublished : called'.1.search.view.unpublished = called.1.search.view.unpublished
  best : ∀ status, called.1.result = .ok status →
    called'.1.search.best = called.1.search.best + offset

/-- Questions with the same answers, spelt out by one oracle, have the same answers. -/
theorem shown_of_speltOut {motion motion' : Motion α n} {box box' : Box α n}
    {inquiry inquiry' : Inquiry α n u} {spelt spelt' : Inquiry α n (u + b)}
    (first : inquiry.SpeltOut motion box spelt) (second : inquiry'.SpeltOut motion' box' spelt')
    (across : spelt'.shown = spelt.shown) : inquiry'.shown.2 = inquiry.shown.2 := by
  obtain ⟨-, answers⟩ := Prod.mk.inj across
  simp only [Inquiry.shown]
  rw [second.answer, first.answer] at answers
  cases here : inquiry.answer with
  | error error =>
    cases there : inquiry'.answer with
    | error error' =>
      rw [here, there] at answers
      obtain rfl := Except.error.inj answers
      rfl
    | ok objective' =>
      rw [here, there] at answers
      cases answers
  | ok objective =>
    cases there : inquiry'.answer with
    | error error' =>
      rw [here, there] at answers
      cases answers
    | ok objective' =>
      rw [here, there] at answers
      obtain ⟨rfl, values⟩ := Prod.mk.inj (Except.ok.inj answers)
      have entries := congrArg Vector.toList values
      rw [second.constraints, first.constraints] at entries
      obtain ⟨same, -⟩ := List.append_inj entries (by simp)
      rw [Vector.toList_inj.mp same]

/-- What is asked in two runs that are spelt out by the same questions. -/
theorem shown_translated {offset : Vector α n} {box box' : Box α n} {record record' : Record α n u}
    {bare bare' : Record α n (u + b)} (first : SpeltOut (.translation offset) box record bare)
    (second : SpeltOut (.still α n) box' record' bare')
    (across : bare'.map Inquiry.shown = bare.map Inquiry.shown) :
    record'.toList.map Inquiry.shown = record.toList.map fun inquiry =>
      (inquiry.point + offset, inquiry.shown.2) := by
  have asked := congrArg Array.toList across.symm
  rw [Array.toList_map, Array.toList_map, ← List.forall₂_eq_eq_eq, List.forall₂_map_left_iff,
    List.forall₂_map_right_iff] at asked
  symm
  rw [← List.forall₂_eq_eq_eq, List.forall₂_map_left_iff, List.forall₂_map_right_iff]
  refine forall₂_square first second asked fun spelt spelt' across => Prod.ext ?_ ?_
  · have point := congrArg Prod.fst across
    simp only [Inquiry.shown, spelt.point, spelt'.point, Motion.move_still,
      Motion.move_translation] at point
    exact point
  · exact (shown_of_speltOut spelt spelt' across.symm).symm

/-- Calls that are recast as calls without bounds with the same outcome are translations of
each other. -/
theorem Translated.of_recast {offset : Vector α n} {box box' : Box α n}
    {called called' : Step α n u b × Record α n u}
    {bare bare' : Step α n (u + b) 0 × Record α n (u + b)}
    (first : Recast (.translation offset) called.1 bare.1 ∧
      SpeltOut (.translation offset) box called.2 bare.2)
    (second : Recast (.still α n) called'.1 bare'.1 ∧
      SpeltOut (.still α n) box' called'.2 bare'.2)
    (across : SameOutcome bare bare' ∧
      bare'.1.search.view.unpublished = bare.1.search.view.unpublished ∧
      ∀ status, bare.1.result = .ok status → bare'.1.search.best = bare.1.search.best) :
    Translated offset called called' := by
  obtain ⟨⟨⟨values, search⟩, point, result⟩, questions⟩ := first
  obtain ⟨⟨⟨values', search'⟩, point', result'⟩, questions'⟩ := second
  obtain ⟨outcome, unpublished, best⟩ := across
  rw [Motion.moveArray_still] at point'
  rw [search, search', view_recast, view_recast] at unpublished
  exact {
    result := by rw [← result', outcome.result, result]
    point := by rw [← point', outcome.point, point]
    questions := shown_translated questions questions' outcome.questions
    unpublished := unpublished
    best := by
      intro status ended
      have same := best status (result.trans ended)
      rw [search, search'] at same
      simp only [recast, Motion.move_still, Motion.move_translation] at same
      exact same }

/-- **Translation equivariance.**  The run for a translated problem is the translated run, call
by call: as long as a caller goes on with the point that has been handed out, it has the same
results, and is shown the same values. -/
theorem transcript_translated (options : Options α) (box : Box α n) (oracle : Oracle Id α n u)
    (offset : Vector α n) (fuel calls : Nat) (point : Array α) :
    List.Forall₂ (Translated offset)
      ((create n u box.boundCount options).transcript fuel oracle box calls point #[])
      ((create n u (box.translated offset).boundCount options).transcript fuel
        (oracle.translated offset) (box.translated offset) calls
        ((Motion.translation offset).moveArray point) #[]) := by
  -- The number of bounds is the same, but for the types of the searches this has to be said.
  suffices ∀ b, b = box.boundCount → List.Forall₂ (Translated offset)
      ((create n u box.boundCount options).transcript fuel oracle box calls point #[])
      ((create n u b options).transcript fuel (oracle.translated offset) (box.translated offset)
        calls ((Motion.translation offset).moveArray point) #[]) from
    this _ (box.boundCount_translated offset)
  rintro b rfl
  obtain ⟨spells, spells'⟩ := oracle.translated_spellsOut box offset
  have first := transcript_recast spells 0 (create n u box.boundCount options) fuel calls point
    (speltOut_empty ..)
  have second := transcript_recast spells' 0 (create n u box.boundCount options) fuel calls
    ((Motion.translation offset).moveArray point) (speltOut_empty ..)
  rw [Motion.moveArray_still] at second
  have poised : Poised Eq options options ((Motion.translation offset).moveArray point)
      ((create n u box.boundCount options).recast (.translation offset) 0)
      ((create n u box.boundCount options).recast (.still α n) 0) := .fresh {
    given := rfl
    given' := rfl
    limit := rfl
    limit' := rfl
    count := rfl
    within := Nat.zero_le _
    buffers := rfl
    published := fun _ ended => by cases ended
    published' := fun _ ended => by cases ended } rfl rfl rfl
  exact forall₂_square first second
    (poised.transcript_unpublished (Box.boundCount_unbounded box.positive) rfl fuel calls rfl)
    .of_recast

end Search

end DerivativeFree
