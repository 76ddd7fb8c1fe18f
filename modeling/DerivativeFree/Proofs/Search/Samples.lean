import DerivativeFree.Proofs.Interpolation.Vertices
import DerivativeFree.Proofs.Problem.Projection
import DerivativeFree.Proofs.Search.Inverse

/-!
# Samples and the points they belong to

The points of a simplex are displacements from a pole that moves, and a vertex can be moved
before its new values are known.  Even so every sample of a complete simplex has been found
by a question about the very point at which its vertex lies, and a question is always about
the point that its answer is meant for.  This is `Reached.sampled`, in exact arithmetic and
as long as no question has failed for another reason than a halt.
-/

namespace DerivativeFree

set_option autoImplicit false

variable {α : Type} [EuclideanField α] {n u : Nat} {box : Box α n}

/-! ## What a question explains -/

/-- The answer to a question is what a sample says about a point: the constraints of the
problem and then the residuals of the bounds, the objective, and the greatest violation. -/
structure Explains (box : Box α n) (inquiry : Inquiry α n u) (x : Vector α n)
    (sample : Sample α (u + box.boundCount)) : Prop where
  point : inquiry.point = x
  objective : inquiry.answer = .ok sample.objective
  constraints : sample.constraints.toList = inquiry.constraints.toList ++ box.residuals x
  violation : sample.violation = Sample.worstViolation sample.constraints

theorem explains_sampleAt (box : Box α n) (x : Vector α n) (constraints : Vector α u)
    (objective : α) (last : Sample α (u + box.boundCount)) :
    Explains box ⟨x, constraints, .ok objective⟩ x
      (Evaluator.sampleAt box x constraints objective last) where
  point := rfl
  objective := rfl
  constraints := by
    simp only [Evaluator.sampleAt, Vector.toList_append, Box.toList_writeResiduals]
  violation := rfl

theorem Explains.located {inquiry : Inquiry α n u} {x y : Vector α n}
    {sample : Sample α (u + box.boundCount)} (explains : Explains box inquiry x sample)
    (same : x = y) : Explains box inquiry y sample :=
  same ▸ explains

/-- The sample at a vertex has been found by a question about that vertex. -/
def Simplex.Sampled (box : Box α n) (record : Record α n u)
    (simplex : Simplex α n (u + box.boundCount)) (vertex : Vertex n) : Prop :=
  ∃ inquiry ∈ record, Explains box inquiry (simplex.point vertex) (simplex.sample vertex)

namespace Simplex.Sampled

variable {record : Record α n u} {simplex : Simplex α n (u + box.boundCount)}

theorem push {vertex : Vertex n} (sampled : simplex.Sampled box record vertex)
    (inquiry : Inquiry α n u) : simplex.Sampled box (record.push inquiry) vertex := by
  obtain ⟨earlier, asked, explains⟩ := sampled
  exact ⟨earlier, Array.mem_push.mpr (.inl asked), explains⟩

theorem selectPole (sampled : ∀ vertex, simplex.Sampled box record vertex) (penalty : α)
    (vertex : Vertex n) : (simplex.selectPole penalty).1.Sampled box record vertex := by
  rw [Simplex.selectPole]
  split
  case h_1 => exact sampled vertex
  case h_2 j _ =>
    rw [Sampled, point_promote, sample_promote]
    exact sampled _

theorem replaceEdge {j : Fin n} {vertex : Vertex n} (other : vertex ≠ .edge j)
    (sampled : simplex.Sampled box record vertex) (step : Vector α n) :
    (simplex.replaceEdge j step).Sampled box record vertex := by
  rw [Sampled, point_replaceEdge, if_neg other, sample_replaceEdge]
  exact sampled

/-- A vertex gets the sample that a new question has found there. -/
theorem setSample {vertex : Vertex n} {sample : Sample α (u + box.boundCount)}
    {inquiry : Inquiry α n u} (explains : Explains box inquiry (simplex.point vertex) sample)
    {other : Vertex n} (known : other ≠ vertex → simplex.Sampled box record other) :
    (simplex.setSample vertex sample).Sampled box (record.push inquiry) other := by
  rw [Sampled, point_setSample]
  by_cases own : other = vertex
  · rw [own, sample_setSample_self]
    exact ⟨inquiry, Array.mem_push_self, explains⟩
  · rw [sample_setSample_of_ne _ (Ne.symm own)]
    exact (known own).push inquiry

/-- The next vertex of an initial simplex gets its sample. -/
theorem insertInitial {size : α} {j : Fin n} (opening : simplex.Opening size j)
    {x : Vector α n} (located : x = simplex.point (.edge j))
    {sample : Sample α (u + box.boundCount)} {inquiry : Inquiry α n u}
    (explains : Explains box inquiry x sample)
    (known : ∀ other : Vertex n, other ≠ .edge j → other.UpTo j →
      simplex.Sampled box record other) {vertex : Vertex n} (upTo : vertex.UpTo j) :
    (simplex.insertInitial j sample x size).1.Sampled box (record.push inquiry) vertex := by
  obtain ⟨-, exchange, places⟩ := opening.insertInitial_vertices sample located
  obtain ⟨still, point, found⟩ := places vertex upTo
  rw [Sampled, point, found]
  by_cases own : exchange vertex = .edge j
  · rw [if_pos own, own]
    exact ⟨inquiry, Array.mem_push_self, explains.located located⟩
  · rw [if_neg own]
    exact (known _ own still).push inquiry

theorem replaceVertex {j : Fin n} {step : Vector α n} {sample : Sample α (u + box.boundCount)}
    {inquiry : Inquiry α n u} (sampled : ∀ vertex, simplex.Sampled box record vertex)
    (explains : Explains box inquiry (simplex.pole + step) sample) (vertex : Vertex n) :
    (simplex.replaceVertex j step sample).Sampled box (record.push inquiry) vertex := by
  have here : simplex.pole + step = (simplex.replaceEdge j step).point (.edge j) := by
    rw [point_replaceEdge, if_pos rfl]
  exact setSample (explains.located here) fun other => (sampled vertex).replaceEdge other step

end Simplex.Sampled

namespace Search

variable {record : Record α n u} {search next : Search α n u box.boundCount}

/-! ## The invariant -/

/-- What is known while an evaluation is pending: where its point lies, and which of the
samples belong to their vertices. -/
def Knows (record : Record α n u) (search : Search α n u box.boundCount) :
    Pending α n → Prop
  | .vertex .pole => search.evaluations = 0 ∧ search.point = search.simplex.pole
  | .vertex (.edge j) =>
    search.point = search.simplex.point (.edge j) ∧
      (search.evaluations = j + 1 ∨ n < search.evaluations) ∧
      search.simplex.Sampled box record .pole ∧
      ∀ k, k ≠ j → k < j ∨ n < search.evaluations → search.simplex.Sampled box record (.edge k)
  | .trial plan =>
    search.point = search.simplex.pole + plan.step ∧
      ∀ vertex, search.simplex.Sampled box record vertex

/-- What is known in each phase. -/
def Consistent (record : Record α n u) (search : Search α n u box.boundCount) : Prop :=
  match search.phase with
  | .start => search.evaluations = 0
  | .evaluate pending => search.Knows record pending
  | .iterate | .reduce => ∀ vertex, search.simplex.Sampled box record vertex
  | .done _ => True

theorem Alike.consistent {other : Search α n u box.boundCount} (alike : search.Alike other)
    (consistent : other.Consistent record) : search.Consistent record := by
  obtain ⟨journal, rfl⟩ := alike
  exact consistent

theorem Consistent.enter (consistent : search.Consistent record) {point : Array α}
    (entry : search.enter point = .ok next) : next.Consistent record := by
  rcases enter_eq entry with ⟨-, rfl⟩ | ⟨fresh, -, rfl⟩
  · exact consistent
  · simp only [Consistent, fresh] at consistent
    exact (alike_startAt ..).consistent ⟨consistent, rfl⟩

theorem Weighed.consistent {model : LinearModel α n (u + box.boundCount)} {step : Vector α n}
    (weighed : Weighed model search step next)
    (sampled : ∀ vertex, search.simplex.Sampled box record vertex) : next.Consistent record := by
  cases weighed with
  | trial _ alike => exact alike.consistent ⟨rfl, sampled⟩
  | raised _ _ alike => exact alike.consistent ⟨rfl, sampled⟩
  | dethroned _ _ alike => exact alike.consistent sampled

theorem Consistent.iterate (consistent : search.Consistent record) (late : n < search.evaluations)
    {fuel : Nat} (due : search.phase = .iterate) (found : search.iterate fuel = some next) :
    next.Consistent record := by
  simp only [Consistent, due] at consistent
  have sampled : ∀ vertex, search.surveyed.simplex.Sampled box record vertex :=
    Simplex.Sampled.selectPole consistent search.penalty
  cases iterate_outcome found with
  | spoilt _ _ alike => exact alike.consistent trivial
  | @move j _ alike =>
    refine alike.consistent ⟨rfl, .inr late, ?_, fun k other _ => ?_⟩
    · exact (sampled .pole).replaceEdge (by simp) _
    · exact (sampled (.edge k)).replaceEdge (by simpa using other) _
  | short _ _ _ alike => exact alike.consistent sampled
  | weigh journal _ _ weighed => exact weighed.consistent sampled

theorem Consistent.reduce (consistent : search.Consistent record)
    (due : search.phase = .reduce) : search.reduce.Consistent record := by
  simp only [Consistent, due] at consistent
  cases search.reduce_outcome with
  | spared _ alike => exact alike.consistent consistent
  | converged _ _ alike => exact alike.consistent trivial
  | shrunk _ _ alike => exact alike.consistent consistent

/-! ## Answers -/

/-- After the values at a vertex, the pole and the edges up to the number of evaluations
before have samples that belong to them, and an initial simplex goes on from its pole. -/
theorem Knows.recordVertex (sound : search.Sound) {vertex : Vertex n}
    (due : search.phase = .evaluate (.vertex vertex))
    (knows : search.Knows record (.vertex vertex)) (constraints : Vector α u) (objective : α) :
    let recorded := (search.informed box constraints objective).recordVertex vertex
    (∀ other : Vertex n, (∀ k, other = .edge k → k < search.evaluations) →
        recorded.simplex.Sampled box
          (record.push ⟨search.point, constraints, .ok objective⟩) other) ∧
      (search.evaluations ≤ n → recorded.point = recorded.simplex.pole) := by
  have explains := explains_sampleAt box search.point constraints objective
    search.evaluator.sample
  cases vertex with
  | pole =>
    obtain ⟨none, located⟩ := knows
    have here : search.point = search.simplex.point .pole := located
    refine ⟨fun other before => ?_, fun _ => located⟩
    refine Simplex.Sampled.setSample (explains.located here) fun different => ?_
    cases other with
    | pole => exact absurd rfl different
    | edge k => exact absurd (before k rfl) (none ▸ Nat.not_lt_zero k)
  | edge j =>
    obtain ⟨located, count, pole, others⟩ := knows
    by_cases few : search.evaluations ≤ n
    · have now : search.evaluations = j + 1 := count.resolve_right (not_lt.mpr few)
      have opening := (sound.ready.evaluate due).2.2 few
      have early : (search.informed box constraints objective).evaluations ≤ n + 1 :=
        Nat.succ_le_succ few
      rw [recordVertex_early early]
      refine ⟨fun other before => ?_, fun _ => (opening.insertInitial_vertices _ located).1⟩
      refine Simplex.Sampled.insertInitial opening located explains (fun known own upTo => ?_)
        fun k edge => Nat.lt_succ_iff.mp ((before k edge).trans_eq now)
      cases known with
      | pole => exact pole
      | edge k =>
        have different : k ≠ j := by simpa using own
        exact others k different (.inl (lt_of_le_of_ne (upTo k rfl) different))
    · have late : ¬ (search.informed box constraints objective).evaluations ≤ n + 1 :=
        fun early => few (Nat.le_of_succ_le_succ early)
      rw [recordVertex_late late]
      refine ⟨fun other _ => ?_, fun early => absurd early few⟩
      refine Simplex.Sampled.setSample (explains.located located) fun own => ?_
      cases other with
      | pole => exact pole
      | edge k => exact others k (by simpa using own) (.inr (not_le.mp few))

theorem Continued.consistent {recorded : Search α n u box.boundCount}
    (continued : Continued recorded next) (counted : recorded.evaluations ≠ 0)
    (sampled : ∀ other : Vertex n, (∀ k, other = .edge k → k + 1 < recorded.evaluations) →
      recorded.simplex.Sampled box record other)
    (located : ∀ j : Fin n, j.val + 1 = recorded.evaluations →
      recorded.point = recorded.simplex.pole ∧
        recorded.simplex.Opening recorded.radius j) : next.Consistent record := by
  cases continued with
  | vertex j early alike =>
    obtain ⟨pole, opening⟩ := located j early
    refine alike.consistent ⟨?_, .inl early.symm, sampled _ nofun, fun k _ before => ?_⟩
    · exact pole ▸ opening.point_next.symm
    · have now : recorded.evaluations = j + 1 := early.symm
      have few : ¬ n < recorded.evaluations := not_lt.mpr (now ▸ j.isLt)
      have earlier : k < j := before.resolve_right few
      refine sampled _ fun i same => ?_
      rw [← Vertex.edge.inj same, now]
      exact Nat.succ_lt_succ earlier
  | complete late alike =>
    refine alike.consistent fun vertex => sampled vertex fun k _ => ?_
    have many := late.resolve_left counted
    omega

theorem Consistent.answer (consistent : search.Consistent record) (sound : search.Sound)
    {pending : Pending α n} (due : search.phase = .evaluate pending)
    (constraints : Vector α u) (objective : α) :
    ((search.informed box constraints objective).answer pending).Consistent
      (record.push ⟨search.point, constraints, .ok objective⟩) := by
  have knows : search.Knows record pending := by simpa only [Consistent, due] using consistent
  have explains := explains_sampleAt box search.point constraints objective
    search.evaluator.sample
  cases pending with
  | vertex vertex =>
    obtain ⟨sampled, located⟩ := knows.recordVertex sound due constraints objective
    obtain ⟨-, opening⟩ :=
      sound.recordVertex due (search.informed box constraints objective) rfl rfl rfl
    obtain ⟨simplex, point, frame⟩ :=
      recordVertex_frame (search.informed box constraints objective) vertex
    have counted : ((search.informed box constraints objective).recordVertex vertex).evaluations =
        search.evaluations + 1 := by rw [frame]; rfl
    have radius : ((search.informed box constraints objective).recordVertex vertex).radius =
        search.radius := by rw [frame]; rfl
    refine (answer_vertex_outcome _ vertex).consistent (counted ▸ Nat.succ_ne_zero _)
      (fun other before => sampled other fun k edge => ?_) fun j early => ?_
    · exact Nat.lt_of_succ_lt_succ ((before k edge).trans_eq counted)
    · have now : j.val = search.evaluations := Nat.succ.inj (early.trans counted)
      have few : search.evaluations ≤ n := now ▸ j.isLt.le
      rw [radius, now]
      exact ⟨located few, opening few⟩
  | trial plan =>
    obtain ⟨located, sampled⟩ := knows
    cases answer_trial_outcome (search.informed box constraints objective) plan with
    | dropped _ alike => exact alike.consistent fun vertex => (sampled vertex).push _
    | @taken j _ alike =>
      have all := fun vertex : Vertex n =>
        Simplex.Sampled.replaceVertex (j := j) sampled (explains.located located) vertex
      refine alike.consistent ?_
      split
      · exact all
      · exact all

/-- A question that fails is one more question and leaves the rest as it is. -/
theorem Consistent.counted (consistent : search.Consistent record) {pending : Pending α n}
    (due : search.phase = .evaluate pending) (late : n < search.evaluations)
    (constraints : Vector α u) (inquiry : Inquiry α n u) :
    (search.counted constraints).Consistent (record.push inquiry) := by
  have knows : search.Knows record pending := by simpa only [Consistent, due] using consistent
  have phase : (search.counted constraints).phase = .evaluate pending := due
  simp only [Consistent, phase]
  cases pending with
  | vertex vertex =>
    cases vertex with
    | pole => exact absurd late (knows.1 ▸ Nat.not_lt_zero n)
    | edge j =>
      obtain ⟨located, -, pole, others⟩ := knows
      refine ⟨located, .inr (Nat.lt_succ_of_lt late), pole.push inquiry, fun k other _ => ?_⟩
      exact (others k other (.inr late)).push inquiry
  | trial plan =>
    obtain ⟨located, sampled⟩ := knows
    exact ⟨located, fun vertex => (sampled vertex).push inquiry⟩

/-! ## Reached states -/

/-- None of the questions about an initial simplex has failed for another reason than a halt. -/
def OpensWell (n : Nat) (record : Record α n u) : Prop :=
  ∀ i ≤ n, ∀ inquiry error, record[i]? = some inquiry → inquiry.answer = .error error →
    error = .halt

omit [EuclideanField α] in
theorem OpensWell.of_push {inquiry : Inquiry α n u} (opens : OpensWell n (record.push inquiry)) :
    OpensWell n record := by
  intro i few earlier error asked failed
  have inside : i < record.size := (Array.getElem?_eq_some_iff.mp asked).1
  refine opens i few earlier error ?_ failed
  rw [Array.getElem?_push, if_neg inside.ne, asked]

omit [EuclideanField α] in
/-- A question that is not about the initial simplex may fail. -/
theorem OpensWell.push (opens : OpensWell n record) (late : n < record.size)
    (inquiry : Inquiry α n u) : OpensWell n (record.push inquiry) := by
  intro i few earlier error asked
  rw [Array.getElem?_push, if_neg (few.trans_lt late).ne] at asked
  exact opens i few earlier error asked

omit [EuclideanField α] in
theorem opensWell_of_clean
    (clean : ∀ inquiry ∈ record, ∀ error, inquiry.answer = .error error → error = .halt) :
    OpensWell n record :=
  fun _ _ inquiry error asked => clean inquiry (Array.mem_of_getElem? asked) error

/-- **Every reached state is consistent**, unless a question about the initial simplex has
failed. -/
theorem Reached.consistent_of_opensWell {options : Options α}
    (reached : Reached options box record search) (opens : OpensWell n record) :
    search.Consistent record := by
  induction reached with
  | create => rfl
  | enter _ _ entry ih => exact (ih opens).enter entry
  | iterate _ reached due found ih =>
    have ready := reached.sound.ready
    simp only [Ready, due] at ready
    exact (ih opens).iterate ready.2 due found
  | reduce _ due ih => exact (ih opens).reduce due
  | exhaust => exact (alike_finish ..).consistent trivial
  | answer constraints objective reached due _ ih =>
    exact (ih opens.of_push).answer reached.sound due constraints objective
  | halt => exact (alike_halted ..).consistent trivial
  | @fail record search _ constraints error other reached due _ ih =>
    have late : n < search.evaluations := by
      by_contra few
      refine other (opens search.evaluations (not_lt.mp few)
        ⟨search.point, constraints, .error error⟩ error ?_ rfl)
      rw [← reached.size_record, Array.getElem?_push_size]
    exact (ih opens.of_push).counted due late constraints _
  | reset => rfl

theorem Reached.consistent {options : Options α} (reached : Reached options box record search)
    (clean : ∀ inquiry ∈ record, ∀ error, inquiry.answer = .error error → error = .halt) :
    search.Consistent record :=
  reached.consistent_of_opensWell (opensWell_of_clean clean)

/-- **The samples of a complete simplex belong to the points of its vertices**: each of them
has been found by a question about the very point.  A pending question is about the point
of the vertex that is waiting for it, or about the point at the planned step from the pole. -/
theorem Reached.sampled {options : Options α} (reached : Reached options box record search)
    (clean : ∀ inquiry ∈ record, ∀ error, inquiry.answer = .error error → error = .halt) :
    (search.phase = .iterate → ∀ vertex, search.simplex.Sampled box record vertex) ∧
      (∀ vertex, search.phase = .evaluate (.vertex vertex) →
        search.point = search.simplex.point vertex) ∧
      ∀ plan, search.phase = .evaluate (.trial plan) →
        search.point = search.simplex.pole + plan.step := by
  have consistent := reached.consistent clean
  refine ⟨fun due => ?_, fun vertex due => ?_, fun plan due => ?_⟩
  · simpa only [Consistent, due] using consistent
  · simp only [Consistent, due] at consistent
    cases vertex with
    | pole => exact consistent.2
    | edge j => exact consistent.1
  · simp only [Consistent, due] at consistent
    exact consistent.1

theorem sampled_on_line :
    ∃ (record : Record ℝ 1 0) (search : Search ℝ 1 0 realLine.boundCount),
      Reached lineOptions realLine record search ∧
        (∀ inquiry ∈ record, ∀ error, inquiry.answer = .error error → error = .halt) ∧
        search.phase = .iterate ∧ ∀ vertex, search.simplex.Sampled realLine record vertex := by
  obtain ⟨record, search, reached, due, answers⟩ :
      ∃ (record : Record ℝ 1 0) (search : Search ℝ 1 0 realLine.boundCount),
        Reached lineOptions realLine record search ∧ search.phase = .iterate ∧
          ∀ inquiry ∈ record, inquiry.answer = .ok 0 := reached_on_line
  have clean := clean_of_answered fun inquiry asked => ⟨0, answers inquiry asked⟩
  exact ⟨record, search, reached, clean, due, (reached.sampled clean).1 due⟩

end Search

end DerivativeFree
