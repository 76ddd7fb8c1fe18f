import DerivativeFree.Interpolation.Replacement
import DerivativeFree.Search.Basic

/-!
# Taking the values of an evaluation

Once the values at a point are known, they go into the simplex.  The first `n + 1`
evaluations set the simplex up, one vertex after the other; later ones renew a vertex.
The values at a trial point are compared with those in the pole: the point replaces a
vertex if it is better than the pole or makes the simplex larger, and the radius is
reduced unless the reduction of the merit is a fair part of what was predicted.
-/

namespace DerivativeFree.Search

set_option autoImplicit false

variable {α : Type} [Scalar α] {n u b : Nat}

/-! ## A vertex -/

/-- The search with the values at a vertex put into its simplex. -/
def recordVertex (search : Search α n u b) (vertex : Vertex n) : Search α n u b :=
  let sample := search.evaluator.sample
  match vertex with
  | .pole => { search with simplex := search.simplex.setSample .pole sample }
  | .edge j =>
    if search.evaluations ≤ n + 1 then
      let (simplex, point) := search.simplex.insertInitial j sample search.point search.radius
      { search with simplex, point }
    else { search with simplex := search.simplex.setSample (.edge j) sample }

/-- The search after the values at a vertex have been found: the initial simplex goes on
with the next vertex, and a complete one with an iteration. -/
def answerVertex (search : Search α n u b) (vertex : Vertex n) : Search α n u b :=
  let recorded := search.recordVertex vertex
  if early : 0 < recorded.evaluations ∧ recorded.evaluations ≤ n then
    let j : Fin n := ⟨recorded.evaluations - 1, by omega⟩
    { recorded with
      point := recorded.point.set j (recorded.point.get j + recorded.radius) j.isLt
      phase := .evaluate (.vertex (.edge j)) }
  else { recorded with stepDue := true, phase := .iterate }

/-! ## A trial point -/

/-- The reduction of the merit by the last sample, and what was predicted for it.  While
the penalty is zero and the objective unchanged, it is the reduction of the violation. -/
def reductions (search : Search α n u b) (plan : Plan α n) : α × α :=
  let sample := search.evaluator.sample
  if search.penalty == 0 && sample.objective == search.objective then
    (search.violation - sample.violation, plan.violationReduction)
  else
    (search.simplex.poleSample.merit search.penalty - sample.merit search.penalty,
      plan.meritReduction)

/-- The search after the values at a trial point have been found. -/
def answerTrial (search : Search α n u b) (plan : Plan α n) : Search α n u b :=
  let sample := search.evaluator.sample
  let (reduction, predicted) := search.reductions plan
  let noted := search.note .debug
    (.tried sample.objective sample.violation reduction predicted)
  match search.simplex.replaced search.shape plan.step search.radius reduction with
  | none => { noted with phase := .reduce }
  | some j =>
    let phase := if 0 < reduction ∧ 0.1 * predicted ≤ reduction then .iterate else .reduce
    { noted with
      simplex := search.simplex.replaceVertex j plan.step sample
      phase := phase }.note .debug (.replaced j)

/-! ## Either -/

/-- The search with a report of the last sample, if the verbosity asks for it. -/
def reportSample (search : Search α n u b) : Search α n u b :=
  let verbosity := search.options.verbosity
  if verbosity = .evaluations ∨ verbosity = .radius ∧ search.evaluations = 1 then
    search.reportValues search.evaluator.sample.objective search.evaluator.sample.violation
      search.point
  else search

/-- The search after the values that it was waiting for have been found. -/
def answer (search : Search α n u b) (pending : Pending α n) : Search α n u b :=
  let reported := search.reportSample
  let answered := match pending with
    | .vertex vertex => reported.answerVertex vertex
    | .trial plan => reported.answerTrial plan
  answered.publish

end DerivativeFree.Search
