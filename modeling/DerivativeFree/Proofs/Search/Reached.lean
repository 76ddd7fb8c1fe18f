import DerivativeFree.Problem.Record
import DerivativeFree.Search.Next

/-!
# The states that a search reaches

A caller makes steps with `next`, with any oracle and any point each time, and may `reset`
the search in between.  `Reached` collects all the states that the search passes through,
those inside a step included, each with the record of the questions that have been asked
since it was last reset.  Whatever the oracle may do is in the answers: values, a halt or
another error, at every single question.

Inside a step the search makes turns: iterations and reductions, as its phase tells.  What
every turn keeps is kept by the loop (`settle_keeps`).

A property of all reached states is proved by induction, with one case for each thing that
a search does.  `Reached.next` says that nothing is missing: a step from a reached state
leads to a reached state, and its record is the record that the oracle has kept.
-/

namespace DerivativeFree

set_option autoImplicit false

variable {α : Type} {n u b : Nat}

/-- The question about a point, with the answer of an oracle. -/
def Oracle.inquire (oracle : Oracle Id α n u) (x : Vector α n) (constraints : Vector α u) :
    Inquiry α n u :=
  ⟨x, (oracle x constraints).1, (oracle x constraints).2⟩

/-- A record of values has no failure in it. -/
theorem clean_of_answered {record : Record α n u}
    (answered : ∀ inquiry ∈ record, ∃ value, inquiry.answer = .ok value) :
    ∀ inquiry ∈ record, ∀ error, inquiry.answer = .error error → error = .halt := by
  intro inquiry asked error failed
  obtain ⟨value, known⟩ := answered inquiry asked
  rw [known] at failed
  cases failed

namespace Search

variable [Scalar α]

/-! ## One question -/

/-- The search after a question, whose answer has left the given constraints. -/
def counted (search : Search α n u b) (constraints : Vector α u) : Search α n u b :=
  { search with
    evaluator := { search.evaluator with
      buffer := constraints
      evaluations := search.evaluator.evaluations + 1 } }

/-- The search after a question that was answered with values. -/
def informed (box : Box α n) (search : Search α n u b) (constraints : Vector α u)
    (objective : α) : Search α n u b :=
  { search with
    evaluator := { search.evaluator with
      buffer := constraints
      sample := Evaluator.sampleAt box search.point constraints objective search.evaluator.sample
      evaluations := search.evaluator.evaluations + 1 } }

/-- The search ended by a halt. -/
def halted (search : Search α n u b) (constraints : Vector α u) : Search α n u b :=
  ((search.counted constraints).note .debug .halted).finish .exhausted

/-- The step that a question leads to. -/
def asked (box : Box α n) (search : Search α n u b) (pending : Pending α n) (point : Array α)
    (inquiry : Inquiry α n u) : Step α n u b :=
  match inquiry.answer with
  | .ok objective =>
    ((search.informed box inquiry.constraints objective).answer pending).handOut point none
  | .error .halt => (search.halted inquiry.constraints).handOut point (some .exhausted)
  | .error error => ⟨search.counted inquiry.constraints, point, .error (.evaluation error)⟩

@[simp]
theorem search_handOut (search : Search α n u b) (point : Array α) (result : Option Status) :
    (search.handOut point result).search = search := by
  unfold handOut
  split <;> rfl

theorem run_ask (oracle : Oracle Id α n u) (box : Box α n) (search : Search α n u b)
    (pending : Pending α n) (point : Array α) (record : Record α n u) :
    (search.ask oracle.recorded box pending point).run record =
      if search.evaluator.limit ≤ search.evaluator.evaluations then
        ((search.finish .exhausted).handOut point (some .exhausted), record)
      else
        let inquiry := oracle.inquire search.point search.evaluator.buffer
        (search.asked box pending point inquiry, record.push inquiry) := by
  unfold ask Evaluator.evaluate
  split
  case isTrue => rfl
  case isFalse =>
    rcases answered : oracle search.point search.evaluator.buffer with ⟨constraints, answer⟩
    have asks : (oracle.recorded search.point search.evaluator.buffer).run record =
        ((constraints, answer), record.push ⟨search.point, constraints, answer⟩) := by
      rw [Oracle.run_recorded, answered]
    cases answer with
    | ok objective =>
      simp only [bind_assoc, StateT.run_bind, asks, Oracle.inquire, asked, answered]
      rfl
    | error error =>
      simp only [bind_assoc, StateT.run_bind, asks, Oracle.inquire, asked, answered]
      cases error <;> rfl

/-! ## The loop between two questions -/

section Loop

variable {fuel turns : Nat} {search next settled : Search α n u b}

/-- A turn of the loop. -/
inductive Turned (fuel : Nat) (search : Search α n u b) : Search α n u b → Prop
  /-- An iteration. -/
  | iterate {next : Search α n u b} (due : search.phase = .iterate)
      (found : search.iterate fuel = some next) : Turned fuel search next
  /-- A reduction of the radius. -/
  | reduce (due : search.phase = .reduce) : Turned fuel search search.reduce

theorem Turned.settle (turned : Turned fuel search next) (turns : Nat) :
    search.settle fuel (turns + 1) = next.settle fuel turns := by
  cases turned with
  | iterate due found => simp only [Search.settle, due, found]
  | reduce due => simp only [Search.settle, due]

/-- A search at rest makes no turn. -/
theorem settle_of_rest (rests : search.phase ≠ .iterate ∧ search.phase ≠ .reduce) (fuel : Nat)
    (turns : Nat) : search.settle fuel (turns + 1) = some search := by
  unfold Search.settle
  split
  case h_1 due => exact absurd due rests.1
  case h_2 due => exact absurd due rests.2
  all_goals rfl

/-- What every turn keeps is kept by the loop. -/
theorem settle_keeps {Kept : Search α n u b → Prop}
    (keeps : ∀ {search next : Search α n u b}, Turned fuel search next → Kept search → Kept next)
    (kept : Kept search) (found : search.settle fuel turns = some settled) : Kept settled := by
  induction turns generalizing search with
  | zero => cases found
  | succ turns ih =>
    unfold Search.settle at found
    split at found
    case h_1 due =>
      split at found
      case h_1 next iterated => exact ih (keeps (.iterate due iterated) kept) found
      case h_2 => cases found
    case h_2 due => exact ih (keeps (.reduce due) kept) found
    all_goals
      cases found
      exact kept

theorem settle_rests (found : search.settle fuel turns = some settled) :
    settled.phase ≠ .iterate ∧ settled.phase ≠ .reduce := by
  induction turns generalizing search with
  | zero => cases found
  | succ turns ih =>
    unfold Search.settle at found
    split at found
    case h_1 =>
      split at found
      case h_1 next iterated => exact ih found
      case h_2 => cases found
    case h_2 => exact ih found
    all_goals
      rename_i due
      cases found
      simp [due]

end Loop

/-! ## Reached states -/

/-- The states that a search with the given options reaches in a box, with the questions
that have been asked since it was last reset. -/
inductive Reached (options : Options α) (box : Box α n) :
    Record α n u → Search α n u b → Prop
  /-- The search as it is created. -/
  | create : Reached options box #[] (create n u b options)
  /-- A step begins, and starts the search if it has not started yet. -/
  | enter {record : Record α n u} {search entered : Search α n u b} (point : Array α)
      (reached : Reached options box record search)
      (entry : search.enter point = .ok entered) : Reached options box record entered
  /-- An iteration. -/
  | iterate {record : Record α n u} {search next : Search α n u b} (fuel : Nat)
      (reached : Reached options box record search) (due : search.phase = .iterate)
      (found : search.iterate fuel = some next) : Reached options box record next
  /-- A reduction of the radius. -/
  | reduce {record : Record α n u} {search : Search α n u b}
      (reached : Reached options box record search) (due : search.phase = .reduce) :
      Reached options box record search.reduce
  /-- The evaluations are used up. -/
  | exhaust {record : Record α n u} {search : Search α n u b} {pending : Pending α n}
      (reached : Reached options box record search) (due : search.phase = .evaluate pending)
      (spent : search.evaluator.limit ≤ search.evaluator.evaluations) :
      Reached options box record (search.finish .exhausted)
  /-- A question is answered with values. -/
  | answer {record : Record α n u} {search : Search α n u b} {pending : Pending α n}
      (constraints : Vector α u) (objective : α)
      (reached : Reached options box record search) (due : search.phase = .evaluate pending)
      (allowed : search.evaluator.evaluations < search.evaluator.limit) :
      Reached options box (record.push ⟨search.point, constraints, .ok objective⟩)
        ((search.informed box constraints objective).answer pending)
  /-- A question is answered with a halt. -/
  | halt {record : Record α n u} {search : Search α n u b} {pending : Pending α n}
      (constraints : Vector α u)
      (reached : Reached options box record search) (due : search.phase = .evaluate pending)
      (allowed : search.evaluator.evaluations < search.evaluator.limit) :
      Reached options box (record.push ⟨search.point, constraints, .error .halt⟩)
        (search.halted constraints)
  /-- A question is answered with another error. -/
  | fail {record : Record α n u} {search : Search α n u b} {pending : Pending α n}
      (constraints : Vector α u) (error : EvalError) (other : error ≠ .halt)
      (reached : Reached options box record search) (due : search.phase = .evaluate pending)
      (allowed : search.evaluator.evaluations < search.evaluator.limit) :
      Reached options box (record.push ⟨search.point, constraints, .error error⟩)
        (search.counted constraints)
  /-- The search is reset. -/
  | reset {record : Record α n u} {search : Search α n u b}
      (reached : Reached options box record search) : Reached options box #[] search.reset

namespace Reached

variable {options : Options α} {box : Box α n} {record : Record α n u}
  {search settled : Search α n u b}

theorem turned {fuel : Nat} {next : Search α n u b} (reached : Reached options box record search)
    (turned : Turned fuel search next) : Reached options box record next := by
  cases turned with
  | iterate due found => exact reached.iterate fuel due found
  | reduce due => exact reached.reduce due

theorem settle (fuel : Nat) {turns : Nat} (reached : Reached options box record search)
    (found : search.settle fuel turns = some settled) : Reached options box record settled :=
  settle_keeps (fun turned reached => reached.turned turned) reached found

/-- A question that is answered leads to a reached state. -/
theorem asked {pending : Pending α n} (reached : Reached options box record search)
    (due : search.phase = .evaluate pending)
    (allowed : search.evaluator.evaluations < search.evaluator.limit) (point : Array α)
    (constraints : Vector α u) (answer : Except EvalError α) :
    Reached options box (record.push ⟨search.point, constraints, answer⟩)
      (search.asked box pending point ⟨search.point, constraints, answer⟩).search := by
  unfold Search.asked
  cases answer with
  | ok objective =>
    rw [search_handOut]
    exact reached.answer constraints objective due allowed
  | error error =>
    cases error with
    | halt =>
      rw [search_handOut]
      exact reached.halt constraints due allowed
    | wrongDimension | invalidValue | custom =>
      exact reached.fail constraints _ (by simp) due allowed

theorem ask {pending : Pending α n} (reached : Reached options box record search)
    (due : search.phase = .evaluate pending) (oracle : Oracle Id α n u) (point : Array α) :
    Reached options box ((search.ask oracle.recorded box pending point).run record).2
      ((search.ask oracle.recorded box pending point).run record).1.search := by
  rw [run_ask]
  split
  case isTrue spent =>
    rw [search_handOut]
    exact reached.exhaust due spent
  case isFalse allowed => exact reached.asked due (Nat.lt_of_not_le allowed) point _ _

/-- **A step leads from a reached state to a reached state.** -/
theorem next (reached : Reached options box record search) (fuel : Nat)
    (oracle : Oracle Id α n u) (point : Array α) :
    Reached options box ((search.next fuel oracle.recorded box point).run record).2
      ((search.next fuel oracle.recorded box point).run record).1.search := by
  unfold Search.next
  cases entry : search.enter point with
  | error failure => exact reached
  | ok entered =>
    have entering := reached.enter point entry
    cases found : entered.settle fuel fuel with
    | none =>
      simp only [found]
      exact entering
    | some settled =>
      have settling := entering.settle fuel found
      simp only [found]
      cases due : settled.phase with
      | evaluate pending => exact settling.ask due oracle point
      | start | iterate | reduce | done =>
        change Reached options box record (settled.handOut point _).search
        rw [search_handOut]
        exact settling

end Reached

end Search

end DerivativeFree
