import DerivativeFree.Problem.Basic

/-!
# Records of evaluations

An oracle can be made to keep a record of what it is asked and what it answers.  The
record changes none of the answers (`run_recorded`), so that a search can be watched from
outside: how often the oracle was asked, at which points, and with what result.
-/

namespace DerivativeFree

set_option autoImplicit false

/-- One question to an oracle, with its answer. -/
structure Inquiry (α : Type) (n m : Nat) where
  /-- The point at which the values were asked for. -/
  point : Vector α n
  /-- The values of the constraints as the oracle has left them. -/
  constraints : Vector α m
  /-- The objective, or why it is not known. -/
  answer : Except EvalError α

/-- The questions to an oracle so far, the latest one last. -/
abbrev Record (α : Type) (n m : Nat) : Type := Array (Inquiry α n m)

namespace Oracle

variable {α : Type} {n m : Nat}

/-- The oracle that answers like the given one and adds each question to a record. -/
def recorded (oracle : Oracle Id α n m) : Oracle (StateM (Record α n m)) α n m :=
  fun x constraints record =>
    let (constraints, answer) := oracle x constraints
    ((constraints, answer), record.push ⟨x, constraints, answer⟩)

theorem run_recorded (oracle : Oracle Id α n m) (x : Vector α n) (constraints : Vector α m)
    (record : Record α n m) :
    (oracle.recorded x constraints).run record =
      (oracle x constraints,
        record.push ⟨x, (oracle x constraints).1, (oracle x constraints).2⟩) :=
  rfl

end Oracle

end DerivativeFree
