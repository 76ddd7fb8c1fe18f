import DerivativeFree.Search.Options

/-!
# Events of a search

A search keeps a journal of what it does.  Each event has a level and a notice, and
`Notice.text` words a notice once it is known how numbers are written.
-/

namespace DerivativeFree

set_option autoImplicit false

/-- How important an event is. -/
inductive Level where
  /-- Details of the method. -/
  | debug
  /-- The reports that the verbosity asks for. -/
  | info
  /-- Signs that something is wrong. -/
  | warn
  deriving Repr, DecidableEq

/-- What is noted about a search. -/
inductive Notice (α : Type) where
  /-- The search starts with the given radius. -/
  | started (radius : α)
  /-- A vertex has become the pole. -/
  | promoted (vertex : Nat) (objective violation : α)
  /-- The inverse of the simplex is off by the given error. -/
  | inaccurate (error : α)
  /-- The second stage of a step was stalled. -/
  | stalled (active : Nat)
  /-- The step has the given length, which is too short. -/
  | tooShort (length : α)
  /-- The penalty has been raised. -/
  | penaltyRaised (penalty : α)
  /-- A step is to be tried. -/
  | stepPlanned (length : α) (complete : Bool) (reduction : α)
  /-- A vertex is being moved to improve the shape of the simplex. -/
  | shapeImproved (vertex : Nat) (step : List α)
  /-- The oracle wanted the search to stop. -/
  | halted
  /-- The values of a trial point are known. -/
  | tried (objective violation reduction predicted : α)
  /-- The trial point has replaced a vertex. -/
  | replaced (vertex : Nat)
  /-- The radius has been reduced. -/
  | radiusReduced (radius penalty : α)
  /-- The number of evaluations so far, and values found. -/
  | progress (evaluations : Nat) (objective violation : α)
  /-- A point. -/
  | position (x : List α)
  /-- The search has ended. -/
  | ended (status : Status)
  deriving Repr

/-- An entry of the journal of a search. -/
structure Event (α : Type) where
  /-- The importance of the event. -/
  level : Level
  /-- What has happened. -/
  notice : Notice α
  deriving Repr

/-- A list of numbers in brackets. -/
def bracketed {α : Type} (write : α → String) (numbers : List α) : String :=
  "[" ++ ", ".intercalate (numbers.map write) ++ "]"

/-- The wording of the end of a search. -/
def Status.text : Status → String
  | .converged => "normal return from COBYLA"
  | .exhausted => "return from COBYLA because the limit of evaluations has been reached"
  | .inaccurate => "return from COBYLA because rounding errors are becoming damaging"

/-- The wording of a notice, given how a number is written. -/
def Notice.text {α : Type} (write : α → String) : Notice α → String
  | .started radius =>
    "the initial value of rho is " ++ write radius ++ " and parmu is set to zero"
  | .promoted vertex objective violation =>
    "vertex " ++ toString vertex ++ " becomes the pole,\tfx = " ++ write objective ++
      ", resmax = " ++ write violation
  | .inaccurate error => "inverse of the simplex is inaccurate, error = " ++ write error
  | .stalled active =>
    "subproblem stalled with " ++ toString active ++ " active constraints"
  | .tooShort length => "step is too short, length = " ++ write length
  | .penaltyRaised penalty => "increase in parmu to " ++ write penalty
  | .stepPlanned length complete reduction =>
    "trust region step of length " ++ write length ++ ", full = " ++ toString complete ++
      ", predicted reduction = " ++ write reduction
  | .shapeImproved vertex step =>
    "improving geometry by replacing vertex " ++ toString vertex ++ ", step = " ++
      bracketed write step
  | .halted => "evaluation halted by the function"
  | .tried objective violation reduction predicted =>
    "trial point,\tfx = " ++ write objective ++ ", resmax = " ++ write violation ++
      ", reduction = " ++ write reduction ++ " (predicted " ++ write predicted ++ ")"
  | .replaced vertex => "trial point replaces vertex " ++ toString vertex
  | .radiusReduced radius penalty =>
    "reduction in rho to " ++ write radius ++ " and parmu = " ++ write penalty
  | .progress evaluations objective violation =>
    "evaluations = " ++ toString evaluations ++ ", f = " ++ write objective ++
      ", maxcv = " ++ write violation
  | .position x => "x = " ++ bracketed write x
  | .ended status => status.text

end DerivativeFree
