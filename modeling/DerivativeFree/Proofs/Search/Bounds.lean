import DerivativeFree.Proofs.Search.Recast

/-!
# Bounds are constraints

A bound of finite size is a constraint like any other: the distance of a variable from it,
taken to the inside.  `Oracle.withBounds` writes these distances after the constraints of a
problem, those from the lower bounds first and each kind by increasing variable.

A search in a box and a search without bounds that asks this oracle cannot be told from each
other, call by call (`transcript_withBounds`).  This holds in any arithmetic, for any pattern
of bounds, and whatever the oracle answers.
-/

namespace DerivativeFree

set_option autoImplicit false

variable {α : Type} [Scalar α] {n u : Nat}

/-! ## The constraints that stand for bounds -/

namespace Box

/-- The constraint that a bound stands for, unless there is none of finite size. -/
def distance (bound : Option α) (inwards : α → α) : List α :=
  match bound with
  | some bound => if Scalar.isFinite bound then [inwards bound] else []
  | none => []

/-- The distances above the lower bounds of finite size, by increasing variable, and then those
below the upper bounds. -/
def distances (box : Box α n) (x : Vector α n) : List α :=
  ((List.finRange n).flatMap fun i => distance (box.lower.get i) (x.get i - ·)) ++
    (List.finRange n).flatMap fun i => distance (box.upper.get i) (· - x.get i)

/-- The bounds of finite size found first and the residuals taken from them afterwards. -/
theorem filterMap_finiteBounds (bounds : Vector (Option α) n) (x : Vector α n)
    (inwards : α → α → α) :
    (finiteBounds bounds).filterMap (fun (i, bound) => x[i.val]?.map (inwards · bound)) =
      (List.finRange n).flatMap fun i => distance (bounds.get i) (inwards (x.get i)) := by
  rw [finiteBounds]
  induction List.finRange n with
  | nil => rfl
  | cons i rest ih =>
    rw [List.flatMap_cons, ← ih, List.filterMap_cons]
    cases bounds.get i with
    | none => rfl
    | some bound =>
      by_cases finite : Scalar.isFinite bound = true
      · simp [distance, finite, Option.filter, get_eq_getElem]
      · simp [distance, finite, Option.filter]

theorem residuals_eq_distances (box : Box α n) (x : Vector α n) :
    box.residuals x = box.distances x := by
  rw [residuals, distances, filterMap_finiteBounds box.lower x (· - ·)]
  rw [filterMap_finiteBounds box.upper x (fun value bound => bound - value)]

theorem length_distances (box : Box α n) (x : Vector α n) :
    (box.distances x).length = box.boundCount := by
  rw [← residuals_eq_distances, length_residuals]

/-- No bound is of finite size in a box without any. -/
theorem boundCount_unbounded (positive : 0 < n) :
    (unbounded n positive : Box α n).boundCount = 0 := by
  have none : ∀ i : Fin n, (Vector.replicate n (none : Option α)).get i = none := by
    simp [get_eq_getElem]
  simp [boundCount, finiteBounds, unbounded, none]

theorem residuals_unbounded (positive : 0 < n) (x : Vector α n) :
    (unbounded n positive).residuals x = [] := by
  rw [← List.length_eq_zero_iff, length_residuals, boundCount_unbounded]

end Box

/-- The oracle with the distances from the bounds as further constraints. -/
def Oracle.withBounds (oracle : Oracle Id α n u) (box : Box α n) :
    Oracle Id α n (u + box.boundCount) :=
  fun x constraints =>
    let (constraints, answer) := oracle x (Vector.ofFn fun k => constraints.get (k.castAdd _))
    (constraints ++ Vector.mk (box.distances x).toArray (box.length_distances x), answer)

theorem Oracle.withBounds_spellsOut (oracle : Oracle Id α n u) (box : Box α n) :
    oracle.SpellsOut (.still α n) box (oracle.withBounds box) := by
  intro x constraints values
  have first : (Vector.ofFn fun k : Fin u =>
      (constraints ++ values).get (k.castAdd box.boundCount)) = constraints := by
    refine vector_ext fun k => ?_
    simp [get_eq_getElem]
  rw [Motion.move_still, Box.residuals_eq_distances]
  simp only [withBounds, first]
  exact ⟨Vector.toList_append .., rfl⟩

namespace Search

/-! ## Runs -/

/-- Two calls come to the same, and what has been asked differs only in the distances from the
bounds that the second oracle adds to the constraints. -/
structure SameWithBounds {b : Nat} (box : Box α n)
    (called : Step α n u b × Record α n u)
    (called' : Step α n (u + b) 0 × Record α n (u + b)) : Prop where
  result : called'.1.result = called.1.result
  point : called'.1.point = called.1.point
  view : called'.1.search.view = called.1.search.view
  journal : called'.1.search.journal = called.1.search.journal
  questions : List.Forall₂ (fun inquiry inquiry' =>
      inquiry'.point = inquiry.point ∧
        inquiry'.constraints.toList =
          inquiry.constraints.toList ++ box.distances inquiry.point ∧
        inquiry'.answer = inquiry.answer) called.2.toList called'.2.toList

theorem view_recast {b : Nat} (motion : Motion α n) (values : Vector α b)
    (search : Search α n u b) :
    (search.recast motion values).view =
      { search.view with best := motion.move search.best } :=
  rfl

theorem moved_still (event : Event α) : event.moved (.still α n) = event := by
  obtain ⟨level, notice⟩ := event
  cases notice <;> simp [Event.moved, Notice.moved]

theorem create_recast (options : Options α) (b : Nat) :
    (create n u b options).recast (.still α n) 0 = create n (u + b) 0 options := by
  have buffer : (0 : Vector α u) ++ (0 : Vector α b) = 0 := Vector.replicate_append_replicate
  have pole : (Simplex.axisAligned 0 1 (u + b) : Simplex α n (u + b)).moved (.still α n) =
      Simplex.axisAligned 0 1 (u + b) := by
    rw [Simplex.moved, Motion.move_still]
  simp only [recast, create, Evaluator.start, buffer, pole, Motion.move_still,
    Array.map_empty]
  rfl

/-- **Bounds are constraints.**  A search in a box, and a search without bounds whose oracle
has the distances from the bounds of finite size as further constraints, do the same in every
call: they have the same result, hand out the same point, show the same to an observer, keep
the same journal, and have asked about the same points. -/
theorem transcript_withBounds (options : Options α) (box : Box α n) (oracle : Oracle Id α n u)
    (fuel calls : Nat) (point : Array α) :
    (Box.unbounded n box.positive : Box α n).boundCount = 0 ∧
      (create n (u + box.boundCount) 0 options).view =
        (create n u box.boundCount options).view ∧
      List.Forall₂ (SameWithBounds box)
        ((create n u box.boundCount options).transcript fuel oracle box calls point #[])
        ((create n (u + box.boundCount) 0 options).transcript fuel (oracle.withBounds box)
          (Box.unbounded n box.positive) calls point #[]) := by
  refine ⟨Box.boundCount_unbounded box.positive, rfl, ?_⟩
  have recasts := transcript_recast (oracle.withBounds_spellsOut box) 0
    (create n u box.boundCount options) fuel calls point (speltOut_empty ..)
  rw [create_recast, Motion.moveArray_still] at recasts
  refine recasts.imp ?_
  rintro called called' ⟨⟨⟨values, search⟩, handed, result⟩, questions⟩
  exact {
    result := result
    point := by rw [handed, Motion.moveArray_still]
    view := by
      rw [search, view_recast, Motion.move_still]
      rfl
    journal := by
      rw [search, recast, funext moved_still]
      exact Array.map_id' ..
    questions := questions.imp fun inquiry inquiry' spelt =>
      ⟨spelt.point.trans (Motion.move_still _),
        Box.residuals_eq_distances box inquiry.point ▸ spelt.constraints, spelt.answer⟩ }

end Search

end DerivativeFree
