import DerivativeFree.Proofs.Interpolation.Pole
import DerivativeFree.Proofs.TrustRegion.Level
import DerivativeFree.Interpolation.Penalty

/-!
# Samples with a raised objective

If the objective is raised by the same level at all vertices of a simplex, the choice of
the pole and the revision of the penalty stay the same, and so do the slopes of the linear
model.  In a simplex that is being set up some vertices have no sample yet; therefore
`Simplex.raised` takes a level for each vertex, and `insertInitial` needs the right one at
the pole only.
-/

namespace DerivativeFree

set_option autoImplicit false

variable {α : Type} {n m : Nat}

/-- Simplices are the same if they have the same edges and samples. -/
theorem Simplex.ext_sample {simplex other : Simplex α n m} (edges : simplex.edges = other.edges)
    (pole : simplex.pole = other.pole) (inverse : simplex.inverse = other.inverse)
    (sample : ∀ vertex, simplex.sample vertex = other.sample vertex) : simplex = other := by
  obtain ⟨edges, pole, inverse, samples, poleSample⟩ := simplex
  obtain rfl : samples = other.samples := vector_ext fun j => sample (.edge j)
  obtain rfl : poleSample = other.poleSample := sample .pole
  simp_all

variable [EuclideanField α]

/-! ## Samples -/

/-- The sample with its objective raised by a level. -/
def Sample.raised (sample : Sample α m) (level : α) : Sample α m :=
  { sample with objective := sample.objective + level }

namespace Sample

@[simp]
theorem constraints_raised (sample : Sample α m) (level : α) :
    (sample.raised level).constraints = sample.constraints :=
  rfl

@[simp]
theorem objective_raised (sample : Sample α m) (level : α) :
    (sample.raised level).objective = sample.objective + level :=
  rfl

@[simp]
theorem violation_raised (sample : Sample α m) (level : α) :
    (sample.raised level).violation = sample.violation :=
  rfl

@[simp]
theorem raised_zero (sample : Sample α m) : sample.raised 0 = sample := by
  simp [raised]

theorem merit_raised (sample : Sample α m) (level penalty : α) :
    (sample.raised level).merit penalty = sample.merit penalty + level := by
  simp only [merit, objective_raised, violation_raised]
  ring

theorem row_raised_castSucc (sample : Sample α m) (level : α) (k : Fin m) :
    (sample.raised level).row.get k.castSucc = sample.row.get k.castSucc := by
  simp only [row_castSucc, constraints_raised]

theorem row_raised_last (sample : Sample α m) (level : α) :
    (sample.raised level).row.get (Fin.last m) = sample.row.get (Fin.last m) + level := by
  simp only [row_last, objective_raised]

end Sample

/-! ## Simplices -/

namespace Simplex

/-- The simplex with the objective raised by a level at each vertex. -/
def raised (simplex : Simplex α n m) (level : Vertex n → α) : Simplex α n m :=
  { simplex with
    samples := Vector.ofFn fun j => (simplex.samples.get j).raised (level (.edge j))
    poleSample := simplex.poleSample.raised (level .pole) }

variable (simplex : Simplex α n m) (level : Vertex n → α) (lift penalty : α)

@[simp]
theorem sample_raised (vertex : Vertex n) :
    (simplex.raised level).sample vertex = (simplex.sample vertex).raised (level vertex) := by
  cases vertex with
  | pole => rfl
  | edge j => exact Vector.get_ofFn ..

@[simp]
theorem raised_zero : simplex.raised 0 = simplex :=
  ext_sample rfl rfl rfl fun vertex => by simp

theorem setSample_raised (vertex : Vertex n) (sample : Sample α m) :
    (simplex.raised level).setSample vertex (sample.raised lift) =
      (simplex.setSample vertex sample).raised (Function.update level vertex lift) := by
  refine ext_sample ?_ ?_ ?_ fun other => ?_
  · cases vertex <;> rfl
  · cases vertex <;> rfl
  · cases vertex <;> rfl
  · by_cases own : other = vertex
    · subst own
      simp only [sample_raised, sample_setSample_self, Function.update_self]
    · simp only [sample_raised, sample_setSample_of_ne _ (Ne.symm own),
        Function.update_of_ne own]

theorem replaceEdge_raised (j : Fin n) (step : Vector α n) :
    (simplex.raised level).replaceEdge j step = (simplex.replaceEdge j step).raised level :=
  rfl

theorem reverseInitial_raised (j : Fin n) (coordinate size : α) (sample : Sample α m) :
    (simplex.raised level).reverseInitial j coordinate size (sample.raised (level .pole)) =
      (simplex.reverseInitial j coordinate size sample).raised
        (Function.update level (.edge j) (level .pole)) := by
  refine ext_sample rfl rfl rfl fun vertex => ?_
  cases vertex with
  | pole => rfl
  | edge k =>
    rw [sample_raised, sample_reverseInitial, sample_reverseInitial, sample_raised, sample_raised]
    by_cases same : k = j
    · subst same
      rw [if_pos rfl, if_pos rfl, Function.update_self]
    · rw [if_neg same, if_neg same, Function.update_of_ne (by simpa using same)]

/-- The next sample of an initial simplex is compared with that of the pole. -/
theorem insertInitial_raised (j : Fin n) (sample : Sample α m) (x : Vector α n) (size : α) :
    (simplex.raised level).insertInitial j (sample.raised (level .pole)) x size =
      ((simplex.insertInitial j sample x size).1.raised
          (Function.update level (.edge j) (level .pole)),
        (simplex.insertInitial j sample x size).2) := by
  have better : (simplex.raised level).poleSample.objective ≤
      (sample.raised (level .pole)).objective ↔
        simplex.poleSample.objective ≤ sample.objective := add_le_add_iff_right _
  simp only [insertInitial, better]
  split
  case isTrue => exact congrArg (·, _) (simplex.setSample_raised ..)
  case isFalse => exact congrArg (·, _) (simplex.reverseInitial_raised ..)

/-! ## The same level everywhere -/

theorem replaceVertex_raised (j : Fin n) (step : Vector α n) (sample : Sample α m) :
    (simplex.raised fun _ => lift).replaceVertex j step (sample.raised lift) =
      (simplex.replaceVertex j step sample).raised fun _ => lift := by
  rw [replaceVertex, replaceEdge_raised, setSample_raised, Function.update_eq_self]
  rfl

theorem promote_raised (j : Fin n) :
    (simplex.raised fun _ => lift).promote j = (simplex.promote j).raised fun _ => lift :=
  ext_sample rfl rfl rfl fun vertex => by simp only [sample_promote, sample_raised]

theorem merit_raised (vertex : Vertex n) :
    (simplex.raised fun _ => lift).merit penalty vertex = simplex.merit penalty vertex + lift := by
  rw [merit, sample_raised, Sample.merit_raised]
  rfl

theorem winsTie_raised (vertex other : Vertex n) :
    (simplex.raised level).winsTie penalty vertex other =
      simplex.winsTie penalty vertex other := by
  have violation : ∀ vertex, (simplex.raised level).violation vertex =
      simplex.violation vertex := by
    intro vertex
    rw [Simplex.violation, sample_raised, Sample.violation_raised]
    rfl
  rw [winsTie, violation, violation]
  rfl

theorem dethroned_raised :
    (simplex.raised fun _ => lift).dethroned penalty = simplex.dethroned penalty := by
  have better : ∀ j, (decide ((simplex.raised fun _ => lift).merit penalty (.edge j) <
      (simplex.raised fun _ => lift).merit penalty .pole) ||
      (simplex.raised fun _ => lift).merit penalty (.edge j) ==
        (simplex.raised fun _ => lift).merit penalty .pole &&
      (simplex.raised fun _ => lift).winsTie penalty (.edge j) .pole) =
      (decide (simplex.merit penalty (.edge j) < simplex.merit penalty .pole) ||
        simplex.merit penalty (.edge j) == simplex.merit penalty .pole &&
        simplex.winsTie penalty (.edge j) .pole) := by
    intro j
    rw [merit_raised, merit_raised, winsTie_raised]
    simp
  exact congrArg _ (funext better)

theorem betterOf_raised (best : Vertex n × α) (j : Fin n) :
    (simplex.raised fun _ => lift).betterOf penalty (best.1, best.2 + lift) j =
      ((simplex.betterOf penalty best j).1, (simplex.betterOf penalty best j).2 + lift) := by
  simp only [betterOf, merit_raised, winsTie_raised, add_beq_add_right, add_lt_add_iff_right]
  split
  · rfl
  · split <;> rfl

theorem best_raised : (simplex.raised fun _ => lift).best penalty = simplex.best penalty := by
  have folded := foldl_hom (fun best : Vertex n × α => (best.1, best.2 + lift))
    (simplex.betterOf penalty) ((simplex.raised fun _ => lift).betterOf penalty)
    (.pole, simplex.merit penalty .pole) (betterOf_raised simplex lift penalty)
  simpa only [best, merit_raised] using congrArg Prod.fst folded

theorem selectPole_raised :
    (simplex.raised fun _ => lift).selectPole penalty =
      ((simplex.selectPole penalty).1.raised fun _ => lift, (simplex.selectPole penalty).2) := by
  rw [selectPole, best_raised, selectPole]
  split
  · rfl
  · rw [promote_raised]

/-! ## The penalty -/

theorem spread_raised_castSucc (k : Fin m) :
    (simplex.raised level).spread k.castSucc = simplex.spread k.castSucc := by
  have edge : ∀ j, ((simplex.raised level).samples.get j).row.get k.castSucc =
      (simplex.samples.get j).row.get k.castSucc := by
    intro j
    rw [raised, Vector.get_ofFn, Sample.row_raised_castSucc]
  have pole : (simplex.raised level).poleSample.row.get k.castSucc =
      simplex.poleSample.row.get k.castSucc := Sample.row_raised_castSucc ..
  simp only [spread, edge, pole]

theorem spread_raised_last :
    (simplex.raised fun _ => lift).spread (Fin.last m) =
      ((simplex.spread (Fin.last m)).1 + lift, (simplex.spread (Fin.last m)).2 + lift) := by
  have edge : ∀ j, ((simplex.raised fun _ => lift).samples.get j).row.get (Fin.last m) =
      (simplex.samples.get j).row.get (Fin.last m) + lift := by
    intro j
    rw [raised, Vector.get_ofFn, Sample.row_raised_last]
  have pole : (simplex.raised fun _ => lift).poleSample.row.get (Fin.last m) =
      simplex.poleSample.row.get (Fin.last m) + lift := Sample.row_raised_last ..
  simp only [spread, edge, pole]
  refine foldl_hom (fun extremes : α × α => (extremes.1 + lift, extremes.2 + lift)) _ _
    (_, _) fun extremes j => ?_
  simp only [smaller_eq_min, larger_eq_max, min_add_add_right, max_add_add_right]

theorem revisedPenalty_raised :
    (simplex.raised fun _ => lift).revisedPenalty penalty = simplex.revisedPenalty penalty := by
  have scale : (simplex.raised fun _ => lift).constraintScale = simplex.constraintScale := by
    simp only [constraintScale, spread_raised_castSucc]
  simp only [revisedPenalty, scale, spread_raised_last, add_sub_add_right_eq_sub]

end Simplex

/-! ## The model -/

theorem LinearModel.gradientOf_raised (simplex : Simplex α n m) (lift : α) (k : Fin (m + 1)) :
    gradientOf (simplex.raised fun _ => lift) k = gradientOf simplex k := by
  have differences : ((simplex.raised fun _ => lift).samples.map fun sample =>
      sample.row.get k + -(simplex.raised fun _ => lift).poleSample.row.get k) =
        simplex.samples.map fun sample => sample.row.get k + -simplex.poleSample.row.get k := by
    refine vector_ext fun j => ?_
    simp only [get_map, Simplex.raised, Vector.get_ofFn]
    cases k using Fin.lastCases with
    | last =>
      rw [Sample.row_raised_last, Sample.row_raised_last]
      ring
    | cast k => rw [Sample.row_raised_castSucc, Sample.row_raised_castSucc]
  rw [gradientOf, differences]
  rfl

theorem LinearModel.interpolate_raised (simplex : Simplex α n m) (lift : α) :
    interpolate (simplex.raised fun _ => lift) = (interpolate simplex).raised lift := by
  have bounds : -(simplex.poleSample.raised lift).row =
      (-simplex.poleSample.row).set m ((-simplex.poleSample.row).get (Fin.last m) - lift)
        (Nat.lt_add_one m) := by
    refine vector_ext fun k => ?_
    induction k using Fin.lastCases with
    | last =>
      refine Eq.trans ?_ (get_set_self (-simplex.poleSample.row) (Fin.last m) _).symm
      rw [get_neg, get_neg, Sample.row_raised_last]
      ring
    | cast k =>
      refine Eq.trans ?_ (get_set_of_ne (-simplex.poleSample.row) (j := Fin.last m)
        (Fin.castSucc_ne_last k) _).symm
      rw [get_neg, get_neg, Sample.row_raised_castSucc]
  simp only [interpolate, LinearModel.raised, gradientOf_raised]
  exact congrArg _ bounds

end DerivativeFree
