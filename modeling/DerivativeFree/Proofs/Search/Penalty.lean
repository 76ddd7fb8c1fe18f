import DerivativeFree.Proofs.Search.Best
import DerivativeFree.Proofs.Search.Effort

/-!
# The penalty along a run

A penalty is raised when a step calls for it, and revised when the radius is reduced.  The
revision never raises it (`reduce_penalty_le`), and no state of a run has a negative penalty.

`penalty_revision` joins this with what the revised penalty is: the formula for it, the bounds
that it keeps, and that it does not depend on the order of the vertices and constraints.
-/

namespace DerivativeFree.Search

set_option autoImplicit false

variable {α : Type} [EuclideanField α] {n u b : Nat}

theorem loweredPenalty_le (search : Search α n u b) : search.loweredPenalty ≤ search.penalty := by
  unfold loweredPenalty
  split
  case isTrue positive => exact Simplex.revisedPenalty_le positive.le
  case isFalse => exact le_rfl

/-- A reduction does not raise the penalty. -/
theorem reduce_penalty_le (search : Search α n u b) : search.reduce.penalty ≤ search.penalty := by
  cases search.reduce_outcome with
  | spared _ alike => exact alike.frame.2.2.le
  | converged _ _ alike => exact alike.frame.2.2.le
  | shrunk _ _ alike => exact alike.frame.2.2.trans_le search.loweredPenalty_le

/-- **The revision of the penalty.**  A positive penalty is revised to zero if there is no
constraint whose least value is below half of its greatest one; otherwise the spread of the
objective over the least distance that such a constraint covers, which is positive, is an upper
bound for it.  The result is between zero and the penalty, and is the same in every order of the
vertices and of the constraints.  So the penalty of a run is never negative, and no reduction
raises it. -/
theorem penalty_revision :
    (∀ {n m : Nat} (simplex : Simplex α n m) {penalty : α}, 0 < penalty →
      (0 ≤ simplex.revisedPenalty penalty ∧ simplex.revisedPenalty penalty ≤ penalty) ∧
        (simplex.decisive = ∅ → simplex.revisedPenalty penalty = 0) ∧
        (∀ some : simplex.decisive.Nonempty,
          0 < simplex.decisive.inf' some simplex.covered ∧
            simplex.revisedPenalty penalty =
              min penalty ((simplex.greatest (Fin.last m) - simplex.least (Fin.last m)) /
                simplex.decisive.inf' some simplex.covered)) ∧
        ∀ {other : Simplex α n m} {vertices : Equiv.Perm (Vertex n)}
          {constraints : Equiv.Perm (Fin m)}, other.Reordered simplex vertices constraints →
          other.revisedPenalty penalty = simplex.revisedPenalty penalty) ∧
      ∀ {n u b : Nat} {options : Options α} {box : Box α n} {record : Record α n u}
        {search : Search α n u b}, Reached options box record search →
        0 ≤ search.penalty ∧ search.reduce.penalty ≤ search.penalty := by
  constructor
  · intro n m simplex penalty positive
    refine ⟨⟨Simplex.revisedPenalty_nonneg positive.le, Simplex.revisedPenalty_le positive.le⟩,
      Simplex.revisedPenalty_of_none, fun some => ?_, fun reordered => reordered.revisedPenalty⟩
    rw [← Simplex.constraintScale_of_some]
    exact ⟨simplex.constraintScale_pos some, Simplex.revisedPenalty_of_some some⟩
  · intro n u b options box record search reached
    exact ⟨reached.penalty_nonneg, search.reduce_penalty_le⟩

/-- Two vertices on the line under two constraints.  The first constraint changes its sign, and
the second one holds at both vertices. -/
noncomputable def unevenSimplex : Simplex ℝ 1 2 where
  edges := .ofFn ![rationals ![1]]
  pole := rationals ![0]
  inverse := .ofFn ![rationals ![1]]
  samples := .ofFn ![⟨rationals ![1, 3], 1, 0⟩]
  poleSample := ⟨rationals ![-1, 2], 0, 1⟩

/-- The same values, with the vertices and the constraints exchanged. -/
noncomputable def unevenTurned : Simplex ℝ 1 2 where
  edges := .ofFn ![rationals ![-1]]
  pole := rationals ![1]
  inverse := .ofFn ![rationals ![-1]]
  samples := .ofFn ![⟨rationals ![2, -1], 0, 1⟩]
  poleSample := ⟨rationals ![3, 1], 1, 0⟩

/-- The extremes of the two constraints and of the objective. -/
theorem extremes_unevenSimplex : (unevenSimplex.least 0 = -1 ∧ unevenSimplex.greatest 0 = 1) ∧
    (unevenSimplex.least 1 = 2 ∧ unevenSimplex.greatest 1 = 3) ∧
    unevenSimplex.least 2 = 0 ∧ unevenSimplex.greatest 2 = 1 := by
  simp only [← Prod.mk.injEq, ← Simplex.spread_eq]
  norm_num [Simplex.spread, Fin.foldl_succ, unevenSimplex, rationals, Sample.row, get_eq_getElem]

theorem unevenTurned_reordered : unevenTurned.Reordered unevenSimplex
    (Equiv.swap .pole (.edge 0)) (Equiv.swap 0 1) where
  objective vertex := by
    rcases vertex with ⟨i⟩ | _
    · rw [Fin.fin_one_eq_zero i, Equiv.swap_apply_right]
      rfl
    · rw [Equiv.swap_apply_left]
      rfl
  constraints vertex k := by
    rcases vertex with ⟨i⟩ | _
    · rw [Fin.fin_one_eq_zero i, Equiv.swap_apply_right]
      fin_cases k <;> rfl
    · rw [Equiv.swap_apply_left]
      fin_cases k <;> rfl

theorem decisive_unevenSimplex : unevenSimplex.decisive = {0} := by
  obtain ⟨⟨least, greatest⟩, ⟨least', greatest'⟩, -⟩ := extremes_unevenSimplex
  ext k
  rw [Simplex.mem_decisive, Finset.mem_singleton]
  fin_cases k
  · change unevenSimplex.least 0 < unevenSimplex.greatest 0 / 2 ↔ _
    norm_num [least, greatest]
  · change unevenSimplex.least 1 < unevenSimplex.greatest 1 / 2 ↔ _
    norm_num [least', greatest']

/-- A penalty of ten is revised to one half: the objective spreads over one, and only the first
constraint counts, which covers two.  A run to which the second part applies is that of the
search on the line. -/
theorem penalty_revision_uneven : (0 : ℝ) < 10 ∧
    unevenSimplex.revisedPenalty 10 = 1 / 2 ∧ unevenTurned.revisedPenalty 10 = 1 / 2 ∧
    ∃ (record : Record ℝ 1 0) (search : Search ℝ 1 0 0),
      Reached lineOptions realLine record search ∧ search.phase = .reduce ∧
        0 ≤ search.penalty ∧ search.reduce.penalty ≤ search.penalty := by
  have positive : (0 : ℝ) < 10 := by norm_num
  obtain ⟨-, -, formula, same⟩ := penalty_revision.1 unevenSimplex positive
  obtain ⟨⟨least, greatest⟩, -, lower, upper⟩ := extremes_unevenSimplex
  have some : unevenSimplex.decisive.Nonempty := by
    rw [decisive_unevenSimplex]
    exact Finset.singleton_nonempty 0
  have scale : unevenSimplex.decisive.inf' some unevenSimplex.covered = 2 := by
    simp only [decisive_unevenSimplex, Finset.inf'_singleton]
    change max (unevenSimplex.greatest 0) 0 - unevenSimplex.least 0 = 2
    norm_num [least, greatest]
  have revised : unevenSimplex.revisedPenalty 10 = 1 / 2 := by
    rw [(formula some).2, scale]
    change min 10 ((unevenSimplex.greatest 2 - unevenSimplex.least 2) / 2) = 1 / 2
    norm_num [lower, upper]
  obtain ⟨record, search, reached, -, -, overlooks⟩ := reached_overlooking
  exact ⟨positive, revised, (same unevenTurned_reordered).trans revised, record, search, reached,
    overlooks.1, penalty_revision.2 reached⟩

end DerivativeFree.Search
