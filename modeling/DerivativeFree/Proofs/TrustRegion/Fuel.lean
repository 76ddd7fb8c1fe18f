import DerivativeFree.TrustRegion.Solve

/-!
# Fuel for a step

The turns of a stage and the runs of the second stage are counted so that the search for a
step is a total function.  A step that has been found is found with more fuel as well, and
it is the same one.
-/

namespace DerivativeFree

set_option autoImplicit false

variable {α : Type} [Scalar α] {n m : Nat} {model : LinearModel α n m} {radius : α}
  {fuel more : Nat}

theorem Stage.run_mono {stage : Stage α n m} {result : Workspace α n m × StageEnd}
    (found : stage.run model radius fuel = some result) (le : fuel ≤ more) :
    stage.run model radius more = some result := by
  induction fuel generalizing stage more with
  | zero => cases found
  | succ fuel ih =>
    obtain ⟨more, rfl⟩ := Nat.exists_eq_add_of_le' le
    rw [← Nat.add_assoc]
    simp only [Stage.run] at found ⊢
    split at found
    case h_1 next turned => exact ih found (Nat.le_add_left fuel more)
    case h_2 ended how turned => exact found

namespace Workspace

variable {workspace : Workspace α n m} {result : Workspace α n m × StepEnd}

theorem runSecondStage_mono {rounds later : Nat}
    (found : workspace.runSecondStage model radius fuel rounds = some result) (le : fuel ≤ more)
    (further : rounds ≤ later) :
    workspace.runSecondStage model radius more later = some result := by
  induction rounds generalizing workspace later with
  | zero => cases found
  | succ rounds ih =>
    obtain ⟨later, rfl⟩ := Nat.exists_eq_add_of_le' further
    rw [← Nat.add_assoc]
    unfold runSecondStage at found ⊢
    split at found
    case h_1 => cases found
    case h_2 ended ran =>
      rw [Stage.run_mono ran le]
      exact found
    case h_3 ended ran =>
      rw [Stage.run_mono ran le]
      exact ih found (Nat.le_add_left rounds later)
    case h_4 ended ran =>
      rw [Stage.run_mono ran le]
      exact found

/-- **More fuel leads to the same step.** -/
theorem solve_mono (found : workspace.solve model radius fuel = some result) (le : fuel ≤ more) :
    workspace.solve model radius more = some result := by
  simp only [solve] at found ⊢
  split at found
  case isTrue satisfied =>
    rw [if_pos satisfied]
    exact runSecondStage_mono found le le
  case isFalse violated =>
    rw [if_neg violated]
    split at found
    case h_1 => cases found
    case h_2 ended ran =>
      rw [Stage.run_mono ran le]
      exact found
    case h_3 ended how inside ran =>
      rw [Stage.run_mono ran le]
      cases how with
      | boundary => exact absurd rfl inside
      | inside | stalled => exact runSecondStage_mono found le le

end Workspace

end DerivativeFree
