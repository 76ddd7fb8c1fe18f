import DerivativeFree.Proofs.Exact.Vector
import DerivativeFree.TrustRegion.ActiveSet

/-!
# Rounding in exact arithmetic

The search for a step takes a sum as zero if it could be zero but for rounding.  Without
rounding this happens to zero alone.
-/

namespace DerivativeFree

set_option autoImplicit false

variable {α : Type} [EuclideanField α] {n : Nat}

/-- A sum can be told from zero unless it is zero. -/
@[simp]
theorem significant_exact (magnitude value : α) :
    significant magnitude value = decide (value ≠ 0) := by
  by_cases zero : value = 0
  · simp [significant, zero]
  · have size : 0 < |value| := abs_pos.mpr zero
    have near : magnitude < magnitude + 0.1 * |value| := lt_add_of_pos_right _ (by positivity)
    have far : magnitude + 0.1 * |value| < magnitude + 0.2 * |value| := by linarith
    simp [significant, zero, near, far]

@[simp]
theorem rounded_exact (magnitude value : α) : rounded magnitude value = value := by
  by_cases zero : value = 0
  · simp [rounded, zero]
  · simp [rounded, zero]

@[simp]
theorem roundedDot_exact (v w : Vector α n) : roundedDot v w = dot v w :=
  rounded_exact ..

end DerivativeFree
