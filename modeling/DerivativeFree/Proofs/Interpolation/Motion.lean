import DerivativeFree.Proofs.Exact.Vector
import DerivativeFree.Interpolation.Pole

/-!
# Moved points and simplices

A motion moves every coordinate on its own and commutes with the addition of a step.  A
translation is one; the motion that leaves everything in place is one in any arithmetic.

A simplex keeps one point, its pole, and knows the others by their displacements.  Whatever
is done to a simplex therefore commutes with a motion, and what is read off from its edges and
samples is not affected by one.
-/

namespace DerivativeFree

set_option autoImplicit false

/-- A way to move points, each coordinate on its own, that commutes with the addition of a
step. -/
structure Motion (α : Type) [Scalar α] (n : Nat) where
  /-- Where a coordinate is moved. -/
  shift : Fin n → α → α
  /-- A coordinate may be moved before or after a step. -/
  shift_add : ∀ i a step, shift i (a + step) = shift i a + step
  /-- Numbers of finite size stay so. -/
  isFinite_shift : ∀ i a, Scalar.isFinite (shift i a) = Scalar.isFinite a

namespace Motion

variable {α : Type} {n : Nat}

section Scalar

variable [Scalar α]

/-- The motion that leaves everything in place. -/
def still (α : Type) [Scalar α] (n : Nat) : Motion α n where
  shift _ a := a
  shift_add _ _ _ := rfl
  isFinite_shift _ _ := rfl

variable (motion : Motion α n)

/-! ## Points -/

/-- The point moved. -/
def move (x : Vector α n) : Vector α n :=
  Vector.ofFn fun i => motion.shift i (x.get i)

/-- The first coordinates in a list moved. -/
def moveList (x : List α) : List α :=
  x.mapIdx fun i a => if inside : i < n then motion.shift ⟨i, inside⟩ a else a

/-- The point of a caller, which may be of any size, moved. -/
def moveArray (x : Array α) : Array α :=
  (motion.moveList x.toList).toArray

theorem get_move (x : Vector α n) (i : Fin n) :
    (motion.move x).get i = motion.shift i (x.get i) := by
  simp [move, get_eq_getElem]

theorem move_add (x step : Vector α n) : motion.move (x + step) = motion.move x + step := by
  refine vector_ext fun i => ?_
  rw [get_move, get_add, get_add, get_move, motion.shift_add]

theorem move_set (x y : Vector α n) (j : Fin n) :
    motion.move (x.set j (y.get j) j.isLt) =
      (motion.move x).set j ((motion.move y).get j) j.isLt := by
  refine vector_ext fun i => ?_
  rw [get_move, get_set, get_set, get_move, get_move]
  split
  case isTrue same => rw [same]
  case isFalse => rfl

theorem move_set_add (x : Vector α n) (j : Fin n) (size : α) :
    motion.move (x.set j (x.get j + size) j.isLt) =
      (motion.move x).set j ((motion.move x).get j + size) j.isLt := by
  refine vector_ext fun i => ?_
  rw [get_move, get_set, get_set, get_move, get_move]
  split
  case isTrue same => rw [same, motion.shift_add]
  case isFalse => rfl

theorem toList_move (x : Vector α n) : (motion.move x).toList = motion.moveList x.toList := by
  refine List.ext_getElem (by simp [moveList]) fun i here there => ?_
  have inside : i < n := by simpa using here
  simp [moveList, inside, move, get_eq_getElem]

theorem toArray_move (x : Vector α n) : (motion.move x).toArray = motion.moveArray x.toArray := by
  have same := motion.toList_move x
  rw [moveArray, Vector.toList_toArray, ← same]
  rfl

theorem size_moveArray (x : Array α) : (motion.moveArray x).size = x.size := by
  simp [moveArray, moveList]

theorem isFinite_moveArray (x : Array α) :
    (motion.moveArray x).all Scalar.isFinite = x.all Scalar.isFinite := by
  have same : ∀ i a, Scalar.isFinite
      (if inside : i < n then motion.shift ⟨i, inside⟩ a else a) = Scalar.isFinite a := by
    intro i a
    split
    · exact motion.isFinite_shift ..
    · rfl
  rw [Bool.eq_iff_iff, Array.all_eq_true, Array.all_eq_true]
  constructor
  · intro finite i inside
    simpa [moveArray, moveList, same] using finite i (by rwa [size_moveArray])
  · intro finite i inside
    simpa [moveArray, moveList, same] using finite i (by rwa [size_moveArray] at inside)

/-- The entries of the point of a caller, or zeros where it has none, are moved with it. -/
theorem move_ofFn {x : Array α} (sized : x.size = n) :
    (Vector.ofFn fun i : Fin n => (motion.moveArray x)[i.val]?.getD 0) =
      motion.move (Vector.ofFn fun i => x[i.val]?.getD 0) := by
  refine vector_ext fun i => ?_
  rw [get_move]
  simp [get_eq_getElem, moveArray, moveList, sized]

@[simp]
theorem move_still (x : Vector α n) : (still α n).move x = x := by
  refine vector_ext fun i => ?_
  rw [get_move]
  rfl

@[simp]
theorem moveList_still (x : List α) : (still α n).moveList x = x := by
  refine List.ext_getElem (by simp [moveList]) fun i here there => ?_
  simp [moveList, still]

@[simp]
theorem moveArray_still (x : Array α) : (still α n).moveArray x = x := by
  simp [moveArray]

end Scalar

/-- The motion by a vector. -/
def translation [EuclideanField α] (offset : Vector α n) : Motion α n where
  shift i a := a + offset.get i
  shift_add _ _ _ := add_right_comm ..
  isFinite_shift _ _ := rfl

theorem move_translation [EuclideanField α] (offset x : Vector α n) :
    (translation offset).move x = x + offset := by
  refine vector_ext fun i => ?_
  rw [get_move, get_add]
  rfl

end Motion

/-! ## Simplices -/

namespace Simplex

variable {α : Type} [Scalar α] {n m : Nat}

/-- The simplex moved as a whole. -/
def moved (simplex : Simplex α n m) (motion : Motion α n) : Simplex α n m :=
  { simplex with pole := motion.move simplex.pole }

variable (simplex : Simplex α n m) (motion : Motion α n)

theorem point_moved (vertex : Vertex n) :
    (simplex.moved motion).point vertex = motion.move (simplex.point vertex) := by
  cases vertex with
  | edge j => exact (motion.move_add ..).symm
  | pole => rfl

theorem selectPole_moved (penalty : α) :
    (simplex.moved motion).selectPole penalty =
      ((simplex.selectPole penalty).1.moved motion, (simplex.selectPole penalty).2) := by
  have best : (simplex.moved motion).best penalty = simplex.best penalty := rfl
  rw [selectPole, selectPole, best]
  cases simplex.best penalty with
  | pole => rfl
  | edge j =>
    simp only [promote, moved, motion.move_add]
    rfl

theorem setSample_moved (vertex : Vertex n) (sample : Sample α m) :
    (simplex.moved motion).setSample vertex sample =
      (simplex.setSample vertex sample).moved motion := by
  cases vertex <;> rfl

theorem insertInitial_moved (j : Fin n) (sample : Sample α m) (x : Vector α n) (size : α) :
    (simplex.moved motion).insertInitial j sample (motion.move x) size =
      ((simplex.insertInitial j sample x size).1.moved motion,
        motion.move (simplex.insertInitial j sample x size).2) := by
  have better : (simplex.moved motion).poleSample = simplex.poleSample := rfl
  rw [insertInitial, insertInitial, better]
  split
  case isTrue =>
    exact Prod.ext (simplex.setSample_moved motion (.edge j) sample)
      (motion.move_set x simplex.pole j).symm
  case isFalse =>
    refine Prod.ext ?_ rfl
    simp only [reverseInitial, moved, motion.move_set]
    rfl

end Simplex

end DerivativeFree
