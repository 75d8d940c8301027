/-
This file gives the operations of `std::vector` that check a position or move elements, and the rotations of its
first elements.
-/

import Mathlib.Data.List.Perm.Basic
import Mathlib.Data.List.Rotate
import VisionServer.Library.Exceptions

namespace VisionServer.Library

/-- A checked access throws, and a position outside of the vector has no defined behaviour. -/
inductive Failure
  | outOfRange
  | undefined
deriving DecidableEq

variable {Item : Type}

section Operations

/-- This is `at`, whose reference is the position of the element. -/
def referenceAt (idx : Nat) : EStateM Failure (List Item) Nat := do
  let vec ← get
  if idx < vec.length then pure idx else throw .outOfRange

/-- The element is copied through the reference before the others move. -/
def insertCopy (pos reference : Nat) : EStateM Failure (List Item) PUnit := do
  let vec ← get
  match vec[reference]? with
  | some item => if pos ≤ vec.length then set (vec.insertIdx pos item) else throw .undefined
  | none => throw .undefined

/-- The elements behind the position move forward. -/
def erase (pos : Nat) : EStateM Failure (List Item) PUnit := do
  let vec ← get
  if pos < vec.length then set (vec.eraseIdx pos) else throw .undefined

variable {vec : List Item} {idx pos : Nat}

theorem run_referenceAt (inside : idx < vec.length) : (referenceAt idx).run vec = .ok idx vec := by
  simp [referenceAt, inside]

theorem run_referenceAt_of_le (outside : vec.length ≤ idx) :
    (referenceAt idx).run vec = .error .outOfRange vec := by
  simp only [referenceAt, EStateM.run_bind, EStateM.run_get, if_neg (Nat.not_lt.mpr outside)]
  rfl

theorem run_insertCopy (inside : idx < vec.length) (valid : pos ≤ vec.length) :
    (insertCopy pos idx).run vec = .ok ⟨⟩ (vec.insertIdx pos vec[idx]) := by
  simp [insertCopy, inside, valid]

theorem run_erase (inside : pos < vec.length) : (erase pos).run vec = .ok ⟨⟩ (vec.eraseIdx pos) := by
  simp [erase, inside]

end Operations

section Rotations

/-- The first elements are rotated, and the others stay. -/
def rotateFirst (count shift : Nat) (vec : List Item) : List Item :=
  (vec.take count).rotate shift ++ vec.drop count

variable {vec : List Item} {count : Nat}

theorem rotateFirst_zero (count : Nat) (vec : List Item) : rotateFirst count 0 vec = vec := by
  rw [rotateFirst, List.rotate_zero, List.take_append_drop]

theorem rotateFirst_perm (count shift : Nat) (vec : List Item) : (rotateFirst count shift vec).Perm vec := by
  have parts := ((vec.take count).rotate_perm shift).append_right (vec.drop count)
  rwa [List.take_append_drop] at parts

/-- Rotations of as many elements add their shifts. -/
theorem rotateFirst_rotateFirst (inside : count ≤ vec.length) (first second : Nat) :
    rotateFirst count second (rotateFirst count first vec) = rotateFirst count (first + second) vec := by
  have length : ((vec.take count).rotate first).length = count := by
    rw [List.length_rotate, List.length_take_of_le inside]
  unfold rotateFirst
  rw [List.take_left' length, List.drop_left' length, List.rotate_rotate]

/-- A shift by a multiple of the number of elements changes nothing. -/
theorem rotateFirst_mul (inside : count ≤ vec.length) (turns : Nat) :
    rotateFirst count (count * turns) vec = vec := by
  have whole := (vec.take count).rotate_length_mul turns
  rw [List.length_take_of_le inside] at whole
  rw [rotateFirst, whole, List.take_append_drop]

/-- The longest shift moves the last of the elements to the front. -/
theorem rotateFirst_succ {idx : Nat} (inside : idx < vec.length) :
    rotateFirst (idx + 1) idx vec = vec[idx] :: vec.eraseIdx idx := by
  have length : (vec.take idx).length = idx := List.length_take_of_le (Nat.le_of_lt inside)
  have turned := List.rotate_append_length_eq (vec.take idx) [vec[idx]]
  rw [length] at turned
  rw [rotateFirst, List.take_succ_eq_append_getElem inside, turned, List.append_assoc,
    List.eraseIdx_eq_take_drop_succ]
  rfl

end Rotations

end VisionServer.Library
