/-
This file moves an element of a vector to the front and turns the elements up to it around.
-/

import VisionServer.Library.Vectors

namespace VisionServer.Vision
open Library

variable {t : Type}

/-- The element is copied to the front, and then its source is erased. -/
def reinsert (idx : Nat) : EStateM Failure (List t) PUnit := do
  let reference ← referenceAt idx
  insertCopy 0 reference
  erase (idx + 1)

/-- The element at the index stands at the front, and the other elements are in their order behind it. -/
structure Reinserted (vec : List t) (idx : Nat) (after : List t) : Prop where
  front : after[0]? = vec[idx]?
  order : after.tail = vec.eraseIdx idx
  permutation : after.Perm vec
  shifted : ∀ i < idx, after[i + 1]? = vec[i]?
  kept : ∀ i > idx, after[i]? = vec[i]?

section Runs

variable {vec : List t} {idx : Nat}

/-- The elements up to the index are rotated. -/
theorem run_reinsert (inside : idx < vec.length) :
    (reinsert idx).run vec = .ok ⟨⟩ (rotateFirst (idx + 1) idx vec) := by
  have valid : idx + 1 < (vec.insertIdx 0 vec[idx]).length := by
    rw [List.insertIdx_zero, List.length_cons]
    omega
  rw [reinsert, run_bind_of_ok (run_referenceAt inside), run_bind_of_ok (run_insertCopy inside (Nat.zero_le _)),
    run_erase valid, List.insertIdx_zero, List.eraseIdx_cons_succ, rotateFirst_succ inside]

theorem rotateFirst_reinserted (inside : idx < vec.length) :
    Reinserted vec idx (rotateFirst (idx + 1) idx vec) where
  front := by rw [rotateFirst_succ inside, List.getElem?_cons_zero, List.getElem?_eq_getElem inside]
  order := by rw [rotateFirst_succ inside, List.tail_cons]
  permutation := rotateFirst_perm (idx + 1) idx vec
  shifted i before := by
    rw [rotateFirst_succ inside, List.getElem?_cons_succ, List.getElem?_eraseIdx_of_lt before]
  kept i behind := by
    obtain ⟨previous, rfl⟩ := Nat.exists_eq_add_one_of_ne_zero (Nat.ne_zero_of_lt behind)
    rw [rotateFirst_succ inside, List.getElem?_cons_succ, List.getElem?_eraseIdx_of_ge (Nat.le_of_lt_succ behind)]

/-- Each run adds a rotation by the index. -/
theorem run_times_reinsert (inside : idx < vec.length) (count : Nat) :
    (times count (reinsert idx)).run vec = .ok ⟨⟩ (rotateFirst (idx + 1) (idx * count) vec) := by
  have step (i : Nat) : (reinsert idx).run (rotateFirst (idx + 1) (idx * i) vec) =
      .ok ⟨⟩ (rotateFirst (idx + 1) (idx * (i + 1)) vec) := by
    have still : idx < (rotateFirst (idx + 1) (idx * i) vec).length := by
      rwa [(rotateFirst_perm _ _ vec).length_eq]
    rw [run_reinsert still, rotateFirst_rotateFirst inside, Nat.mul_succ]
  have runs : (times count (reinsert idx)).run (rotateFirst (idx + 1) (idx * 0) vec) = _ :=
    run_times fun i _ => step i
  rwa [Nat.mul_zero, rotateFirst_zero] at runs

theorem run_reinsert_of_le (outside : vec.length ≤ idx) :
    (reinsert idx).run vec = .error .outOfRange vec :=
  run_bind_of_error (run_referenceAt_of_le outside) _

end Runs

/-- An element inside moves to the front and as many moves as elements up to it bring every element back, and an
index outside throws without a change. -/
theorem reinsert_moves (vec : List t) (idx : Nat) :
    (idx < vec.length → (∃ after, (reinsert idx).run vec = .ok ⟨⟩ after ∧ Reinserted vec idx after) ∧
      (times (idx + 1) (reinsert idx)).run vec = .ok ⟨⟩ vec) ∧
    (vec.length ≤ idx → (reinsert idx).run vec = .error .outOfRange vec) := by
  refine ⟨fun inside => ⟨⟨_, run_reinsert inside, rotateFirst_reinserted inside⟩, ?_⟩, run_reinsert_of_le⟩
  rw [run_times_reinsert inside, Nat.mul_comm, rotateFirst_mul inside]

/-- The last of three elements comes back after three moves, and a fourth element is missing. -/
theorem threeElements_reinsert : (times 3 (reinsert 2)).run [5, 6, 7] = .ok ⟨⟩ [5, 6, 7] ∧
    (reinsert 3).run [5, 6, 7] = .error .outOfRange [5, 6, 7] :=
  ⟨((reinsert_moves [5, 6, 7] 2).1 (by decide)).2, (reinsert_moves [5, 6, 7] 3).2 (by decide)⟩

end VisionServer.Vision
