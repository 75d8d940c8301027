/-
This file gives the discipline of a lock that threads hold exclusively or share.
-/

import Mathlib.Logic.Function.Basic

namespace VisionServer.Library

/-- A holder excludes all others or shares the lock. -/
inductive Role where
  | exclusive
  | shared
deriving DecidableEq

variable {Thread : Type}

/-- A thread that holds the lock exclusively is its only holder. -/
def Compatible (roles : Thread → Option Role) : Prop :=
  ∀ thread other, thread ≠ other → roles thread = some .exclusive → roles other = none

/-- The other threads leave room for a new holder. -/
def Grants (roles : Thread → Option Role) (thread : Thread) : Role → Prop
  | .exclusive => ∀ other, other ≠ thread → roles other = none
  | .shared => ∀ other, other ≠ thread → roles other ≠ some .exclusive

variable {roles : Thread → Option Role}

/-- Without a grant some other thread holds the lock in the way. -/
theorem exists_of_not_grants {thread : Thread} {role : Role} (refused : ¬ Grants roles thread role) :
    ∃ other, other ≠ thread ∧ (roles other = some .exclusive ∨
      role = .exclusive ∧ roles other = some .shared) := by
  cases role with
  | exclusive =>
      simp only [Grants, not_forall] at refused
      obtain ⟨other, away, holds⟩ := refused
      refine ⟨other, away, ?_⟩
      cases held : roles other with
      | none => exact absurd held holds
      | some given =>
          cases given with
          | exclusive => exact Or.inl rfl
          | shared => exact Or.inr ⟨rfl, rfl⟩
  | shared =>
      simp only [Grants, not_forall, not_not] at refused
      obtain ⟨other, away, holds⟩ := refused
      exact ⟨other, away, Or.inl holds⟩

variable [DecidableEq Thread]

/-- A thread can keep its role, release it or take one that the others grant. -/
theorem Compatible.set (compatible : Compatible roles) {thread : Thread} {role : Option Role}
    (allowed : role = none ∨ role = roles thread ∨ ∃ given, role = some given ∧
      Grants roles thread given) : Compatible (Function.update roles thread role) := by
  rcases allowed with released | kept | ⟨given, taken, grants⟩
  · intro one other different holds
    subst released
    by_cases first : one = thread
    · rw [first, Function.update_self] at holds
      cases holds
    · rw [Function.update_of_ne first] at holds
      by_cases second : other = thread
      · rw [second, Function.update_self]
      · rw [Function.update_of_ne second]
        exact compatible one other different holds
  · rw [kept, Function.update_eq_self]
    exact compatible
  · intro one other different holds
    subst taken
    by_cases first : one = thread
    · rw [first, Function.update_self, Option.some.injEq] at holds
      subst holds
      have away : other ≠ thread := fun same => different (first.trans same.symm)
      rw [Function.update_of_ne away]
      exact grants other away
    · rw [Function.update_of_ne first] at holds
      by_cases second : other = thread
      · cases given with
        | exclusive => exact absurd (grants one first) (by rw [holds]; exact Option.some_ne_none _)
        | shared => exact absurd holds (grants one first)
      · rw [Function.update_of_ne second]
        exact compatible one other different holds

end VisionServer.Library
