/-
This file counts the live owners of each resource.
-/

import Mathlib.Data.Finset.Card
import Mathlib.Logic.Function.Basic

namespace VisionServer.Library

variable {Owner Resource : Type} [DecidableEq Resource]

/-- The number of live owners that hold a resource. -/
def holders (live : Finset Owner) (holds : Owner → Resource) (resource : Resource) : Nat :=
  (live.filter fun owner => holds owner = resource).card

/-- A live owner is one of the holders of its resource. -/
theorem holders_pos {live : Finset Owner} {owner : Owner} (alive : owner ∈ live)
    (holds : Owner → Resource) : 0 < holders live holds (holds owner) :=
  Finset.card_pos.mpr ⟨owner, Finset.mem_filter.mpr ⟨alive, rfl⟩⟩

/-- A resource that no live owner holds has no holders. -/
theorem holders_eq_zero {live : Finset Owner} {holds : Owner → Resource} {resource : Resource}
    (unheld : ∀ owner ∈ live, holds owner ≠ resource) : holders live holds resource = 0 := by
  rw [holders, Finset.card_eq_zero, Finset.filter_eq_empty_iff]
  exact fun owner alive => unheld owner alive

variable [DecidableEq Owner]

/-- A dead owner can be given any resource. -/
theorem holders_update_dead {live : Finset Owner} {owner : Owner} (dead : owner ∉ live)
    (holds : Owner → Resource) (given resource : Resource) :
    holders live (Function.update holds owner given) resource = holders live holds resource := by
  unfold holders
  congr 1
  apply Finset.filter_congr
  intro other member
  have different : other ≠ owner := fun same => dead (same ▸ member)
  rw [Function.update_of_ne different]

/-- A new owner adds one holder to the resource that it is given. -/
theorem holders_insert {live : Finset Owner} {owner : Owner} (dead : owner ∉ live)
    (holds : Owner → Resource) (given resource : Resource) :
    holders (insert owner live) (Function.update holds owner given) resource =
      holders live holds resource + if given = resource then 1 else 0 := by
  have others := holders_update_dead dead holds given resource
  unfold holders at others ⊢
  rw [Finset.filter_insert, Function.update_self]
  split
  · rw [Finset.card_insert_of_notMem (by simp [dead]), others]
  · exact others

/-- The death of an owner takes one holder from the resource that it held. -/
theorem holders_erase {live : Finset Owner} {owner : Owner} (alive : owner ∈ live)
    (holds : Owner → Resource) (resource : Resource) :
    holders (live.erase owner) holds resource + (if holds owner = resource then 1 else 0) =
      holders live holds resource := by
  have added := holders_insert (Finset.notMem_erase owner live) holds (holds owner) resource
  rw [Finset.insert_erase alive, Function.update_eq_self] at added
  exact added.symm

/-- An owner that changes its resource moves one holder. -/
theorem holders_update {live : Finset Owner} {owner : Owner} (alive : owner ∈ live)
    (holds : Owner → Resource) (given resource : Resource) :
    holders live (Function.update holds owner given) resource +
        (if holds owner = resource then 1 else 0) =
      holders live holds resource + if given = resource then 1 else 0 := by
  have removed := holders_erase alive holds resource
  have added := holders_insert (Finset.notMem_erase owner live) holds given resource
  rw [Finset.insert_erase alive] at added
  omega

end VisionServer.Library
