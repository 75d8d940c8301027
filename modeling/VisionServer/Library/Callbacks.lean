/-
This file gives listeners that capture the place of an object, and the handles by which the objects
own them.
-/

import Mathlib.Data.List.Basic
import Mathlib.Logic.Function.Basic
import Mathlib.Tactic.SplitIfs

namespace VisionServer.Library

/-- A registered listener keeps the place that it captured. -/
structure Listener (Place Topic : Type) where
  id : Nat
  captured : Place
  topic : Topic
deriving DecidableEq

variable {Place Topic : Type}

/-- No listener has the handle zero, so its removal does nothing. -/
def removeListener (id : Nat) (registered : List (Listener Place Topic)) :
    List (Listener Place Topic) :=
  registered.filter fun listener => listener.id ≠ id

theorem mem_removeListener {id : Nat} {registered : List (Listener Place Topic)}
    {listener : Listener Place Topic} :
    listener ∈ removeListener id registered ↔ listener ∈ registered ∧ listener.id ≠ id := by
  simp [removeListener]

theorem removeListener_zero {registered : List (Listener Place Topic)}
    (numbered : ∀ listener ∈ registered, listener.id ≠ 0) :
    removeListener 0 registered = registered := by
  apply List.filter_eq_self.mpr
  intro listener member
  simpa using numbered listener member

/-- Each handle in use belongs to one place and to a registered listener. -/
structure Owned (handles : Place → Nat) (registered : List (Listener Place Topic)) : Prop where
  numbered : ∀ listener ∈ registered, listener.id ≠ 0
  held : ∀ place, handles place ≠ 0 → ∃ listener ∈ registered, listener.id = handles place
  unique : ∀ first second, handles first ≠ 0 → handles first = handles second → first = second

/-- Each listener captured the place that holds its handle. -/
def Live (handles : Place → Nat) (registered : List (Listener Place Topic)) : Prop :=
  ∀ listener ∈ registered, handles listener.captured = listener.id

variable {handles : Place → Nat} {registered : List (Listener Place Topic)}

/-- A live listener captured the only place with its handle. -/
theorem Owned.captured_eq (owned : Owned handles registered) (live : Live handles registered)
    {listener : Listener Place Topic} (member : listener ∈ registered) {place : Place}
    (handle : handles place = listener.id) : listener.captured = place := by
  have captured := live listener member
  have numbered := owned.numbered listener member
  exact owned.unique _ _ (captured ▸ numbered) (captured.trans handle.symm)

/-- A listener outlives the removal of the handle of another place. -/
theorem Owned.mem_of_ne (owned : Owned handles registered) {listener : Listener Place Topic}
    (member : listener ∈ registered) {own other : Place} (handle : handles own = listener.id)
    (different : own ≠ other) : listener ∈ removeListener (handles other) registered := by
  refine mem_removeListener.mpr ⟨member, fun same => different ?_⟩
  have numbered := owned.numbered listener member
  exact owned.unique _ _ (handle ▸ numbered) (handle.trans same)

variable [DecidableEq Place]

/-- A move takes the handle along. -/
def moveHandle (handles : Place → Nat) (target source place : Place) : Nat :=
  if place = source then 0 else if place = target then handles source else handles place

theorem Owned.move (owned : Owned handles registered) (target source : Place) :
    Owned (moveHandle handles target source) registered := by
  have away (place : Place) (used : moveHandle handles target source place ≠ 0) :
      place ≠ source := by
    rintro rfl
    exact used (if_pos rfl)
  refine ⟨owned.numbered, fun place used => ?_, fun first second used same => ?_⟩
  · have placeAway := away place used
    simp only [moveHandle, if_neg placeAway] at used ⊢
    split_ifs at used ⊢
    · exact owned.held source used
    · exact owned.held place used
  · have firstAway := away first used
    have secondAway := away second (same ▸ used)
    simp only [moveHandle, if_neg firstAway, if_neg secondAway] at used same
    split_ifs at used same with here there there
    · rw [here, there]
    · exact absurd (owned.unique _ _ used same).symm secondAway
    · exact absurd (owned.unique _ _ used same) firstAway
    · exact owned.unique _ _ used same

/-- The death of an object removes its listener. -/
theorem Owned.release (owned : Owned handles registered) (place : Place) :
    Owned (Function.update handles place 0) (removeListener (handles place) registered) := by
  have value (other : Place) (used : Function.update handles place 0 other ≠ 0) :
      other ≠ place ∧ Function.update handles place 0 other = handles other := by
    have different : other ≠ place := by
      rintro rfl
      exact used (Function.update_self ..)
    exact ⟨different, Function.update_of_ne different ..⟩
  refine ⟨fun listener member => ?_, fun other used => ?_, fun first second used same => ?_⟩
  · exact owned.numbered listener (mem_removeListener.mp member).1
  · obtain ⟨different, handle⟩ := value other used
    rw [handle] at used ⊢
    obtain ⟨listener, member, id⟩ := owned.held other used
    exact ⟨listener, owned.mem_of_ne member id.symm different, id⟩
  · have firstHandle := (value first used).2
    have secondHandle := (value second (same ▸ used)).2
    rw [firstHandle] at used same
    rw [secondHandle] at same
    exact owned.unique _ _ used same

/-- A new registration replaces the listener of its object. -/
theorem Owned.renew (owned : Owned handles registered) (place : Place)
    {listener : Listener Place Topic} (numbered : listener.id ≠ 0)
    (unused : ∀ other ∈ removeListener (handles place) registered, other.id ≠ listener.id) :
    Owned (Function.update handles place listener.id)
      (removeListener (handles place) registered ++ [listener]) := by
  have fresh (other : Place) (different : other ≠ place) : handles other ≠ listener.id := by
    intro same
    have used : handles other ≠ 0 := by rw [same]; exact numbered
    obtain ⟨holder, member, id⟩ := owned.held other used
    exact unused holder (owned.mem_of_ne member id.symm different) (id.trans same)
  refine ⟨fun other member => ?_, fun other used => ?_, fun first second used same => ?_⟩
  · rcases List.mem_append.mp member with kept | new
    · exact owned.numbered other (mem_removeListener.mp kept).1
    · rw [List.mem_singleton.mp new]
      exact numbered
  · by_cases here : other = place
    · subst here
      rw [Function.update_self]
      exact ⟨listener, List.mem_append_right _ (List.mem_singleton_self _), rfl⟩
    · rw [Function.update_of_ne here] at used ⊢
      obtain ⟨holder, member, id⟩ := owned.held other used
      exact ⟨holder, List.mem_append_left _ (owned.mem_of_ne member id.symm here), id⟩
  · by_cases here : first = place <;> by_cases there : second = place
    · rw [here, there]
    · subst here
      rw [Function.update_self, Function.update_of_ne there] at same
      exact absurd same.symm (fresh second there)
    · subst there
      rw [Function.update_self, Function.update_of_ne here] at same
      exact absurd same (fresh first here)
    · rw [Function.update_of_ne here] at used same
      rw [Function.update_of_ne there] at same
      exact owned.unique _ _ used same

/-- The other listeners stay live when an object dies. -/
theorem Live.release (live : Live handles registered) (place : Place) :
    Live (Function.update handles place 0) (removeListener (handles place) registered) := by
  intro listener member
  obtain ⟨before, other⟩ := mem_removeListener.mp member
  have captured := live listener before
  have away : listener.captured ≠ place := by
    rintro rfl
    exact other captured.symm
  rw [Function.update_of_ne away]
  exact captured

/-- A move keeps the listeners live exactly when both its places have no listener. -/
theorem Live.move_iff (owned : Owned handles registered) (live : Live handles registered)
    (target source : Place) :
    Live (moveHandle handles target source) registered ↔
      handles target = 0 ∧ handles source = 0 := by
  constructor
  · intro after
    have kept (place : Place) (used : handles place ≠ 0) :
        moveHandle handles target source place = handles place := by
      obtain ⟨listener, member, id⟩ := owned.held place used
      have captured := owned.captured_eq live member id.symm
      have now := after listener member
      rwa [captured, id] at now
    have emptied : handles source = 0 := by
      by_contra used
      have now := kept source used
      rw [moveHandle, if_pos rfl] at now
      exact used now.symm
    refine ⟨?_, emptied⟩
    by_contra used
    have different : target ≠ source := by
      rintro rfl
      exact used emptied
    have now := kept target used
    rw [moveHandle, if_neg different, if_pos rfl, emptied] at now
    exact used now.symm
  · rintro ⟨free, emptied⟩ listener member
    have captured := live listener member
    have numbered := owned.numbered listener member
    unfold moveHandle
    split_ifs with here there
    · rw [here, emptied] at captured
      exact absurd captured.symm numbered
    · rw [there, free] at captured
      exact absurd captured.symm numbered
    · exact captured

end VisionServer.Library
