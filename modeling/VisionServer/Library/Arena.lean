/-
This file gives a heap of objects at addresses, the blocks of growing vectors and the moves
between them.
-/

import Mathlib.Logic.Function.Basic
import Mathlib.Tactic.SplitIfs

namespace VisionServer.Library

/-- An address is a place in an allocated buffer. -/
structure Addr where
  buffer : Nat
  index : Nat
deriving DecidableEq

/-- A vector owns a buffer. Its elements are the first places of this buffer. -/
structure Block where
  buffer : Nat
  size : Nat
  capacity : Nat

/-- This is the address of an element. -/
def Block.slot (block : Block) (index : Nat) : Addr := ⟨block.buffer, index⟩

/-- The address lies in the buffer of the vector. -/
def Block.Inside (block : Block) (address : Addr) : Prop :=
  address.buffer = block.buffer ∧ address.index < block.capacity

/-- The address is an element of the vector. -/
def Block.Element (block : Block) (address : Addr) : Prop :=
  address.buffer = block.buffer ∧ address.index < block.size

instance (block : Block) (address : Addr) : Decidable (block.Inside address) :=
  inferInstanceAs (Decidable (_ ∧ _))

instance (block : Block) (address : Addr) : Decidable (block.Element address) :=
  inferInstanceAs (Decidable (_ ∧ _))

theorem Block.slot_inj (block : Block) {first second : Nat} :
    block.slot first = block.slot second ↔ first = second := by
  simp [Block.slot]

theorem Block.Element.eq_slot {block : Block} {address : Addr} (element : block.Element address) :
    address = block.slot address.index := by
  rw [Block.slot, ← element.1]

theorem Block.slot_element {block : Block} {index : Nat} (within : index < block.size) :
    block.Element (block.slot index) := ⟨rfl, within⟩

theorem Block.slot_inside {block : Block} {index : Nat} (within : index < block.capacity) :
    block.Inside (block.slot index) := ⟨rfl, within⟩

variable {Obj : Type}

/-- A move leaves the emptied object at its source. -/
def moveObject (emptied : Obj → Obj) (objects : Addr → Option Obj) (target source : Addr) :
    Addr → Option Obj :=
  match objects source with
  | none => objects
  | some object =>
      Function.update (Function.update objects target (some object)) source (some (emptied object))

section Moves

variable {emptied : Obj → Obj} {objects : Addr → Option Obj} {target source : Addr} {object : Obj}
  (present : objects source = some object)
include present

theorem moveObject_source : moveObject emptied objects target source source =
    some (emptied object) := by
  simp [moveObject, present]

theorem moveObject_target (different : target ≠ source) :
    moveObject emptied objects target source target = some object := by
  simp [moveObject, present, different]

end Moves

theorem moveObject_other {emptied : Obj → Obj} {objects : Addr → Option Obj}
    {target source address : Addr} (first : address ≠ target) (second : address ≠ source) :
    moveObject emptied objects target source address = objects address := by
  unfold moveObject
  cases objects source with
  | none => rfl
  | some object =>
      change Function.update (Function.update objects target _) source _ address = _
      rw [Function.update_of_ne second, Function.update_of_ne first]

/-- The first elements of a buffer are moved to a new buffer and destroyed. -/
def relocated (origin target count : Nat) (objects : Addr → Option Obj) (address : Addr) :
    Option Obj :=
  if address.buffer = target ∧ address.index < count then objects ⟨origin, address.index⟩
  else if address.buffer = origin ∧ address.index < count then none
  else objects address

/-- The relocation takes one more element by a move and a destruction. -/
theorem relocated_succ (emptied : Obj → Obj) {origin target count : Nat}
    (different : target ≠ origin) {objects : Addr → Option Obj} {object : Obj}
    (present : objects ⟨origin, count⟩ = some object) :
    Function.update (moveObject emptied (relocated origin target count objects)
        ⟨target, count⟩ ⟨origin, count⟩) ⟨origin, count⟩ none =
      relocated origin target (count + 1) objects := by
  have source : relocated origin target count objects ⟨origin, count⟩ = some object := by
    simp [relocated, Ne.symm different, present]
  funext address
  by_cases old : address = ⟨origin, count⟩
  · subst old
    simp [relocated, Ne.symm different]
  rw [Function.update_of_ne old]
  by_cases new : address = ⟨target, count⟩
  · subst new
    rw [moveObject_target source old]
    simp [relocated, present]
  · rw [moveObject_other new old]
    obtain ⟨buffer, index⟩ := address
    simp only [Addr.mk.injEq, not_and] at old new
    simp only [relocated]
    split_ifs <;> first
      | rfl
      | omega

end VisionServer.Library
