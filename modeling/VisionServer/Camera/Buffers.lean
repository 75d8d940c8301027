/-
This file follows the buffer of the camera registry through its operations.
-/

import VisionServer.Camera.Attached

namespace VisionServer.Camera.Listeners
open Library

/-- An operation names the buffer that the registry can move to. -/
def Op.newBuffer : Op → Option Nat
  | .addCamera _ buffer _ _ => some buffer
  | .addCameras _ _ buffer _ => some buffer
  | .setCameras source _ => some source.buffer
  | _ => none

/-- This is the block of the registry after an operation. -/
def blockAfter (s : Server) : Op → Block
  | .addCamera _ buffer capacity _ =>
      if s.running = true then s.cameras
      else if s.cameras.size < s.cameras.capacity then { s.cameras with size := s.cameras.size + 1 }
      else ⟨buffer, s.cameras.size + 1, capacity⟩
  | .addCameras _ handles buffer capacity =>
      if s.running = true then s.cameras
      else if s.cameras.size + handles.length ≤ s.cameras.capacity then
        { s.cameras with size := s.cameras.size + handles.length }
      else ⟨buffer, s.cameras.size + handles.length, capacity⟩
  | .setCameras source _ => if s.running = true then s.cameras else source
  | _ => s.cameras

section Blocks

variable (s : Server)

theorem cameras_insertEnd (source count : Nat) :
    (forUp (Server.insertEnd source) count s).cameras =
      { s.cameras with size := s.cameras.size + count } := by
  induction count with
  | zero => rfl
  | succ count ih =>
      rw [forUp, Server.insertEnd, ih]
      rfl

theorem cameras_clear (buffer count : Nat) : (s.clear buffer count).cameras = s.cameras := by
  unfold Server.clear
  induction count with
  | zero => rfl
  | succ count ih => rw [forUp, cameras_destroy, ih]

theorem cameras_moveAssign (target source : Addr) :
    (s.moveAssign target source).cameras = s.cameras := by
  unfold Server.moveAssign
  split <;> rfl

variable {s} {next : Server}

theorem cameras_registerFrom {index : Nat} {handles : List Nat}
    (taken : s.registerFrom index handles = some next) : next.cameras = s.cameras := by
  induction handles generalizing s index with
  | nil => rw [← Option.some.inj taken]
  | cons handle rest ih =>
      obtain ⟨middle, first, later⟩ := Option.bind_eq_some_iff.mp taken
      rw [ih later, (register_renewed first).cameras]

theorem cameras_emplaceBack {c : Addr} {buffer capacity : Nat}
    (taken : s.emplaceBack c buffer capacity = some next) :
    next.cameras =
      if s.cameras.size < s.cameras.capacity then { s.cameras with size := s.cameras.size + 1 }
      else ⟨buffer, s.cameras.size + 1, capacity⟩ := by
  unfold Server.emplaceBack at taken
  by_cases room : s.cameras.size < s.cameras.capacity
  · simp only [if_pos room, Option.some.injEq] at taken
    rw [if_pos room, ← taken]
    rfl
  · simp only [if_neg room, Option.ite_none_right_eq_some, Option.some.injEq] at taken
    rw [if_neg room, ← taken.2]
    rfl

theorem cameras_reserve {count buffer capacity : Nat}
    (taken : s.reserve count buffer capacity = some next) :
    next.cameras =
      if count ≤ s.cameras.capacity then s.cameras else ⟨buffer, s.cameras.size, capacity⟩ := by
  unfold Server.reserve at taken
  by_cases room : count ≤ s.cameras.capacity
  · simp only [if_pos room, Option.some.injEq] at taken
    rw [if_pos room, taken]
  · simp only [if_neg room, Option.ite_none_right_eq_some, Option.some.injEq] at taken
    rw [if_neg room, ← taken.2]
    rfl

/-- A change that is refused while running keeps the block. -/
theorem cameras_unlessRunning {body : Server → Option Server} {block : Block}
    (done : body s = some next → next.cameras = block)
    (taken : (Server.unlessRunning body s).map Prod.snd = some next) :
    next.cameras = if s.running = true then s.cameras else block := by
  unfold Server.unlessRunning at taken
  by_cases running : s.running = true
  · rw [if_pos running, Option.map_some, Option.some.injEq] at taken
    rw [if_pos running, ← taken]
  · rw [if_neg running, Option.map_map] at taken
    obtain ⟨after, result, same⟩ := Option.map_eq_some_iff.mp taken
    change after = next at same
    rw [same] at result
    rw [if_neg running, done result]

end Blocks

/-- The registry moves to a new buffer when it grows beyond its capacity or is replaced. -/
theorem step_cameras {s next : Server} {op : Op} (taken : step s op = some next) :
    next.cameras = blockAfter s op := by
  cases step_stepped taken with
  | construct | moveConstruct | setRunning => rfl
  | moveAssign target source this other => exact cameras_moveAssign s target source
  | setNetworkAdjustable a handle _ done => exact (setNetworkAdjustable_renewed done).cameras
  | destroy a present outside => exact cameras_destroy s a
  | addCamera c buffer capacity handle _ present changed =>
      apply cameras_unlessRunning _ changed
      intro done
      obtain ⟨middle, emplaced, registered⟩ := Option.bind_eq_some_iff.mp done
      rw [(register_renewed registered).cameras]
      exact cameras_emplaceBack emplaced
  | addCameras source handles buffer capacity _ owns changed =>
      apply cameras_unlessRunning _ changed
      intro done
      obtain ⟨middle, reserved, registered⟩ := Option.bind_eq_some_iff.mp done
      have block := cameras_reserve reserved
      rw [cameras_registerFrom registered, cameras_clear, cameras_insertEnd, block]
      split <;> rfl
  | setCameras source handles _ owns length changed =>
      apply cameras_unlessRunning _ changed
      intro done
      exact cameras_registerFrom done

end VisionServer.Camera.Listeners
