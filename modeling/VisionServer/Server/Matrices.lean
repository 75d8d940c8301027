/-
This file decides in which histories the pipelines refer to the matrices of stored cameras.
-/

import VisionServer.Camera.Buffers
import VisionServer.Camera.Registration
import VisionServer.Library.Integers
import VisionServer.Server.Sources

namespace VisionServer.Server.Matrices
open Library
open Camera.Listeners (Server Supported)

/-- A pipeline refers to the static default or to a member of the camera at an address. -/
inductive Ref where
  | default
  | camera (address : Addr)
deriving DecidableEq

/-- The registered pipelines do not change. A buffer with this number or a larger one is fresh. -/
structure Attachments where
  server : Server
  pipelines : List BasePipe
  fresh : Nat
  srcMatrix : BasePipe → Ref
  srcDistort : BasePipe → Ref

namespace Attachments

/-- The pipeline takes the addresses of the two members. -/
def setCamera (pipe : BasePipe) (cam : Addr) (s : Attachments) : Attachments :=
  { s with
    srcMatrix := Function.update s.srcMatrix pipe (.camera cam)
    srcDistort := Function.update s.srcDistort pipe (.camera cam) }

/-- The pipeline copies the addresses of another one. -/
def setPipeline (pipe upstream : BasePipe) (s : Attachments) : Attachments :=
  { s with
    srcMatrix := Function.update s.srcMatrix pipe (s.srcMatrix upstream)
    srcDistort := Function.update s.srcDistort pipe (s.srcDistort upstream) }

/-- The index of the first connected camera is stored as an `int16_t`. -/
def firstConnected (connected : Nat → Bool) (s : Attachments) : Int :=
  match (List.range s.server.cameras.size).find? connected with
  | none => -1
  | some i => Int.bmod i (2 ^ 16)

/-- The access `at` throws for a negative index, before anything is attached. -/
def compensate (connected : Nat → Bool) (s : Attachments) : Attachments :=
  let active := s.firstConnected connected
  if active < 0 then s
  else s.pipelines.foldl (fun s pipe => s.setCamera pipe (s.server.cameras.slot active.toNat)) s

/-- This is the selection in `pipelineRunner`, which compares a negative index with the address of
the function `numPipelines`. An exception of `at` attaches nothing. -/
def runnerSelect (address : Nat) (pipe : BasePipe) (idx : Int) (s : Attachments) : Attachments :=
  if idx > 0 ∧ idx ≤ s.server.cameras.size then
    s.setCamera pipe (s.server.cameras.slot (idx.toNat - 1))
  else if idx < 0 ∧ idx ≥ -toInt32 address then
    match s.pipelines[(-idx).toNat - 1]? with
    | none => s
    | some upstream => s.setPipeline pipe upstream
  else s

/-- This is the selection in `runSingle`, which takes the index as it is. -/
def singleSelect (pipe : BasePipe) (cIdx : Int) (s : Attachments) : Attachments :=
  if cIdx > 0 ∧ cIdx ≤ s.server.cameras.size then
    s.setCamera pipe (s.server.cameras.slot cIdx.toNat)
  else s

end Attachments

/-- These are the steps of a history. -/
inductive Op where
  | registry (op : Camera.Listeners.Op)
  | compensate (connected : Nat → Bool)
  | runnerSelect (pipe : BasePipe) (idx : Int)
  | singleSelect (pipe : BasePipe) (cIdx : Int)

/-- A new buffer is a fresh one, and a loop selects the source of a registered pipeline. -/
def step (address : Nat) (s : Attachments) : Op → Option Attachments
  | .registry op =>
      match op.newBuffer with
      | none => (Camera.Listeners.step s.server op).map fun server => { s with server := server }
      | some buffer =>
          if s.fresh ≤ buffer then
            (Camera.Listeners.step s.server op).map fun server =>
              { s with server := server, fresh := buffer + 1 }
          else none
  | .compensate connected => some (s.compensate connected)
  | .runnerSelect pipe idx =>
      if pipe ∈ s.pipelines then some (s.runnerSelect address pipe idx) else none
  | .singleSelect pipe cIdx => if pipe ∈ s.pipelines then some (s.singleSelect pipe cIdx) else none

def machine (address : Nat) : Machine Attachments Op := ⟨step address⟩

/-- The constructor of a pipeline refers to the defaults. -/
def initial (pipelines : List BasePipe) : Attachments :=
  ⟨Camera.Listeners.initial, pipelines, 1, fun _ => .default, fun _ => .default⟩

/-- A reference is valid when its camera is an element of the registry. -/
def Valid (server : Server) : Ref → Prop
  | .default => True
  | .camera address => server.cameras.Element address ∧ server.occupied address = true

/-- Every registered pipeline refers to the defaults or to a stored camera. -/
def Grounded (s : Attachments) : Prop :=
  ∀ pipe ∈ s.pipelines, Valid s.server (s.srcMatrix pipe) ∧ Valid s.server (s.srcDistort pipe)

/-- No registered pipeline refers to a camera. -/
def Detached (s : Attachments) : Prop :=
  ∀ pipe ∈ s.pipelines, s.srcMatrix pipe = .default ∧ s.srcDistort pipe = .default

/-- The registry stays in its buffer unless no pipeline refers to a camera, and `runSingle` does not
read the index behind the last camera. -/
def Steady (s : Attachments) : Op → Prop
  | .registry (.addCamera _ _ _ _) =>
      s.server.running = true ∨ s.server.cameras.size < s.server.cameras.capacity ∨ Detached s
  | .registry (.addCameras _ handles _ _) =>
      s.server.running = true ∨
        s.server.cameras.size + handles.length ≤ s.server.cameras.capacity ∨ Detached s
  | .registry (.setCameras _ _) => s.server.running = true ∨ Detached s
  | .singleSelect _ cIdx => cIdx > 0 → cIdx ≠ s.server.cameras.size
  | _ => True

/-- The registry is well formed, and its buffer is not fresh. -/
structure Placed (s : Attachments) : Prop where
  supported : Supported s.server
  used : s.server.cameras.buffer < s.fresh

/-- An element of the registry is an object. -/
theorem valid_of_element {server : Server} (supported : Supported server) {address : Addr}
    (element : server.cameras.Element address) : Valid server (.camera address) := by
  refine ⟨element, ?_⟩
  rw [element.eq_slot]
  exact supported.laid.element element.2

/-- References into the old block stay valid when the block keeps its buffer and its elements. -/
theorem Valid.keep {before after : Server} (supported : Supported after)
    (buffer : after.cameras.buffer = before.cameras.buffer)
    (size : before.cameras.size ≤ after.cameras.size) {ref : Ref} (valid : Valid before ref) :
    Valid after ref := by
  cases ref with
  | default => trivial
  | camera address =>
      obtain ⟨element, _⟩ := valid
      exact valid_of_element supported ⟨element.1.trans buffer.symm, Nat.lt_of_lt_of_le element.2 size⟩

/-- A block in another buffer invalidates every reference to a camera. -/
theorem Valid.default_of_moved {before after : Server}
    (buffer : after.cameras.buffer ≠ before.cameras.buffer) {ref : Ref} (old : Valid before ref)
    (new : Valid after ref) : ref = .default := by
  cases ref with
  | default => rfl
  | camera address => exact absurd (new.1.1.symm.trans old.1.1) buffer

section Blocks

variable {s next : Attachments} (pipelines : next.pipelines = s.pipelines)
  (matrix : next.srcMatrix = s.srcMatrix) (distort : next.srcDistort = s.srcDistort)
include pipelines matrix distort

/-- The references survive an operation that keeps the elements in place. -/
theorem Grounded.keep (grounded : Grounded s) (supported : Supported next.server)
    (buffer : next.server.cameras.buffer = s.server.cameras.buffer)
    (size : s.server.cameras.size ≤ next.server.cameras.size) : Grounded next := by
  intro pipe member
  rw [pipelines] at member
  obtain ⟨first, second⟩ := grounded pipe member
  rw [matrix, distort]
  exact ⟨first.keep supported buffer size, second.keep supported buffer size⟩

/-- The references survive a move of the registry exactly when there are none. -/
theorem grounded_moved_iff (grounded : Grounded s)
    (buffer : next.server.cameras.buffer ≠ s.server.cameras.buffer) : Grounded next ↔ Detached s := by
  constructor
  · intro after pipe member
    obtain ⟨first, second⟩ := grounded pipe member
    obtain ⟨matrixValid, distortValid⟩ := after pipe (pipelines ▸ member)
    rw [matrix] at matrixValid
    rw [distort] at distortValid
    exact ⟨first.default_of_moved buffer matrixValid, second.default_of_moved buffer distortValid⟩
  · intro detached pipe member
    rw [pipelines] at member
    obtain ⟨first, second⟩ := detached pipe member
    rw [matrix, distort, first, second]
    exact ⟨trivial, trivial⟩

end Blocks

/-- An attachment to a camera is valid exactly when the camera is stored. -/
theorem setCamera_grounded_iff {s : Attachments} (grounded : Grounded s) {pipe : BasePipe}
    (registered : pipe ∈ s.pipelines) (cam : Addr) :
    Grounded (s.setCamera pipe cam) ↔ Valid s.server (.camera cam) := by
  constructor
  · intro after
    have self := (after pipe registered).1
    change Valid s.server (Function.update s.srcMatrix pipe (.camera cam) pipe) at self
    rw [Function.update_self] at self
    exact self
  · intro valid other member
    change Valid s.server (Function.update s.srcMatrix pipe (.camera cam) other) ∧
      Valid s.server (Function.update s.srcDistort pipe (.camera cam) other)
    by_cases same : other = pipe
    · rw [same, Function.update_self, Function.update_self]
      exact ⟨valid, valid⟩
    · rw [Function.update_of_ne same, Function.update_of_ne same]
      exact grounded other member

/-- An attachment to a registered pipeline copies valid references. -/
theorem setPipeline_grounded {s : Attachments} (grounded : Grounded s) (pipe : BasePipe)
    {upstream : BasePipe} (registered : upstream ∈ s.pipelines) :
    Grounded (s.setPipeline pipe upstream) := by
  intro other member
  change Valid s.server (Function.update s.srcMatrix pipe (s.srcMatrix upstream) other) ∧
    Valid s.server (Function.update s.srcDistort pipe (s.srcDistort upstream) other)
  by_cases same : other = pipe
  · rw [same, Function.update_self, Function.update_self]
    exact grounded upstream registered
  · rw [Function.update_of_ne same, Function.update_of_ne same]
    exact grounded other member

/-- The loop of a compensation attaches pipelines to one stored camera. -/
theorem foldl_setCamera_grounded {index : Nat} (pipes : List BasePipe) {s : Attachments}
    (placed : Placed s) (within : index < s.server.cameras.size) (grounded : Grounded s)
    (registered : ∀ pipe ∈ pipes, pipe ∈ s.pipelines) :
    Grounded (pipes.foldl (fun s pipe => s.setCamera pipe (s.server.cameras.slot index)) s) := by
  induction pipes generalizing s with
  | nil => exact grounded
  | cons pipe rest ih =>
      have here := registered pipe List.mem_cons_self
      have stored := valid_of_element placed.supported (Block.slot_element within)
      have attached := (setCamera_grounded_iff grounded here _).mpr stored
      exact ih ⟨placed.supported, placed.used⟩ within attached fun other member =>
        registered other (List.mem_cons_of_mem pipe member)

/-- The stored index of a connected camera is not larger than the real one. -/
theorem firstConnected_lt {s : Attachments} {connected : Nat → Bool}
    (found : ¬ s.firstConnected connected < 0) :
    (s.firstConnected connected).toNat < s.server.cameras.size := by
  unfold Attachments.firstConnected at found ⊢
  cases first : (List.range s.server.cameras.size).find? connected with
  | none =>
      rw [first] at found
      exact absurd (by decide) found
  | some i =>
      have within := List.mem_range.mp (List.mem_of_find?_eq_some first)
      dsimp only
      rw [Int.bmod_def]
      split <;> omega

theorem compensate_grounded {s : Attachments} (placed : Placed s) (grounded : Grounded s)
    (connected : Nat → Bool) : Grounded (s.compensate connected) := by
  unfold Attachments.compensate
  dsimp only
  split
  · exact grounded
  · rename_i found
    exact foldl_setCamera_grounded _ placed (firstConnected_lt found) grounded fun _ member => member

theorem runnerSelect_grounded {s : Attachments} (placed : Placed s) (grounded : Grounded s)
    {pipe : BasePipe} (registered : pipe ∈ s.pipelines) (address : Nat) (idx : Int) :
    Grounded (s.runnerSelect address pipe idx) := by
  unfold Attachments.runnerSelect
  split
  · rename_i range
    rw [setCamera_grounded_iff grounded registered]
    exact valid_of_element placed.supported (Block.slot_element (by omega))
  · split
    · split
      · exact grounded
      · rename_i upstream found
        exact setPipeline_grounded grounded pipe (List.mem_of_getElem? found)
    · exact grounded

/-- The selection of `runSingle` is valid unless it reads behind the last camera. -/
theorem singleSelect_grounded_iff {s : Attachments} (placed : Placed s) (grounded : Grounded s)
    {pipe : BasePipe} (registered : pipe ∈ s.pipelines) (cIdx : Int) :
    Grounded (s.singleSelect pipe cIdx) ↔ (cIdx > 0 → cIdx ≠ s.server.cameras.size) := by
  unfold Attachments.singleSelect
  by_cases range : cIdx > 0 ∧ cIdx ≤ s.server.cameras.size
  · rw [if_pos range, setCamera_grounded_iff grounded registered]
    constructor
    · intro valid _ last
      have within : cIdx.toNat < s.server.cameras.size := valid.1.2
      omega
    · intro before
      have different := before range.1
      exact valid_of_element placed.supported (Block.slot_element (by omega))
  · rw [if_neg range]
    exact iff_of_true grounded fun positive last => range ⟨positive, Int.le_of_eq last⟩

/-- An operation of the registry changes no reference and uses only a fresh buffer. -/
structure Registered (s : Attachments) (op : Camera.Listeners.Op) (next : Attachments) : Prop where
  taken : Camera.Listeners.step s.server op = some next.server
  pipelines : next.pipelines = s.pipelines
  matrix : next.srcMatrix = s.srcMatrix
  distort : next.srcDistort = s.srcDistort
  fresh : ∀ buffer, op.newBuffer = some buffer → s.fresh ≤ buffer ∧ next.fresh = buffer + 1
  unused : op.newBuffer = none → next.fresh = s.fresh

section Steps

variable {address : Nat} {s next : Attachments}

theorem step_registered {op : Camera.Listeners.Op} (taken : step address s (.registry op) = some next) :
    Registered s op next := by
  simp only [step] at taken
  cases new : op.newBuffer with
  | none =>
      rw [new] at taken
      obtain ⟨server, done, shape⟩ := Option.map_eq_some_iff.mp taken
      subst shape
      refine ⟨done, rfl, rfl, rfl, fun buffer other => ?_, fun _ => rfl⟩
      rw [new] at other
      cases other
  | some buffer =>
      rw [new] at taken
      obtain ⟨fresh, taken⟩ := Option.ite_none_right_eq_some.mp taken
      obtain ⟨server, done, shape⟩ := Option.map_eq_some_iff.mp taken
      subst shape
      refine ⟨done, rfl, rfl, rfl, fun other same => ?_, fun other => ?_⟩
      · obtain rfl : buffer = other := Option.some.inj (new.symm.trans same)
        exact ⟨fresh, rfl⟩
      · rw [new] at other
        cases other

/-- The block after an operation lies in the old buffer or in the new one. -/
theorem blockAfter_buffer (server : Server) (op : Camera.Listeners.Op) :
    (Camera.Listeners.blockAfter server op).buffer = server.cameras.buffer ∨
      op.newBuffer = some (Camera.Listeners.blockAfter server op).buffer := by
  cases op with
  | addCamera c buffer capacity handle =>
      simp only [Camera.Listeners.blockAfter]
      split
      · exact Or.inl rfl
      · split
        · exact Or.inl rfl
        · exact Or.inr rfl
  | addCameras source handles buffer capacity =>
      simp only [Camera.Listeners.blockAfter]
      split
      · exact Or.inl rfl
      · split
        · exact Or.inl rfl
        · exact Or.inr rfl
  | setCameras source handles =>
      simp only [Camera.Listeners.blockAfter]
      split
      · exact Or.inl rfl
      · exact Or.inr rfl
  | construct | moveConstruct | moveAssign | setNetworkAdjustable | destroy | setRunning =>
      exact Or.inl rfl

theorem Placed.registered {op : Camera.Listeners.Op} (placed : Placed s)
    (registered : Registered s op next) : Placed next := by
  have supported := Camera.Listeners.step_supported _ _ _ placed.supported registered.taken
  have block := Camera.Listeners.step_cameras registered.taken
  have used := placed.used
  refine ⟨supported, ?_⟩
  rw [block]
  cases new : op.newBuffer with
  | none =>
      have unused := registered.unused new
      rcases blockAfter_buffer s.server op with old | moved
      · omega
      · rw [new] at moved
        cases moved
  | some buffer =>
      obtain ⟨fresh, same⟩ := registered.fresh buffer new
      rcases blockAfter_buffer s.server op with old | moved
      · omega
      · rw [new, Option.some.injEq] at moved
        omega

/-- A change of the registry that leaves the block in place keeps the references. -/
theorem Registered.keep {op : Camera.Listeners.Op} (registered : Registered s op next)
    (placed : Placed s) (grounded : Grounded s)
    (buffer : (Camera.Listeners.blockAfter s.server op).buffer = s.server.cameras.buffer)
    (size : s.server.cameras.size ≤ (Camera.Listeners.blockAfter s.server op).size) :
    Grounded next := by
  have block := Camera.Listeners.step_cameras registered.taken
  rw [← block] at buffer size
  exact grounded.keep registered.pipelines registered.matrix registered.distort
    (placed.registered registered).supported buffer size

/-- A change of the registry that moves the block keeps the references exactly when there are none. -/
theorem Registered.moved_iff {op : Camera.Listeners.Op} (registered : Registered s op next)
    (placed : Placed s) (grounded : Grounded s) {buffer : Nat} (new : op.newBuffer = some buffer)
    (moves : (Camera.Listeners.blockAfter s.server op).buffer = buffer) :
    Grounded next ↔ Detached s := by
  have block := Camera.Listeners.step_cameras registered.taken
  rw [← block] at moves
  have fresh := (registered.fresh buffer new).1
  have used := placed.used
  exact grounded_moved_iff registered.pipelines registered.matrix registered.distort grounded
    (by omega)

/-- An operation of the registry keeps the references exactly when it is steady. -/
theorem registered_grounded_iff {op : Camera.Listeners.Op} (registered : Registered s op next)
    (placed : Placed s) (grounded : Grounded s) : Grounded next ↔ Steady s (.registry op) := by
  cases op with
  | addCamera c buffer capacity handle =>
      have keep := registered.keep placed grounded
      have moved := registered.moved_iff placed grounded rfl
      simp only [Camera.Listeners.blockAfter] at keep moved
      by_cases running : s.server.running = true
      · rw [if_pos running] at keep
        exact iff_of_true (keep rfl (Nat.le_refl _)) (Or.inl running)
      · rw [if_neg running] at keep moved
        by_cases room : s.server.cameras.size < s.server.cameras.capacity
        · rw [if_pos room] at keep
          exact iff_of_true (keep rfl (Nat.le_succ _)) (Or.inr (Or.inl room))
        · rw [if_neg room] at moved
          rw [moved rfl, Steady, or_iff_right running, or_iff_right room]
  | addCameras source handles buffer capacity =>
      have keep := registered.keep placed grounded
      have moved := registered.moved_iff placed grounded rfl
      simp only [Camera.Listeners.blockAfter] at keep moved
      by_cases running : s.server.running = true
      · rw [if_pos running] at keep
        exact iff_of_true (keep rfl (Nat.le_refl _)) (Or.inl running)
      · rw [if_neg running] at keep moved
        by_cases room : s.server.cameras.size + handles.length ≤ s.server.cameras.capacity
        · rw [if_pos room] at keep
          exact iff_of_true (keep rfl (Nat.le_add_right _ _)) (Or.inr (Or.inl room))
        · rw [if_neg room] at moved
          rw [moved rfl, Steady, or_iff_right running, or_iff_right room]
  | setCameras source handles =>
      have keep := registered.keep placed grounded
      have moved := registered.moved_iff placed grounded rfl
      simp only [Camera.Listeners.blockAfter] at keep moved
      by_cases running : s.server.running = true
      · rw [if_pos running] at keep
        exact iff_of_true (keep rfl (Nat.le_refl _)) (Or.inl running)
      · rw [if_neg running] at moved
        rw [moved rfl, Steady, or_iff_right running]
  | construct | moveConstruct | moveAssign | setNetworkAdjustable | destroy | setRunning =>
      exact iff_of_true (registered.keep placed grounded rfl (Nat.le_refl _)) trivial

/-- The selections and the compensation do not touch the registry. -/
theorem foldl_setCamera_server (pipes : List BasePipe) (address : Attachments → Addr)
    (s : Attachments) : (pipes.foldl (fun s pipe => s.setCamera pipe (address s)) s).server = s.server ∧
      (pipes.foldl (fun s pipe => s.setCamera pipe (address s)) s).fresh = s.fresh := by
  induction pipes generalizing s with
  | nil => exact ⟨rfl, rfl⟩
  | cons pipe rest ih => exact ih (s.setCamera pipe (address s))

/-- The registry stays well formed in every step. -/
theorem step_placed (s : Attachments) (op : Op) (next : Attachments) (placed : Placed s)
    (taken : step address s op = some next) : Placed next := by
  cases op with
  | registry op => exact placed.registered (step_registered taken)
  | compensate connected =>
      rw [← Option.some.inj taken, Attachments.compensate]
      split
      · exact placed
      · obtain ⟨server, fresh⟩ := foldl_setCamera_server s.pipelines
          (fun t => t.server.cameras.slot (s.firstConnected connected).toNat) s
        constructor
        · rw [server]
          exact placed.supported
        · rw [server, fresh]
          exact placed.used
  | runnerSelect pipe idx =>
      obtain ⟨_, shape⟩ := Option.ite_none_right_eq_some.mp taken
      rw [← Option.some.inj shape, Attachments.runnerSelect]
      split
      · exact ⟨placed.supported, placed.used⟩
      · split
        · split
          · exact placed
          · exact ⟨placed.supported, placed.used⟩
        · exact placed
  | singleSelect pipe cIdx =>
      obtain ⟨_, shape⟩ := Option.ite_none_right_eq_some.mp taken
      rw [← Option.some.inj shape, Attachments.singleSelect]
      split
      · exact ⟨placed.supported, placed.used⟩
      · exact placed

/-- A step keeps the references valid exactly when it is steady. -/
theorem step_grounded_iff (s : Attachments) (op : Op) (next : Attachments) (placed : Placed s)
    (grounded : Grounded s) (taken : step address s op = some next) :
    Grounded next ↔ Steady s op := by
  cases op with
  | registry op => exact registered_grounded_iff (step_registered taken) placed grounded
  | compensate connected =>
      rw [← Option.some.inj taken]
      exact iff_of_true (compensate_grounded placed grounded connected) trivial
  | runnerSelect pipe idx =>
      obtain ⟨registered, shape⟩ := Option.ite_none_right_eq_some.mp taken
      rw [← Option.some.inj shape]
      exact iff_of_true (runnerSelect_grounded placed grounded registered address idx) trivial
  | singleSelect pipe cIdx =>
      obtain ⟨registered, shape⟩ := Option.ite_none_right_eq_some.mp taken
      rw [← Option.some.inj shape]
      exact singleSelect_grounded_iff placed grounded registered cIdx

end Steps

theorem initial_grounded (pipelines : List BasePipe) : Grounded (initial pipelines) :=
  fun _ _ => ⟨trivial, trivial⟩

/-- Every registered pipeline refers to the defaults or to stored cameras in every state of a history
exactly when the registry stays in its buffer while a pipeline refers to a camera. -/
theorem always_grounded_iff (address : Nat) (pipelines : List BasePipe) (ops : List Op) :
    (machine address).Always Grounded (initial pipelines) ops ↔
      (machine address).Meets Steady (initial pipelines) ops :=
  (machine address).always_iff_meets step_placed step_grounded_iff
    ⟨Camera.Listeners.initial_supported, Nat.zero_lt_one⟩ (initial_grounded pipelines) ops

/-- The second camera makes the vector grow after a compensation. -/
theorem grownRegistry_not_grounded :
    ¬ (machine 0x10000).Always Grounded (initial [.user 1])
      [.registry (.construct ⟨7, 0⟩ "left"), .registry (.addCamera ⟨7, 0⟩ 1 1 1),
        .compensate fun _ => true, .registry (.construct ⟨8, 0⟩ "right"),
        .registry (.addCamera ⟨8, 0⟩ 2 2 2)] := by
  intro always
  have last := always.last (machine 0x10000) rfl
  have stored := (last (.user 1) List.mem_cons_self).1
  exact absurd stored.1.1 (by decide)

end VisionServer.Server.Matrices
