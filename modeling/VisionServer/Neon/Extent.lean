/-
This file decides which calls of the NEON kernels read and write exactly their images.
-/

import VisionServer.Library.Streaming
import VisionServer.Neon.Kernels

namespace VisionServer.Neon
open Library Library.Aarch64 Library.Assembly

/-- The images of a call are its pointer registers with their numbers of channels. -/
def Kernel.images (select : Parameter → Option Nat) (k : Kernel) : List (Fin 31 × Nat) :=
  k.parameters.zipIdx.filterMap fun (parameter, index) =>
    (select parameter).map fun channels => (.ofNat 31 index, channels)

def Parameter.sourceChannels : Parameter → Option Nat
  | .source channels => some channels
  | _ => none

def Parameter.destChannels : Parameter → Option Nat
  | .dest channels => some channels
  | _ => none

def Kernel.sources (k : Kernel) : List (Fin 31 × Nat) := k.images Parameter.sourceChannels

def Kernel.dests (k : Kernel) : List (Fin 31 × Nat) := k.images Parameter.destChannels

def Kernel.counter (k : Kernel) : Fin 31 := .ofNat 31 (k.parameters.idxOf .size)

/-- The bytes of images with a number of pixels. -/
def imageBytes (images : List (Fin 31 × Nat)) (pixels : Nat) (x : Fin 31 → Word) : Set Word :=
  {a | ∃ image ∈ images, a ∈ span (x image.1) (pixels * image.2)}

/-- The pixel count is passed in the lower half of its register. -/
def Kernel.size (k : Kernel) (cpu : Cpu) : Nat := (cpu.x k.counter).toNat % 2 ^ 32

/-- The upper half of the register is left open by the calling convention. -/
def Kernel.upper (k : Kernel) (cpu : Cpu) : Nat := (cpu.x k.counter).toNat / 2 ^ 32

/-- A call passes images whose bytes are apart from each other. -/
structure Call (k : Kernel) where
  cpu : Cpu
  fresh : cpu.trace = []
  size_lt : k.size cpu < 2 ^ 31
  disjoint : Disjoint (imageBytes k.sources (k.size cpu) cpu.x) (imageBytes k.dests (k.size cpu) cpu.x)

namespace Call

variable {k : Kernel}

def size (c : Call k) : Nat := k.size c.cpu

def upper (c : Call k) : Nat := k.upper c.cpu

def sourceBytes (c : Call k) : Set Word := imageBytes k.sources c.size c.cpu.x

def destBytes (c : Call k) : Set Word := imageBytes k.dests c.size c.cpu.x

/-- The call returns in a state. -/
def Ends (c : Call k) (final : Cpu) : Prop := Returns isa neon64 (codeAt k.entry neon64) c.cpu final

/-- The kernel returns, it reads inside its sources, and it writes exactly its destination image. -/
def Exact (c : Call k) : Prop :=
  ∃ final, c.Ends final ∧ final.touched .load ⊆ c.sourceBytes ∧ final.touched .store = c.destBytes ∧
    ∀ a, a ∉ c.destBytes → final.mem a = c.cpu.mem a

/-- The calls that the kernels serve. -/
def Fits : {k : Kernel} → Call k → Prop
  | .threshold, c => 0 < c.size ∧ 16 ∣ c.size
  | .thresholdBinary, _ => False
  | .compare3Add, c => 0 < c.size ∧ 16 ∣ c.size
  | .wst, c => c.size = 16 ∧ c.upper = 0 ∧ c.cpu.x 3 = c.cpu.x 1 + 16
  | .deinterlaceWstb, c => 0 < c.size ∧ 16 ∣ c.size ∧ c.upper = 0
  | .deinterlaceTogray, c => 0 < c.size ∧ c.upper = 0
  | .bitwiseOr, c => 0 < c.size ∧ 16 ∣ c.size ∧ c.upper = 0
  | .bitwiseOr3c, c => c.size = 16 ∧ c.upper = 0
  | .add, c => 0 < c.size ∧ 16 ∣ c.size ∧ c.upper = 0
  | .add3c, c => 0 < c.size ∧ 16 ∣ c.size ∧ c.upper = 0
  | .add3c2, c => 0 < c.size ∧ 16 ∣ c.size ∧ c.upper = 0
  | .subtract, c => 0 < c.size ∧ 16 ∣ c.size ∧ c.upper = 0

/-- Only one state ends a call, and it decides whether the call is exact. -/
theorem exact_iff_of_ends {c : Call k} {t : Cpu} (ends : ∀ final, c.Ends final ↔ final = t) :
    c.Exact ↔ t.touched .load ⊆ c.sourceBytes ∧ t.touched .store = c.destBytes := by
  constructor
  · intro given
    obtain ⟨final, taken, reads, writes, _⟩ := given
    rw [(ends final).mp taken] at reads writes
    exact ⟨reads, writes⟩
  · intro given
    obtain ⟨reads, writes⟩ := given
    have taken := (ends t).mpr rfl
    refine ⟨t, taken, reads, writes, fun a outside => frame_of_returns taken ?_⟩
    rw [writes]
    exact outside

theorem touched_fresh (c : Call k) (direction : Direction) : c.cpu.touched direction = ∅ := by
  simp [Cpu.touched, c.fresh]

end Call

/-- The touches of a regular turn are one block of sixteen pixels of each image. -/
structure Regular (k : Kernel) (ops : List Op) : Prop where
  contiguous : ∀ t ∈ touches ops, t.offset = 0 ∧ t.bytes = advance t.n ops
  loads : ∀ t ∈ touches ops, t.direction = .load →
    ∃ image ∈ k.sources, t.n = image.1 ∧ t.bytes = 16 * image.2
  stores : ∀ t ∈ touches ops, t.direction = .store →
    ∃ image ∈ k.dests, t.n = image.1 ∧ t.bytes = 16 * image.2
  covers : ∀ image ∈ k.dests,
    ∃ t ∈ touches ops, t.direction = .store ∧ t.n = image.1 ∧ t.bytes = 16 * image.2
  single : ∃ d channels, k.dests = [(d, channels)] ∧ 0 < channels ∧ channels ≤ 3

theorem imageBytes_mono {images : List (Fin 31 × Nat)} {few many : Nat} (fewer : few ≤ many)
    (x : Fin 31 → Word) : imageBytes images few x ⊆ imageBytes images many x := by
  intro a given
  obtain ⟨image, member, found⟩ := given
  exact ⟨image, member, span_mono (Nat.mul_le_mul_right _ fewer) found⟩

theorem imageBytes_single {images : List (Fin 31 × Nat)} {d : Fin 31} {channels : Nat}
    (single : images = [(d, channels)]) (n : Nat) (x : Fin 31 → Word) :
    imageBytes images n x = span (x d) (n * channels) := by
  ext a
  simp [imageBytes, single]

/-- The bytes of one image determine its number of pixels. -/
theorem imageBytes_single_eq_iff {d : Fin 31} {channels n pixels : Nat} {images : List (Fin 31 × Nat)}
    {x : Fin 31 → Word} (single : images = [(d, channels)]) (positive : 0 < channels)
    (few : channels ≤ 3) (small : pixels < 2 ^ 31) :
    imageBytes images n x = imageBytes images pixels x ↔ n = pixels := by
  have bound : pixels * channels ≤ pixels * 3 := Nat.mul_le_mul_left pixels few
  rw [imageBytes_single single, imageBytes_single single, span_eq_iff (by omega)]
  exact Nat.mul_left_inj (by omega)

namespace Regular

variable {k : Kernel} {ops : List Op} (regular : Regular k ops) {x : Fin 31 → Word} {n : Nat}
include regular

/-- Regular turns read bytes of their sources. -/
theorem loads_subset : loopFootprint .load ops n x ⊆ imageBytes k.sources (n * 16) x := by
  rw [loopFootprint_contiguous regular.contiguous]
  intro a given
  obtain ⟨t, member, toward, found⟩ := given
  obtain ⟨image, source, same, bytes⟩ := regular.loads t member toward
  rw [same, bytes, ← Nat.mul_assoc] at found
  exact ⟨image, source, found⟩

/-- Regular turns write all bytes of their blocks. -/
theorem stores_eq : loopFootprint .store ops n x = imageBytes k.dests (n * 16) x := by
  rw [loopFootprint_contiguous regular.contiguous]
  ext a
  constructor
  · intro given
    obtain ⟨t, member, toward, found⟩ := given
    obtain ⟨image, dest, same, bytes⟩ := regular.stores t member toward
    rw [same, bytes, ← Nat.mul_assoc] at found
    exact ⟨image, dest, found⟩
  · intro given
    obtain ⟨image, dest, found⟩ := given
    obtain ⟨t, member, toward, same, bytes⟩ := regular.covers image dest
    rw [Nat.mul_assoc, ← same, ← bytes] at found
    exact ⟨t, member, toward, found⟩

/-- A call that makes regular turns is exact when the turns are as many blocks as its images have. -/
theorem exact_iff {c : Call k} {t : Cpu} (ends : ∀ final, c.Ends final ↔ final = t)
    (touched : ∀ direction, t.touched direction =
      c.cpu.touched direction ∪ loopFootprint direction ops n c.cpu.x) :
    c.Exact ↔ n * 16 = c.size := by
  rw [Call.exact_iff_of_ends ends, touched, touched, c.touched_fresh, c.touched_fresh,
    Set.empty_union, Set.empty_union, regular.stores_eq]
  obtain ⟨d, channels, dests, positive, few⟩ := regular.single
  constructor
  · intro given
    obtain ⟨_, writes⟩ := given
    exact (imageBytes_single_eq_iff dests positive few c.size_lt).mp writes
  · intro same
    refine ⟨?_, ?_⟩
    · rw [Call.sourceBytes, ← same]
      exact regular.loads_subset
    · rw [Call.destBytes, ← same]

end Regular

/-- The instructions of a turn come before the subtraction from the counter. -/
def turnOps (loop : Label) : List Op := (block (codeAt loop neon64)).dropLast

/-- A loop makes its turns while the counter is not zero, and then it returns. -/
structure Loop (counter : Fin 31) (loop : Label) : Prop where
  turn : Turn counter 1 (turnOps loop)
  body : block (codeAt loop neon64) = turnOps loop ++ [.subs counter counter 1]
  leaves : ∃ leave, afterBlock (codeAt loop neon64) = .branch .ne loop :: leave ∧
    ∀ t final, t.flags.z = true → (Returns isa neon64 leave t final ↔ final = t)

/-- A loop ends in the state after its turns. -/
theorem Loop.returns_iff {counter : Fin 31} {loop : Label} (shape : Loop counter loop) (s final : Cpu) :
    Returns isa neon64 (codeAt loop neon64) s final ↔
      final = (execAll isa (turnOps loop ++ [.subs counter counter 1]))^[turns (s.x counter)] s := by
  obtain ⟨leave, back, leaves⟩ := shape.leaves
  rw [returns_countdown shape.turn shape.body back s final]
  exact leaves _ final (countdown_z shape.turn s)

/-- A loop ends after its turns. -/
theorem Loop.exists_end {counter : Fin 31} {loop : Label} (shape : Loop counter loop) (s : Cpu) :
    ∃ t, Walked (turnOps loop) counter 1 (turns (s.x counter)) s t ∧
      ∀ final, Returns isa neon64 (codeAt loop neon64) s final ↔ final = t :=
  ⟨_, walked_iterate shape.turn _ s, shape.returns_iff s⟩

/-- The state after the code before the first label or branch of a kernel. -/
def Call.prepared {k : Kernel} (c : Call k) : Cpu := execAll isa (block (codeAt k.entry neon64)) c.cpu

/-- The code before the loops only gives the counter its number of blocks. -/
structure Call.Prepares {k : Kernel} (c : Call k) (count : Word) : Prop where
  silent : c.prepared.trace = c.cpu.trace
  registers : c.prepared.x = Function.update c.cpu.x k.counter count

/-- Turns from the prepared state have the footprint of turns from the call. -/
theorem Call.Prepares.touched {k : Kernel} {c : Call k} {count : Word} {ops : List Op} {n : Nat} {t : Cpu}
    (prepares : c.Prepares count) (turn : Turn k.counter 1 ops)
    (walked : Walked ops k.counter 1 n c.prepared t) (direction : Direction) :
    t.touched direction = c.cpu.touched direction ∪ loopFootprint direction ops n c.cpu.x := by
  rw [walked.touched direction, touched_of_trace_eq prepares.silent]
  congr 1
  apply loopFootprint_congr
  intro touch member
  rw [prepares.registers, Function.update_of_ne (turn.apart touch member)]

/-- A call that enters a loop has the footprint of the turns. -/
theorem Loop.exists_ends {k : Kernel} {c : Call k} {loop : Label} {count : Word}
    (shape : Loop k.counter loop) (prepares : c.Prepares count)
    (enters : ∀ final, c.Ends final ↔ Returns isa neon64 (codeAt loop neon64) c.prepared final) :
    ∃ t, (∀ final, c.Ends final ↔ final = t) ∧ ∀ direction, t.touched direction =
      c.cpu.touched direction ∪ loopFootprint direction (turnOps loop) (turns count) c.cpu.x := by
  obtain ⟨t, walked, same⟩ := shape.exists_end c.prepared
  have counted : c.prepared.x k.counter = count := by rw [prepares.registers, Function.update_self]
  rw [counted] at walked
  exact ⟨t, fun final => (enters final).trans (same final), prepares.touched shape.turn walked⟩

/-- A kernel that falls into its loop enters it. -/
theorem Call.ends_iff_of_falls {k : Kernel} (c : Call k) {loop : Label}
    (falls : afterBlock (codeAt k.entry neon64) = .label loop :: codeAt loop neon64) (final : Cpu) :
    c.Ends final ↔ Returns isa neon64 (codeAt loop neon64) c.prepared final := by
  unfold Call.Ends Call.prepared
  rw [returns_block, falls, returns_label]

/-- A kernel with one regular loop is exact when its counter gives the blocks of its images. -/
theorem exact_iff_turns {k : Kernel} (c : Call k) {loop : Label} {count : Word}
    (shape : Loop k.counter loop) (regular : Regular k (turnOps loop)) (prepares : c.Prepares count)
    (falls : afterBlock (codeAt k.entry neon64) = .label loop :: codeAt loop neon64) :
    c.Exact ↔ turns count * 16 = c.size := by
  obtain ⟨t, ends, touched⟩ := shape.exists_ends prepares (c.ends_iff_of_falls falls)
  exact regular.exact_iff ends touched

section Counts

theorem lsr_w_toNat (v : Word) : ((v.setWidth 32 >>> 4).setWidth 64).toNat = v.toNat % 2 ^ 32 / 16 := by
  simp only [BitVec.toNat_setWidth, BitVec.toNat_ushiftRight, Nat.shiftRight_eq_div_pow]
  omega

theorem lsr_x_toNat (v : Word) : (v >>> 4).toNat = v.toNat / 16 := by
  rw [BitVec.toNat_ushiftRight, Nat.shiftRight_eq_div_pow]

variable {k : Kernel} (c : Call k)

/-- The size register consists of the open upper half and the pixel count. -/
theorem Call.toNat_counter : (c.cpu.x k.counter).toNat = c.upper * 2 ^ 32 + c.size := by
  rw [Nat.mul_comm]
  exact (Nat.div_add_mod _ _).symm

theorem turns_lower {count : Word} (lower : count.toNat = c.size / 16) :
    turns count * 16 = c.size ↔ 0 < c.size ∧ 16 ∣ c.size := by
  have small : c.size < 2 ^ 31 := c.size_lt
  rw [turns_eq, lower]
  split <;> omega

theorem turns_whole {count : Word} (whole : count.toNat = (c.cpu.x k.counter).toNat / 16) :
    turns count * 16 = c.size ↔ 0 < c.size ∧ 16 ∣ c.size ∧ c.upper = 0 := by
  have small : c.size < 2 ^ 31 := c.size_lt
  rw [turns_eq, whole, c.toNat_counter]
  split <;> omega

end Counts

section Regular

theorem threshLoop_shape : Loop 2 .threshLoop :=
  ⟨⟨by decide, by decide, by decide⟩, rfl, _, rfl, fun _ _ _ => returns_ret⟩

theorem threshold_regular : Regular .threshold (turnOps .threshLoop) :=
  ⟨by decide, by decide, by decide, by decide, 1, 1, rfl, by decide, by decide⟩

theorem threshold_exact_iff (c : Call .threshold) : c.Exact ↔ c.Fits :=
  (exact_iff_turns c threshLoop_shape threshold_regular ⟨rfl, rfl⟩ rfl).trans
    (turns_lower c (lsr_w_toNat _))

theorem cmp3AddLoop_shape : Loop 5 .cmp3AddLoop :=
  ⟨⟨by decide, by decide, by decide⟩, rfl, _, rfl, fun _ _ _ => returns_ret⟩

theorem compare3Add_regular : Regular .compare3Add (turnOps .cmp3AddLoop) :=
  ⟨by decide, by decide, by decide, by decide, 4, 1, rfl, by decide, by decide⟩

theorem compare3Add_exact_iff (c : Call .compare3Add) : c.Exact ↔ c.Fits :=
  (exact_iff_turns c cmp3AddLoop_shape compare3Add_regular ⟨rfl, rfl⟩ rfl).trans
    (turns_lower c (lsr_w_toNat _))

theorem bitwiseOrLoop_shape : Loop 3 .bitwiseOrLoop :=
  ⟨⟨by decide, by decide, by decide⟩, rfl, _, rfl, fun _ _ _ => returns_ret⟩

theorem bitwiseOr_regular : Regular .bitwiseOr (turnOps .bitwiseOrLoop) :=
  ⟨by decide, by decide, by decide, by decide, 2, 1, rfl, by decide, by decide⟩

theorem bitwiseOr_exact_iff (c : Call .bitwiseOr) : c.Exact ↔ c.Fits :=
  (exact_iff_turns c bitwiseOrLoop_shape bitwiseOr_regular ⟨rfl, rfl⟩ rfl).trans
    (turns_whole c (lsr_x_toNat _))

theorem addLoop_shape : Loop 3 .addLoop :=
  ⟨⟨by decide, by decide, by decide⟩, rfl, _, rfl, fun _ _ _ => returns_ret⟩

theorem add_regular : Regular .add (turnOps .addLoop) :=
  ⟨by decide, by decide, by decide, by decide, 2, 1, rfl, by decide, by decide⟩

theorem add_exact_iff (c : Call .add) : c.Exact ↔ c.Fits :=
  (exact_iff_turns c addLoop_shape add_regular ⟨rfl, rfl⟩ rfl).trans (turns_whole c (lsr_x_toNat _))

theorem add3cLoop_shape : Loop 3 .add3cLoop :=
  ⟨⟨by decide, by decide, by decide⟩, rfl, _, rfl, fun _ _ _ => returns_ret⟩

theorem add3c_regular : Regular .add3c (turnOps .add3cLoop) :=
  ⟨by decide, by decide, by decide, by decide, 2, 3, rfl, by decide, by decide⟩

theorem add3c_exact_iff (c : Call .add3c) : c.Exact ↔ c.Fits :=
  (exact_iff_turns c add3cLoop_shape add3c_regular ⟨rfl, rfl⟩ rfl).trans
    (turns_whole c (lsr_x_toNat _))

theorem subtractLoop_shape : Loop 3 .subtractLoop :=
  ⟨⟨by decide, by decide, by decide⟩, rfl, _, rfl, fun _ _ _ => returns_ret⟩

theorem subtract_regular : Regular .subtract (turnOps .subtractLoop) :=
  ⟨by decide, by decide, by decide, by decide, 2, 1, rfl, by decide, by decide⟩

theorem subtract_exact_iff (c : Call .subtract) : c.Exact ↔ c.Fits :=
  (exact_iff_turns c subtractLoop_shape subtract_regular ⟨rfl, rfl⟩ rfl).trans
    (turns_whole c (lsr_x_toNat _))

end Regular

end VisionServer.Neon
