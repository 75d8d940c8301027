/-
This file gives the images that the kernels with one regular loop leave.
-/

import VisionServer.Neon.Blocks

namespace VisionServer.Neon
open Library Library.Aarch64 Library.Assembly

/-- The kernels whose pixels depend on the pixels at the same place. -/
inductive Streamed where
  | threshold
  | bitwiseOr
  | add
  | add3c
  | subtract
deriving DecidableEq

namespace Streamed

def kernel : Streamed → Kernel
  | .threshold => .threshold
  | .bitwiseOr => .bitwiseOr
  | .add => .add
  | .add3c => .add3c
  | .subtract => .subtract

def loop : Streamed → Label
  | .threshold => .threshLoop
  | .bitwiseOr => .bitwiseOrLoop
  | .add => .addLoop
  | .add3c => .add3cLoop
  | .subtract => .subtractLoop

def dest : Streamed → Fin 31
  | .threshold => 1
  | _ => 2

def channels : Streamed → Nat
  | .add3c => 3
  | _ => 1

/-- The pixelwise meaning of each kernel in the memory of its call. -/
def reference (cpu : Cpu) (pixel channel : Nat) : Streamed → Nat
  | .threshold =>
      if (cpu.x 3).toNat % 256 < (cpu.byteAt 0 pixel).toNat then (cpu.byteAt 0 pixel).toNat else 0
  | .bitwiseOr => (cpu.byteAt 0 pixel).toNat ||| (cpu.byteAt 1 pixel).toNat
  | .add => min 255 ((cpu.byteAt 0 pixel).toNat + (cpu.byteAt 1 pixel).toNat)
  | .add3c => min 255 ((cpu.byteAt 0 (3 * pixel + channel)).toNat + (cpu.byteAt 1 pixel).toNat)
  | .subtract => (cpu.byteAt 0 pixel).toNat - (cpu.byteAt 1 pixel).toNat

/-- The bytes that the turns compute. -/
def value (cpu : Cpu) : Streamed → Reads → Nat → Byte
  | .threshold => keepAbove ((cpu.x 3).setWidth 8)
  | .bitwiseOr => zipBytes (· ||| ·)
  | .add => zipBytes uqadd
  | .add3c => zipChannels uqadd
  | .subtract => zipBytes uqsub

/-- The constants of the turns. -/
def Keeps (cpu : Cpu) : Streamed → (Fin 32 → Lanes) → Prop
  | .threshold => fun v => v 3 = fun _ => (cpu.x 3).setWidth 8
  | _ => fun _ => True

variable (s : Streamed)

theorem dests : s.kernel.dests = [(s.dest, s.channels)] := by
  cases s <;> rfl

theorem shape : Loop s.kernel.counter s.loop := by
  cases s with
  | threshold => exact threshLoop_shape
  | bitwiseOr => exact bitwiseOrLoop_shape
  | add => exact addLoop_shape
  | add3c => exact add3cLoop_shape
  | subtract => exact subtractLoop_shape

theorem falls : afterBlock (codeAt s.kernel.entry neon64) = .label s.loop :: codeAt s.loop neon64 := by
  cases s <;> rfl

theorem streams (cpu : Cpu) : Streams s.kernel s.loop cpu :=
  .of_falls (by cases s <;> decide) s.shape s.falls cpu

theorem regular : Regular s.kernel (turnOps s.loop) := by
  cases s with
  | threshold => exact threshold_regular
  | bitwiseOr => exact bitwiseOr_regular
  | add => exact add_regular
  | add3c => exact add3c_regular
  | subtract => exact subtract_regular

theorem back : ∃ rest : Text, afterBlock (codeAt s.loop neon64) = .branch .ne s.loop :: .ret :: rest := by
  cases s <;> exact ⟨_, rfl⟩

theorem pixelwise (cpu : Cpu) :
    Pixelwise (turnOps s.loop) (s.Keeps cpu) s.dest (16 * s.channels) (s.value cpu) := by
  cases s with
  | threshold => exact threshLoop_pixelwise _
  | bitwiseOr => exact bitwiseOrLoop_pixelwise
  | add => exact addLoop_pixelwise
  | add3c => exact add3cLoop_pixelwise
  | subtract => exact subtractLoop_pixelwise

theorem keeps_prepared (cpu : Cpu) : s.Keeps cpu (s.kernel.prepared cpu).v := by
  cases s <;> trivial

/-- The turns compute their bytes from the memory of the call. -/
theorem value_prepared (cpu : Cpu) :
    s.value cpu (s.kernel.prepared cpu).byteAt = s.value cpu cpu.byteAt := by
  have first : (s.kernel.prepared cpu).byteAt 0 = cpu.byteAt 0 :=
    funext fun q => Kernel.prepared_byteAt (by cases s <;> decide) q
  have second : (s.kernel.prepared cpu).byteAt 1 = cpu.byteAt 1 :=
    funext fun q => Kernel.prepared_byteAt (by cases s <;> decide) q
  funext q
  cases s with
  | threshold => rw [value, keepAbove, keepAbove, first]
  | bitwiseOr | add | subtract => rw [value, zipBytes, zipBytes, first, second]
  | add3c => rw [value, zipChannels, zipChannels, first, second]

/-- The bytes of the turns are the pixels of the reference. -/
theorem toNat_value (cpu : Cpu) {pixel channel : Nat} (inside : channel < s.channels) :
    (s.value cpu (s.kernel.prepared cpu).byteAt (s.channels * pixel + channel)).toNat =
      s.reference cpu pixel channel := by
  have place (single : s.channels = 1) : s.channels * pixel + channel = pixel := by
    rw [single] at inside ⊢
    omega
  rw [s.value_prepared]
  cases s with
  | threshold =>
      rw [value, keepAbove, place rfl, toNat_cmhi_and, BitVec.toNat_setWidth]
      rfl
  | bitwiseOr => rw [value, zipBytes, place rfl, BitVec.toNat_or, reference]
  | add => rw [value, zipBytes, place rfl, toNat_uqadd, reference]
  | add3c =>
      have whole : (3 * pixel + channel) / 3 = pixel := by
        change channel < 3 at inside
        omega
      rw [value, zipChannels, toNat_uqadd, reference]
      change min 255 (_ + (cpu.byteAt 1 ((3 * pixel + channel) / 3)).toNat) = _
      rw [whole]
      rfl
  | subtract => rw [value, zipBytes, place rfl, toNat_uqsub, reference]

/-- The destination image fits into the address space. -/
theorem fits (c : BlockCall s.kernel) : s.kernel.pixels c.cpu * s.channels ≤ 2 ^ 64 := by
  have single := s.kernel.pixels_lt c.cpu
  cases s with
  | add3c =>
      have positive : 0 < Kernel.add3c.pixels c.cpu := Nat.mul_pos c.blocks_pos (by decide)
      rcases c.placed (1, 1) (by decide) (2, 3) (by decide) with apart | ⟨_, stride⟩
      · have both := add_le_of_disjoint apart (Nat.mul_pos positive (by decide))
          (Nat.mul_pos positive (by decide))
        exact Nat.le_trans (Nat.le_add_left _ _) both
      · cases stride
  | threshold | bitwiseOr | add | subtract =>
      rw [show channels _ = 1 from rfl, Nat.mul_one]
      exact Nat.le_of_lt single

theorem ends_iff (c : BlockCall s.kernel) (final : Cpu) :
    s.kernel.Ends c.cpu final ↔ final = s.kernel.finished s.loop c.cpu :=
  c.ends_iff_finished (s.streams c.cpu) final

/-- The turns fill the prefix of the destination. -/
theorem finished_mem (c : BlockCall s.kernel) : (s.kernel.finished s.loop c.cpu).mem =
    overwritten (c.cpu.x s.dest) (s.kernel.pixels c.cpu * s.channels)
      (s.value c.cpu (s.kernel.prepared c.cpu).byteAt) c.cpu.mem := by
  have whole : s.kernel.blocks c.cpu * (16 * s.channels) = s.kernel.pixels c.cpu * s.channels :=
    (Nat.mul_assoc ..).symm
  have fits := s.fits c
  have left := c.finished_mem (s.streams c.cpu) (s.pixelwise c.cpu) (s.keeps_prepared c.cpu)
    (by cases s <;> decide) (by rw [whole]; exact fits) (c.placed_of_regular s.regular s.dests)
  rw [whole] at left
  exact left

/-- A byte of the prefix is computed from the memory of the call. -/
theorem finished_byte (c : BlockCall s.kernel) {j : Nat} (inside : j < s.kernel.pixels c.cpu * s.channels) :
    (s.kernel.finished s.loop c.cpu).mem (c.cpu.x s.dest + BitVec.ofNat 64 j) =
      s.value c.cpu (s.kernel.prepared c.cpu).byteAt j := by
  rw [s.finished_mem c]
  exact overwritten_add inside (Nat.lt_of_lt_of_le inside (s.fits c))

/-- The bytes of the prefix are the pixels of the reference. -/
theorem toNat_finished (c : BlockCall s.kernel) {pixel channel : Nat}
    (inside : pixel < s.kernel.pixels c.cpu) (below : channel < s.channels) :
    ((s.kernel.finished s.loop c.cpu).mem
        (c.cpu.x s.dest + BitVec.ofNat 64 (s.channels * pixel + channel))).toNat =
      s.reference c.cpu pixel channel := by
  have next : s.channels * (pixel + 1) ≤ s.channels * s.kernel.pixels c.cpu := Nat.mul_le_mul_left _ inside
  rw [Nat.mul_succ] at next
  rw [s.finished_byte c (by rw [Nat.mul_comm _ s.channels]; omega)]
  exact s.toNat_value c.cpu below

end Streamed

/-- A streamed kernel makes one turn for each block, leaves the pixels of its reference and changes no
other byte. -/
theorem streamed_blocks (s : Streamed) (c : BlockCall s.kernel) :
    ∃ final, ReturnsAfter isa neon64 s.loop (s.kernel.blocks c.cpu) (codeAt s.kernel.entry neon64)
        c.cpu final ∧
      (∀ pixel < s.kernel.pixels c.cpu, ∀ channel < s.channels,
        (final.mem (c.cpu.x s.dest + BitVec.ofNat 64 (s.channels * pixel + channel))).toNat =
          s.reference c.cpu pixel channel) ∧
      ∀ a ∉ imageBytes s.kernel.dests (s.kernel.pixels c.cpu) c.cpu.x, final.mem a = c.cpu.mem a := by
  obtain ⟨rest, back⟩ := s.back
  have after := c.returnsAfter_finished (s.streams c.cpu) s.falls back
  refine ⟨_, after, fun pixel inside channel below => s.toNat_finished c inside below, fun a outside => ?_⟩
  rw [imageBytes_single s.dests] at outside
  rw [s.finished_mem c]
  exact overwritten_of_notMem outside

end VisionServer.Neon
