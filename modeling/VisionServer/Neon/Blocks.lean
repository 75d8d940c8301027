/-
This file gives the memory after the calls of the NEON kernels that work byte by byte.
-/

import VisionServer.Neon.Turns

namespace VisionServer.Neon
open Library Library.Aarch64 Library.Assembly

namespace Kernel

variable (k : Kernel) (cpu : Cpu)

/-- The kernels that shift the lower half of the size register ignore its upper half. -/
def narrow : Kernel → Bool
  | .threshold => true
  | .thresholdBinary => true
  | .compare3Add => true
  | _ => false

/-- The pixel count as the kernel finds it in its size register. -/
def count : Nat := if k.narrow then k.size cpu else (cpu.x k.counter).toNat

def blocks : Nat := k.count cpu / 16

/-- The pixels of the whole blocks. -/
def pixels : Nat := k.blocks cpu * 16

/-- The kernel returns in a state. -/
def Ends (final : Cpu) : Prop := Returns isa neon64 (codeAt k.entry neon64) cpu final

/-- The state after the code before the first label or branch. -/
def prepared : Cpu := execAll isa (block (codeAt k.entry neon64)) cpu

/-- Each source is apart from the destination, or it starts there with the same number of channels. -/
def Placed : Prop :=
  ∀ source ∈ k.sources, ∀ dest ∈ k.dests,
    Disjoint (span (cpu.x source.1) (k.pixels cpu * source.2)) (span (cpu.x dest.1) (k.pixels cpu * dest.2)) ∨
      cpu.x source.1 = cpu.x dest.1 ∧ source.2 = dest.2

theorem pixels_le : k.pixels cpu ≤ k.count cpu := Nat.div_mul_le_self _ _

theorem count_lt : k.count cpu < 2 ^ 64 := by
  unfold count
  split
  · exact Nat.lt_of_lt_of_le (Nat.mod_lt _ (by decide)) (by decide)
  · exact (cpu.x k.counter).isLt

theorem pixels_lt : k.pixels cpu < 2 ^ 64 := Nat.lt_of_le_of_lt (k.pixels_le cpu) (k.count_lt cpu)

variable {k cpu}

/-- Images that are far from each other are placed. -/
theorem placed_of_far (far : ∀ source ∈ k.sources, ∀ dest ∈ k.dests,
    k.pixels cpu * dest.2 ≤ (cpu.x source.1 - cpu.x dest.1).toNat ∧
      k.pixels cpu * source.2 ≤ (cpu.x dest.1 - cpu.x source.1).toNat) : k.Placed cpu := by
  intro source member dest listed
  obtain ⟨before, after⟩ := far source member dest listed
  exact Or.inl (disjoint_of_far before after)

theorem prepared_mem : (k.prepared cpu).mem = cpu.mem := by
  cases k <;> rfl

theorem prepared_x {r : Fin 31} (apart : r ≠ k.counter) : (k.prepared cpu).x r = cpu.x r := by
  cases k with
  | deinterlaceTogray => rfl
  | _ => exact Function.update_of_ne apart _ _

/-- The counter of a loop over blocks is the number of blocks. -/
theorem prepared_counter (blockwise : k ≠ .deinterlaceTogray) :
    ((k.prepared cpu).x k.counter).toNat = k.blocks cpu := by
  cases k with
  | threshold | thresholdBinary | compare3Add => exact lsr_w_toNat _
  | deinterlaceTogray => exact absurd rfl blockwise
  | wst | deinterlaceWstb | bitwiseOr | bitwiseOr3c | add | add3c | add3c2 | subtract => exact lsr_x_toNat _

end Kernel

/-- A call passes at least one block, and it places its destination apart or in place. -/
structure BlockCall (k : Kernel) where
  cpu : Cpu
  enough : 16 ≤ k.count cpu
  placed : k.Placed cpu

/-- The state after one turn of a loop for each block. -/
def Kernel.finished (k : Kernel) (loop : Label) (cpu : Cpu) : Cpu :=
  (execAll isa (turnOps loop ++ [.subs k.counter k.counter 1]))^[k.blocks cpu] (k.prepared cpu)

/-- A call streams when it goes into one loop over its blocks. -/
structure Streams (k : Kernel) (loop : Label) (cpu : Cpu) : Prop where
  blockwise : k ≠ .deinterlaceTogray
  shape : Loop k.counter loop
  enters : ∀ final, k.Ends cpu final ↔ Returns isa neon64 (codeAt loop neon64) (k.prepared cpu) final

/-- A kernel that falls into its loop streams each call. -/
theorem Streams.of_falls {k : Kernel} {loop : Label} (blockwise : k ≠ .deinterlaceTogray)
    (shape : Loop k.counter loop)
    (falls : afterBlock (codeAt k.entry neon64) = .label loop :: codeAt loop neon64) (cpu : Cpu) :
    Streams k loop cpu := by
  refine ⟨blockwise, shape, fun final => ?_⟩
  unfold Kernel.Ends
  rw [returns_block, falls, returns_label]
  exact Iff.rfl

theorem Kernel.prepared_trace {k : Kernel} {cpu : Cpu} : (k.prepared cpu).trace = cpu.trace := by
  cases k <;> rfl

theorem Kernel.turns_prepared {k : Kernel} {cpu : Cpu} (blockwise : k ≠ .deinterlaceTogray)
    (enough : 16 ≤ k.count cpu) : turns ((k.prepared cpu).x k.counter) = k.blocks cpu := by
  have positive : 0 < k.blocks cpu := Nat.div_pos enough (by decide)
  rw [turns_eq, prepared_counter blockwise, if_neg positive.ne']

/-- No block of a source lies in the blocks of a destination before it. -/
def Kernel.Unread (k : Kernel) (cpu : Cpu) : Prop :=
  ∀ source ∈ k.sources, ∀ dest ∈ k.dests, ∀ i < k.blocks cpu,
    Disjoint (span (cpu.x source.1 + BitVec.ofNat 64 (i * (16 * source.2))) (16 * source.2))
      (span (cpu.x dest.1) (i * (16 * dest.2)))

/-- The blocks of the images are the ranges that regular turns load. -/
theorem Kernel.Unread.turns {k : Kernel} {cpu : Cpu} {loop : Label} (unread : k.Unread cpu)
    (regular : Regular k (turnOps loop)) {d : Fin 31} {channels : Nat} (dests : k.dests = [(d, channels)]) :
    Library.Aarch64.Unread (turnOps loop) d (16 * channels) (k.blocks cpu) cpu.x := by
  intro t member toward i inside
  obtain ⟨source, listed, same, bytes⟩ := regular.loads t member toward
  rw [same, bytes]
  exact unread source listed (d, channels) (by rw [dests]; exact List.mem_cons_self) i inside

namespace Streams

variable {k : Kernel} {loop : Label} {cpu : Cpu} (streams : Streams k loop cpu)
include streams

theorem ends_iff_finished (enough : 16 ≤ k.count cpu) (final : Cpu) :
    k.Ends cpu final ↔ final = k.finished loop cpu := by
  rw [streams.enters, streams.shape.returns_iff,
    Kernel.turns_prepared streams.blockwise enough, Kernel.finished]

/-- The loop accesses the blocks of the call. -/
theorem finished_touched (direction : Direction) : (k.finished loop cpu).touched direction =
    cpu.touched direction ∪ loopFootprint direction (turnOps loop) (k.blocks cpu) cpu.x := by
  have walked := walked_iterate streams.shape.turn (k.blocks cpu) (k.prepared cpu)
  have start : loopFootprint direction (turnOps loop) (k.blocks cpu) (k.prepared cpu).x =
      loopFootprint direction (turnOps loop) (k.blocks cpu) cpu.x :=
    loopFootprint_congr (fun t member => Kernel.prepared_x (streams.shape.turn.apart t member)) direction _
  rw [Kernel.finished, walked.touched, touched_of_trace_eq Kernel.prepared_trace, start]

/-- The turns leave the bytes that are computed from the memory of the call. -/
theorem finished_mem {keeps : (Fin 32 → Lanes) → Prop} {d : Fin 31} {bytes : Nat}
    {value : Reads → Nat → Byte} (pixelwise : Pixelwise (turnOps loop) keeps d bytes value)
    (kept : keeps (k.prepared cpu).v) (apart : d ≠ k.counter) (fits : k.blocks cpu * bytes ≤ 2 ^ 64)
    (unread : Library.Aarch64.Unread (turnOps loop) d bytes (k.blocks cpu) cpu.x) :
    (k.finished loop cpu).mem = overwritten (cpu.x d) (k.blocks cpu * bytes)
      (value (k.prepared cpu).byteAt) cpu.mem := by
  have same : Library.Aarch64.Unread (turnOps loop) d bytes (k.blocks cpu) (k.prepared cpu).x := by
    intro t member toward
    rw [Kernel.prepared_x (streams.shape.turn.apart t member), Kernel.prepared_x apart]
    exact unread t member toward
  have stores := pixelwise.mem_iterate streams.shape.turn apart kept fits same
  rw [Kernel.prepared_x apart, Kernel.prepared_mem] at stores
  exact stores

end Streams

namespace BlockCall

variable {k : Kernel} (c : BlockCall k) {loop : Label}

theorem blocks_pos : 0 < k.blocks c.cpu := Nat.div_pos c.enough (by decide)

theorem ends_iff_finished (streams : Streams k loop c.cpu) (final : Cpu) :
    k.Ends c.cpu final ↔ final = k.finished loop c.cpu :=
  streams.ends_iff_finished c.enough final

/-- The kernel comes to its loop once for each block. -/
theorem returnsAfter_finished (streams : Streams k loop c.cpu) {rest : Text}
    (falls : afterBlock (codeAt k.entry neon64) = .label loop :: codeAt loop neon64)
    (back : afterBlock (codeAt loop neon64) = .branch .ne loop :: .ret :: rest) :
    ReturnsAfter isa neon64 loop (k.blocks c.cpu) (codeAt k.entry neon64) c.cpu
      (k.finished loop c.cpu) := by
  have count := Kernel.turns_prepared streams.blockwise c.enough
  have positive := c.blocks_pos
  have last : ReturnsAfter isa neon64 loop 0 (.ret :: rest)
      ((execAll isa (turnOps loop ++ [.subs k.counter k.counter 1]))^[turns
        ((k.prepared c.cpu).x k.counter)] (k.prepared c.cpu)) (k.finished loop c.cpu) := by
    rw [count]
    exact ReturnsAfter.ret
  have looped := returnsAfter_countdown streams.shape.turn streams.shape.body back last
  rw [count] at looped
  apply ReturnsAfter.block
  rw [falls]
  have entered : ReturnsAfter isa neon64 loop
      (0 + (k.blocks c.cpu - 1) + if loop = loop then 1 else 0) (.label loop :: codeAt loop neon64)
      (k.prepared c.cpu) (k.finished loop c.cpu) := looped.label
  rw [if_pos rfl, show 0 + (k.blocks c.cpu - 1) + 1 = k.blocks c.cpu by omega] at entered
  exact entered

/-- The turns of a placed call leave the bytes that are computed from the memory of the call. -/
theorem finished_mem (streams : Streams k loop c.cpu) {keeps : (Fin 32 → Lanes) → Prop} {d : Fin 31}
    {bytes : Nat} {value : Reads → Nat → Byte} (pixelwise : Pixelwise (turnOps loop) keeps d bytes value)
    (kept : keeps (k.prepared c.cpu).v) (apart : d ≠ k.counter)
    (fits : k.blocks c.cpu * bytes ≤ 2 ^ 64)
    (placed : Placed (turnOps loop) d bytes (k.blocks c.cpu) c.cpu.x) :
    (k.finished loop c.cpu).mem = overwritten (c.cpu.x d) (k.blocks c.cpu * bytes)
      (value (k.prepared c.cpu).byteAt) c.cpu.mem :=
  streams.finished_mem pixelwise kept apart fits (placed.unread fits)

/-- The placement of the images is the placement of the ranges that regular turns load. -/
theorem placed_of_regular (regular : Regular k (turnOps loop)) {d : Fin 31} {channels : Nat}
    (dests : k.dests = [(d, channels)]) :
    Placed (turnOps loop) d (16 * channels) (k.blocks c.cpu) c.cpu.x := by
  intro t member toward
  obtain ⟨source, listed, same, bytes⟩ := regular.loads t member toward
  have placed := c.placed source listed (d, channels) (by rw [dests]; exact List.mem_cons_self)
  rw [same, bytes, ← Nat.mul_assoc, ← Nat.mul_assoc]
  rcases placed with apart | ⟨here, stride⟩
  · exact Or.inl apart
  · exact Or.inr ⟨here, congrArg (16 * ·) stride⟩

end BlockCall

/-- The bytes of a call are found in its memory while the loops are prepared. -/
theorem Kernel.prepared_byteAt {k : Kernel} {cpu : Cpu} {r : Fin 31} (apart : r ≠ k.counter) (q : Nat) :
    (k.prepared cpu).byteAt r q = cpu.byteAt r q := by
  rw [Cpu.byteAt, Cpu.byteAt, prepared_mem, prepared_x apart]

/-- Images are apart when their pointers lead to places far from each other. -/
theorem Kernel.apart_of_far {k : Kernel} {cpu : Cpu} {n : Nat} (far : ∀ source ∈ k.sources, ∀ dest ∈ k.dests,
    n * dest.2 ≤ (cpu.x source.1 - cpu.x dest.1).toNat ∧ n * source.2 ≤ (cpu.x dest.1 - cpu.x source.1).toNat) :
    Disjoint (imageBytes k.sources n cpu.x) (imageBytes k.dests n cpu.x) := by
  rw [Set.disjoint_left]
  rintro a ⟨source, member, read⟩ ⟨dest, listed, written⟩
  obtain ⟨before, after⟩ := far source member dest listed
  exact Set.disjoint_left.mp (disjoint_of_far before after) read written

/-- A call passes images whose bytes are apart from each other. -/
structure ApartCall (k : Kernel) where
  cpu : Cpu
  enough : 16 ≤ k.count cpu
  apart : Disjoint (imageBytes k.sources (k.count cpu) cpu.x) (imageBytes k.dests (k.count cpu) cpu.x)

namespace ApartCall

variable {k : Kernel} (c : ApartCall k)

/-- Images that are apart are placed. -/
def toBlockCall : BlockCall k where
  cpu := c.cpu
  enough := c.enough
  placed := by
    intro source member dest listed
    apply Or.inl
    rw [Set.disjoint_left]
    intro a first second
    have read := imageBytes_mono (k.pixels_le c.cpu) c.cpu.x ⟨source, member, first⟩
    have written := imageBytes_mono (k.pixels_le c.cpu) c.cpu.x ⟨dest, listed, second⟩
    exact Set.disjoint_left.mp c.apart read written

end ApartCall

/-- A processor whose pointers lead to places far from each other. -/
def farPlanes (k : Kernel) (count rest : Word) (mem : Word → Byte) : Cpu where
  x r := if r < k.counter then 0x1000 * (BitVec.ofNat 64 r + 1) else if r = k.counter then count else rest
  v _ _ := 0
  flags := ⟨false, false, false, false⟩
  mem := mem
  trace := []

end VisionServer.Neon
