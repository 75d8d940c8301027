/-
This file compares the fused splitting kernel with the channel roles of the weights table.
-/

import VisionServer.Neon.Weights
import VisionServer.Neon.Wrappers

namespace VisionServer.Neon
open Library Library.Aarch64 Library.Assembly

/-- The table names the channels that the two weights belong to. -/
def weightsMap : BGR → Fin 3 × Fin 3
  | .blue => (BGR.green.number, BGR.red.number)
  | .green => (BGR.blue.number, BGR.red.number)
  | .red => (BGR.blue.number, BGR.green.number)

/-- The wrapper is called with images that it accepts. No block of the frame lies in the blocks of the
destination before it. -/
structure WstbCall where
  frame : Mat
  dest : Mat
  primary : BGR
  alpha : Byte
  beta : Byte
  threshold : Byte
  cpu : Cpu
  accepted : ∀ text,
    neonDeinterlaceWstb frame dest primary alpha beta threshold ≠ .error (.assertion text)
  small : frame.area < 2 ^ 31
  unread : ∀ i < frame.area / 16,
    Disjoint (span (frame.data + BitVec.ofNat 64 (i * 48)) 48) (span dest.data (i * 16))

namespace WstbCall

variable (c : WstbCall)

/-- These are the pixels of the whole blocks. -/
def pixels : Nat := c.frame.area / 16 * 16

/-- The frame is split into its channels. -/
def split (channel : Fin 3) (i : Nat) : Byte := c.frame.pixel c.cpu.mem i channel

/-- The weighted channels are added with saturation and subtracted from the primary one. -/
def subtracted (first second : Fin 3) (i : Nat) : Nat :=
  (c.split c.primary.number i).toNat -
    min 255 (weighted c.alpha (c.split first i) + weighted c.beta (c.split second i))

/-- The mark of a pixel with the given roles of the weights. -/
def mark (first second : Fin 3) (i : Nat) : Nat :=
  if c.threshold.toNat < c.subtracted first second i then 255 else 0

/-- The unfused computation takes the roles from the table. -/
def unfused (i : Nat) : Nat := c.mark (weightsMap c.primary).1 (weightsMap c.primary).2 i

/-- The wrapper leaves the pixels of the unfused computation. -/
def Refines : Prop :=
  ∃ launch final,
    neonDeinterlaceWstb c.frame c.dest c.primary c.alpha c.beta c.threshold = .ok launch ∧
    launch.kernel.Ends (launch.enter c.cpu) final ∧
    ∀ i < c.pixels, (c.dest.byteAt final.mem i).toNat = c.unfused i

/-- No pixel crosses the threshold when the weights of blue and red are exchanged. -/
def Symmetric : Prop :=
  ∀ i < c.pixels, c.threshold.toNat < c.subtracted BGR.red.number BGR.blue.number i ↔
    c.threshold.toNat < c.subtracted BGR.blue.number BGR.red.number i

/-- An accepted call has a colour image and a destination of bytes with its area. -/
theorem types : c.frame.type = cv8UC3 ∧ c.dest.type = cv8UC1 ∧ c.frame.area = c.dest.area := by
  have accepted := c.accepted
  unfold neonDeinterlaceWstb at accepted
  obtain ⟨first, accepted⟩ := holds_of_accepted accepted
  obtain ⟨second, accepted⟩ := holds_of_accepted accepted
  obtain ⟨third, _⟩ := holds_of_accepted accepted
  exact ⟨beq_iff_eq.mp first, beq_iff_eq.mp second, beq_iff_eq.mp third⟩

/-- This is the call that an accepted wrapper passes on. -/
def launch : Launch := ⟨.deinterlaceWstb, [c.frame.data, c.dest.data, .ofNat 64 c.frame.area,
  .ofNat 64 c.primary.number, byteArgument c.alpha, byteArgument c.beta, byteArgument c.threshold]⟩

theorem launched :
    neonDeinterlaceWstb c.frame c.dest c.primary c.alpha c.beta c.threshold = .ok c.launch := by
  obtain ⟨first, second, third⟩ := c.types
  simp only [neonDeinterlaceWstb, first, second, third, beq_self_eq_true, cvAssert, if_true]
  rw [launch, third]
  rfl

theorem count_enter : Kernel.deinterlaceWstb.count (c.launch.enter c.cpu) = c.frame.area := by
  change (BitVec.ofNat 64 c.frame.area).toNat = c.frame.area
  rw [BitVec.toNat_ofNat, Nat.mod_eq_of_lt (by have := c.small; omega)]

theorem pixels_enter : Kernel.deinterlaceWstb.pixels (c.launch.enter c.cpu) = c.pixels := by
  rw [Kernel.pixels, Kernel.blocks, c.count_enter]
  rfl

theorem streams : Streams .deinterlaceWstb (splitLoop c.primary.number) (c.launch.enter c.cpu) :=
  split_streams rfl

/-- The turns of the kernel mark the pixels of the frame. -/
theorem finished_mem :
    (Kernel.deinterlaceWstb.finished (splitLoop c.primary.number) (c.launch.enter c.cpu)).mem =
      overwritten c.dest.data c.pixels (splitMark c.primary.number c.alpha c.beta c.threshold
        (Kernel.deinterlaceWstb.prepared (c.launch.enter c.cpu)).byteAt) c.cpu.mem := by
  have unread : Kernel.deinterlaceWstb.Unread (c.launch.enter c.cpu) := by
    intro source member dest listed i inside
    rw [show Kernel.deinterlaceWstb.sources = [(0, 3)] from rfl, List.mem_singleton] at member
    rw [show Kernel.deinterlaceWstb.dests = [(1, 1)] from rfl, List.mem_singleton] at listed
    rw [Kernel.blocks, c.count_enter] at inside
    subst member listed
    exact c.unread i inside
  have kept : Weighs c.alpha c.beta c.threshold (Kernel.deinterlaceWstb.prepared (c.launch.enter c.cpu)).v := by
    have weighs : Weighs ((byteArgument c.alpha).setWidth 8) ((byteArgument c.beta).setWidth 8)
        ((byteArgument c.threshold).setWidth 8)
        (Kernel.deinterlaceWstb.prepared (c.launch.enter c.cpu)).v := ⟨rfl, rfl, rfl⟩
    rw [byteArgument_low, byteArgument_low, byteArgument_low] at weighs
    exact weighs
  have mem := c.streams.finished_mem (splitLoop_pixelwise c.alpha c.beta c.threshold c.primary.number) kept
    (by decide) (Nat.le_of_lt (Kernel.deinterlaceWstb.pixels_lt _))
    (unread.turns (split_regular c.primary.number) rfl)
  rw [← Kernel.pixels, c.pixels_enter] at mem
  exact mem

/-- The kernel gives the weights to the channels behind the primary one in their cyclic order. -/
theorem marks_of_ends {final : Cpu} (ended : Kernel.deinterlaceWstb.Ends (c.launch.enter c.cpu) final)
    {i : Nat} (inside : i < c.pixels) :
    (c.dest.byteAt final.mem i).toNat = c.mark (c.primary.number + 1) (c.primary.number + 2) i := by
  have some : 16 ≤ Kernel.deinterlaceWstb.count (c.launch.enter c.cpu) := by
    rw [c.count_enter]
    unfold pixels at inside
    omega
  have small : c.pixels ≤ c.frame.area := Nat.div_mul_le_self _ _
  have area := c.small
  have channel (k : Fin 3) :
      (Kernel.deinterlaceWstb.prepared (c.launch.enter c.cpu)).byteAt 0 (3 * i + k) = c.split k i := by
    rw [Kernel.prepared_byteAt (by decide), split, Mat.pixel, c.types.1]
    rfl
  obtain rfl := (c.streams.ends_iff_finished some final).mp ended
  rw [Mat.byteAt, c.finished_mem, overwritten_add inside (by omega), toNat_splitMark, mark, subtracted, ← channel,
    ← channel, ← channel]
  rfl

/-- The wrapper leaves the marks of the cyclic order. -/
theorem refines_iff_marks : c.Refines ↔
    ∀ i < c.pixels, c.mark (c.primary.number + 1) (c.primary.number + 2) i = c.unfused i := by
  constructor
  · rintro ⟨launch, final, passed, ended, marks⟩ i inside
    rw [c.launched] at passed
    cases passed
    rw [← c.marks_of_ends ended inside, marks i inside]
  · intro same
    have ended : Kernel.deinterlaceWstb.Ends (c.launch.enter c.cpu) _ :=
      (c.streams.enters _).mpr ((c.streams.shape.returns_iff _ _).mpr rfl)
    exact ⟨c.launch, _, c.launched, ended, fun i inside => (c.marks_of_ends ended inside).trans (same i inside)⟩

/-- The marks decide on which side of the threshold a pixel lies. -/
theorem mark_eq_iff {first second third fourth : Fin 3} {i : Nat} :
    c.mark first second i = c.mark third fourth i ↔
      (c.threshold.toNat < c.subtracted first second i ↔ c.threshold.toNat < c.subtracted third fourth i) := by
  unfold mark
  by_cases above : c.threshold.toNat < c.subtracted first second i
  · by_cases other : c.threshold.toNat < c.subtracted third fourth i
    · simp only [above, other]
    · simp [above, other]
  · by_cases other : c.threshold.toNat < c.subtracted third fourth i
    · simp [above, other]
    · simp only [above, other]

/-- The cyclic order behind blue and red is the order of the table. -/
theorem refines_of_ne (other : c.primary ≠ .green) : c.Refines := by
  rw [c.refines_iff_marks]
  unfold unfused
  cases primary : c.primary with
  | blue => exact fun i inside => rfl
  | red => exact fun i inside => rfl
  | green => exact absurd primary other

/-- The cyclic order behind green exchanges the weights of the table. -/
theorem refines_iff_symmetric (primary : c.primary = .green) : c.Refines ↔ c.Symmetric := by
  rw [c.refines_iff_marks]
  unfold unfused
  rw [primary]
  exact forall₂_congr fun i inside => c.mark_eq_iff

end WstbCall

/-- A call whose frame is one block of pixels with the same red and green. -/
def plainWstb (primary : BGR) (alpha beta threshold green red : Byte) : WstbCall where
  frame := ⟨1, 16, cv8UC3, 0x1000⟩
  dest := ⟨1, 16, cv8UC1, 0x2000⟩
  primary := primary
  alpha := alpha
  beta := beta
  threshold := threshold
  cpu := farPlanes .deinterlaceWstb 0 0 fun a =>
    if (a - 0x1000).toNat % 3 = 0 then 0 else if (a - 0x1000).toNat % 3 = 1 then green else red
  accepted := fun text failed => by cases failed
  small := by decide
  unread := by
    intro i inside
    obtain rfl := Nat.lt_one_iff.mp inside
    rw [Nat.zero_mul, span_zero]
    exact Set.disjoint_empty _

section Plain

variable {primary : BGR} {alpha beta threshold green red : Byte}

theorem plainWstb_pixels : (plainWstb primary alpha beta threshold green red).pixels = 16 := by
  change 1 * 16 / 16 * 16 = 16
  decide

theorem plainWstb_split {i : Nat} (inside : i < 16) (channel : Fin 3) :
    (plainWstb primary alpha beta threshold green red).split channel i =
      match channel with
      | 0 => 0
      | 1 => green
      | 2 => red := by
  have distance : (0x1000 + BitVec.ofNat 64 (3 * i + channel) - 0x1000 : Word).toNat = 3 * i + channel := by
    rw [BitVec.add_comm, BitVec.add_sub_cancel, BitVec.toNat_ofNat, Nat.mod_eq_of_lt (by omega)]
  have place : (3 * i + channel) % 3 = channel := by omega
  change (if (0x1000 + BitVec.ofNat 64 (3 * i + channel) - 0x1000 : Word).toNat % 3 = 0 then (0 : Byte) else
    if (0x1000 + BitVec.ofNat 64 (3 * i + channel) - 0x1000 : Word).toNat % 3 = 1 then green else red) = _
  rw [distance, place]
  match channel with
  | 0 => rfl
  | 1 => rfl
  | 2 => rfl

end Plain

/-- Equal weights or a threshold without a byte above it leave no pixel to cross it. -/
theorem WstbCall.symmetric_of_arguments (c : WstbCall)
    (harmless : c.alpha.clz = c.beta.clz ∨ c.threshold = 255) : c.Symmetric := by
  intro i inside
  rcases harmless with equal | highest
  · have exchanged (byte : Byte) : weighted c.alpha byte = weighted c.beta byte := by
      rw [weighted, weighted, equal]
    rw [subtracted, subtracted, exchanged, exchanged, Nat.add_comm]
  · have top : c.threshold.toNat = 255 := congrArg BitVec.toNat highest
    have below (first second : Fin 3) : c.subtracted first second i ≤ 255 :=
      Nat.le_trans (Nat.sub_le _ _) (Nat.le_of_lt_succ (c.split c.primary.number i).isLt)
    have first := below BGR.red.number BGR.blue.number
    have second := below BGR.blue.number BGR.red.number
    omega

/-- A bit shifted by its own place is one, and it is zero behind its place. -/
theorem weighted_bit {weight : Byte} {place : Nat} (small : place < 8) (below : place ≤ weight.clz.toNat) :
    weighted weight (BitVec.ofNat 8 (2 ^ place)) = if weight.clz.toNat = place then 1 else 0 := by
  have bit : (BitVec.ofNat 8 (2 ^ place)).toNat = 2 ^ place := by
    rw [BitVec.toNat_ofNat, Nat.mod_eq_of_lt (Nat.pow_lt_pow_right (by decide) small)]
  rw [weighted, bit, Nat.shiftRight_eq_div_pow]
  by_cases equal : weight.clz.toNat = place
  · rw [if_pos equal, equal, Nat.div_self (Nat.two_pow_pos place)]
  · rw [if_neg equal, Nat.div_eq_of_lt (Nat.pow_lt_pow_right (by decide) (by omega))]

/-- Different weights separate a pixel whose red is the lowest bit that one of them leaves. -/
theorem plainWstb_not_symmetric {alpha beta threshold : Byte} (weights : alpha.clz ≠ beta.clz)
    (below : threshold ≠ 255) :
    ¬ (plainWstb .green alpha beta threshold (threshold + 1)
      (BitVec.ofNat 8 (2 ^ min alpha.clz.toNat beta.clz.toNat))).Symmetric := by
  have different : alpha.clz.toNat ≠ beta.clz.toNat := fun same => weights (BitVec.eq_of_toNat_eq same)
  have first : alpha.clz.toNat ≤ 8 := BitVec.clz_le
  have second : beta.clz.toNat ≤ 8 := BitVec.clz_le
  have small : min alpha.clz.toNat beta.clz.toNat < 8 := by omega
  have nothing (weight : Byte) : weighted weight 0 = 0 := by rw [weighted]; simp
  have next : (threshold + 1).toNat = threshold.toNat + 1 := by
    have apart : threshold.toNat ≠ 255 := fun same => below (BitVec.eq_of_toNat_eq same)
    have bound := threshold.isLt
    rw [BitVec.toNat_add, show (1 : Byte).toNat = 1 from rfl, Nat.mod_eq_of_lt (by omega)]
  intro symmetric
  have crossed := symmetric 0 (by rw [plainWstb_pixels]; decide)
  rw [WstbCall.subtracted, WstbCall.subtracted] at crossed
  simp only [plainWstb_split (by decide : 0 < 16)] at crossed
  change threshold.toNat < (threshold + 1).toNat - min 255 (weighted alpha (BitVec.ofNat 8 (2 ^ _)) +
      weighted beta 0) ↔
    threshold.toNat < (threshold + 1).toNat - min 255 (weighted alpha 0 +
      weighted beta (BitVec.ofNat 8 (2 ^ _))) at crossed
  rw [nothing, nothing, next, weighted_bit small (Nat.min_le_left _ _),
    weighted_bit small (Nat.min_le_right _ _)] at crossed
  rcases Nat.lt_or_gt_of_ne different with less | more
  · rw [if_pos (by omega), if_neg (by omega)] at crossed
    omega
  · rw [if_neg (by omega), if_pos (by omega)] at crossed
    omega

/-- The wrapper refines the table on each frame if and only if the primary colour is not green, the weights
have the same leading zeros or no byte is above the threshold. -/
theorem wstb_always_refines_iff (primary : BGR) (alpha beta threshold : Byte) :
    (∀ c : WstbCall, c.primary = primary → c.alpha = alpha → c.beta = beta → c.threshold = threshold →
      c.Refines) ↔ primary ≠ .green ∨ alpha.clz = beta.clz ∨ threshold = 255 := by
  constructor
  · intro always
    by_contra given
    simp only [not_or, not_not] at given
    obtain ⟨green, weights, below⟩ := given
    subst green
    have refines := always (plainWstb .green alpha beta threshold (threshold + 1)
      (BitVec.ofNat 8 (2 ^ min alpha.clz.toNat beta.clz.toNat))) rfl rfl rfl rfl
    exact plainWstb_not_symmetric weights below ((WstbCall.refines_iff_symmetric _ rfl).mp refines)
  · rintro given c rfl rfl rfl rfl
    by_cases green : c.primary = .green
    · have harmless := given.resolve_left fun other => other green
      exact (c.refines_iff_symmetric green).mpr (c.symmetric_of_arguments harmless)
    · exact c.refines_of_ne green

/-- The fused kernel refines the table if and only if the primary colour is not green or no pixel crosses
the threshold when the weights of blue and red are exchanged. -/
theorem wstb_refines_iff (c : WstbCall) : c.Refines ↔ c.primary ≠ .green ∨ c.Symmetric := by
  by_cases green : c.primary = .green
  · rw [c.refines_iff_symmetric green]
    constructor
    · exact fun symmetric => Or.inr symmetric
    · exact fun given => given.resolve_left fun other => other green
  · exact iff_of_true (c.refines_of_ne green) (Or.inl green)

/-- A full weight of blue and half a weight of red are exchanged at a red pixel. -/
theorem plainWstb_not_refines : ¬ (plainWstb .green 255 127 127 128 1).Refines := by
  rw [WstbCall.refines_iff_symmetric _ rfl]
  exact plainWstb_not_symmetric (by decide) (by decide)

end VisionServer.Neon
