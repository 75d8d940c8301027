/-
This file decides which calls of the gray kernel leave the gray pixels of their whole image.
-/

import VisionServer.Neon.Blocks
import VisionServer.Neon.Handover

namespace VisionServer.Neon
open Library Library.Aarch64 Library.Assembly

theorem deinterlaceTogray_regular : Regular .deinterlaceTogray (turnOps .tograyLoop) :=
  ⟨by decide, by decide, by decide, by decide, 1, 1, rfl, by decide, by decide⟩

/-- The blocks that are not loaded after they are stored become gray, and the single pixels behind them are
left. -/
theorem exists_grayBlocks {cpu : Cpu}
    (unread : Unread (turnOps .tograyLoop) 1 16 ((cpu.x 2).toNat / 16) cpu.x) :
    ∃ t, Walked (turnOps .tograyLoop) 2 16 ((cpu.x 2).toNat / 16) cpu t ∧
      t.mem = overwritten (cpu.x 1) ((cpu.x 2).toNat / 16 * 16) (mixGray cpu.byteAt) cpu.mem ∧
      ∀ final, Kernel.deinterlaceTogray.Ends cpu final ↔
        final = (execAll isa (turnOps .tograySingle ++ [.subs 2 2 1]))^[if (cpu.x 2).toNat = 0 then 2 ^ 64
          else (cpu.x 2).toNat % 16] t := by
  have small := (cpu.x 2).isLt
  have fits : (cpu.x 2).toNat / 16 * 16 ≤ 2 ^ 64 := by omega
  have stores := tograyLoop_pixelwise.toStores
  obtain ⟨t, walked, mem, ends⟩ := exists_gray_stages cpu
    (fun n t => t.mem = filled (turnOps .tograyLoop) 1 0 16 mixGray cpu n)
    (fun n t inside walked found => stores.turn_filled tograyLoop_turn (by decide) walked trivial found
      (tograyLoop_pixelwise.undisturbed fits unread inside)) (fun _ _ found => found) rfl
  exact ⟨t, walked, mem.trans (tograyLoop_pixelwise.filled_eq fits), ends⟩

/-- A call passes at least one pixel, and its images are apart. -/
structure GrayCall where
  cpu : Cpu
  positive : 0 < (cpu.x 2).toNat
  apart : Disjoint (span (cpu.x 0) ((cpu.x 2).toNat * 3)) (span (cpu.x 1) (cpu.x 2).toNat)

namespace GrayCall

variable (c : GrayCall)

def count : Nat := (c.cpu.x 2).toNat

/-- The number of pixels that the blocks of sixteen hold. -/
def whole : Nat := c.count / 16 * 16

def channel (pixel channel : Nat) : Nat := (c.cpu.byteAt 0 (3 * pixel + channel)).toNat

def gray (pixel : Nat) : Nat := (c.channel pixel 0 >>> 2) + (c.channel pixel 1 >>> 1) + (c.channel pixel 2 >>> 2)

/-- The kernel leaves a gray pixel for each pixel. -/
def Grays : Prop :=
  ∃ final, Kernel.deinterlaceTogray.Ends c.cpu final ∧
    ∀ i < c.count, (final.mem (c.cpu.x 1 + BitVec.ofNat 64 i)).toNat = c.gray i

/-- The first two channels of the pixels behind the blocks are too dark to count. -/
def Faint : Prop :=
  ∀ i < c.count, c.whole ≤ i → c.channel i 0 < 4 ∧ c.channel i 1 < 2

/-- The memory after the blocks. -/
def afterBlocks : Word → Byte := overwritten (c.cpu.x 1) c.whole (mixGray c.cpu.byteAt) c.cpu.mem

/-- The memory after the single pixels. -/
def afterSingles : Word → Byte :=
  overwritten (c.cpu.x 1 + BitVec.ofNat 64 c.whole) (c.count % 16)
    (fun q => c.cpu.byteAt 0 (3 * (c.whole + q) + 2) >>> 2) c.afterBlocks

theorem count_le : c.count * 4 ≤ 2 ^ 64 := by
  have positive := c.positive
  have both := add_le_of_disjoint c.apart (by omega) positive
  unfold count
  omega

theorem whole_add : c.whole + c.count % 16 = c.count := Nat.div_add_mod' c.count 16

/-- The blocks keep the source. -/
theorem afterBlocks_source {j : Nat} (inside : j < c.count * 3) :
    c.afterBlocks (c.cpu.x 0 + BitVec.ofNat 64 j) = c.cpu.byteAt 0 j := by
  refine overwritten_of_notMem fun given => ?_
  have shorter := c.whole_add
  exact Set.disjoint_left.mp c.apart (add_mem_of_lt _ inside) (span_mono (by unfold count at *; omega) given)

/-- The single pixels that are left store their last channel. -/
theorem singles {t : Cpu} (walked : Walked (turnOps .tograyLoop) 2 16 (c.count / 16) c.cpu t)
    (mem : t.mem = c.afterBlocks) :
    ((execAll isa (turnOps .tograySingle ++ [.subs 2 2 1]))^[c.count % 16] t).mem = c.afterSingles := by
  have shorter := c.whole_add
  have bound := c.count_le
  have source : t.x 0 = c.cpu.x 0 + BitVec.ofNat 64 (3 * c.whole) := by
    rw [walked.pointers 0 (by decide)]
    change c.cpu.x 0 + BitVec.ofNat 64 (c.count / 16 * 48) = _
    rw [whole, show c.count / 16 * 48 = 3 * (c.count / 16 * 16) by omega]
  have dest : t.x 1 = c.cpu.x 1 + BitVec.ofNat 64 c.whole := walked.pointers 1 (by decide)
  have placed : Placed (turnOps .tograySingle) 1 1 (c.count % 16) t.x := by
    have only : ∀ t ∈ touches (turnOps .tograySingle), t.direction = .load → t = ⟨.load, 0, 0, 3⟩ := by
      decide
    intro touch member toward
    obtain rfl := only touch member toward
    rw [source, dest]
    refine Or.inl (Set.disjoint_of_subset ?_ ?_ c.apart)
    · refine (span_add_subset _ _ _).trans (span_mono ?_)
      change 3 * c.whole + c.count % 16 * 3 ≤ c.count * 3
      omega
    · refine (span_add_subset _ _ _).trans (span_mono ?_)
      change c.whole + c.count % 16 * 1 ≤ c.count
      omega
  have fits : c.count % 16 * 1 ≤ 2 ^ 64 := by omega
  have stores := tograySingle_pixelwise.mem_iterate tograySingle_shape.turn (by decide) trivial fits
    (placed.unread fits)
  rw [stores, mem, dest, afterSingles, Nat.mul_one]
  apply overwritten_congr
  intro q inside
  rw [lastChannel, Cpu.byteAt, source, mem, BitVec.add_assoc, ← BitVec.ofNat_add,
    show 3 * c.whole + (3 * q + 2) = 3 * (c.whole + q) + 2 by omega, c.afterBlocks_source (by omega)]

/-- The blocks are apart from the destination. -/
theorem placed_blocks : Placed (turnOps .tograyLoop) 1 16 (c.count / 16) c.cpu.x := by
  have only : ∀ t ∈ touches (turnOps .tograyLoop), t.direction = .load → t = ⟨.load, 0, 0, 48⟩ := by
    decide
  intro touch member toward
  obtain rfl := only touch member toward
  refine Or.inl (Set.disjoint_of_subset (span_mono ?_) (span_mono ?_) c.apart)
  · change c.count / 16 * 48 ≤ c.count * 3
    omega
  · change c.count / 16 * 16 ≤ c.count
    omega

/-- The kernel makes its blocks, then its single pixels. -/
theorem exists_ends :
    ∃ t, (∀ final, Kernel.deinterlaceTogray.Ends c.cpu final ↔ final = t) ∧ t.mem = c.afterSingles := by
  have bound := c.count_le
  have positive : c.count ≠ 0 := c.positive.ne'
  obtain ⟨t, walked, mem, ends⟩ := exists_grayBlocks (c.placed_blocks.unread (by omega))
  rw [show (c.cpu.x 2).toNat = c.count from rfl, if_neg positive] at ends
  exact ⟨_, ends, c.singles walked mem⟩

/-- A pixel of the blocks is gray. -/
theorem toNat_afterSingles_of_lt {i : Nat} (inside : i < c.whole) :
    (c.afterSingles (c.cpu.x 1 + BitVec.ofNat 64 i)).toNat = c.gray i := by
  have bound := c.count_le
  have shorter := c.whole_add
  have first := (c.cpu.byteAt 0 (3 * i)).isLt
  have second := (c.cpu.byteAt 0 (3 * i + 1)).isLt
  have third := (c.cpu.byteAt 0 (3 * i + 2)).isLt
  rw [afterSingles, overwritten_of_notMem (add_notMem_of_before _ inside (by omega)), afterBlocks,
    overwritten_add inside (by omega), mixGray, toNat_uqadd, toNat_uqadd, gray]
  simp only [channel, BitVec.toNat_ushiftRight, Nat.shiftRight_eq_div_pow, Nat.add_zero]
  omega

/-- A pixel behind the blocks has its last channel alone. -/
theorem toNat_afterSingles_of_ge {i : Nat} (inside : i < c.count) (behind : c.whole ≤ i) :
    (c.afterSingles (c.cpu.x 1 + BitVec.ofNat 64 i)).toNat = c.channel i 2 >>> 2 := by
  have bound := c.count_le
  have shorter := c.whole_add
  obtain ⟨q, rfl⟩ := Nat.exists_eq_add_of_le behind
  rw [afterSingles, BitVec.ofNat_add, ← BitVec.add_assoc, overwritten_add (by omega) (by omega),
    BitVec.toNat_ushiftRight]
  rfl

/-- A call leaves a gray image if and only if the pixels behind its blocks are faint. -/
theorem grays_iff_faint : c.Grays ↔ c.Faint := by
  obtain ⟨t, ends, mem⟩ := c.exists_ends
  have behind {i : Nat} : c.channel i 2 >>> 2 = c.gray i ↔ c.channel i 0 < 4 ∧ c.channel i 1 < 2 := by
    rw [gray]
    simp only [Nat.shiftRight_eq_div_pow]
    omega
  constructor
  · intro given i inside later
    obtain ⟨final, taken, pixels⟩ := given
    obtain rfl := (ends final).mp taken
    have pixel := pixels i inside
    rw [mem, c.toNat_afterSingles_of_ge inside later] at pixel
    exact behind.mp pixel
  · intro faint
    refine ⟨t, (ends t).mpr rfl, fun i inside => ?_⟩
    rw [mem]
    by_cases early : i < c.whole
    · exact c.toNat_afterSingles_of_lt early
    · have later : c.whole ≤ i := Nat.not_lt.mp early
      rw [c.toNat_afterSingles_of_ge inside later]
      exact behind.mpr (faint i inside later)

end GrayCall

/-- One pixel has four in each channel. -/
def onePixel : GrayCall where
  cpu := farPlanes .deinterlaceTogray 1 0 fun _ => 4
  positive := by decide
  apart := disjoint_of_far (by decide) (by decide)

/-- The pixel becomes one and not four. -/
theorem onePixel_not_grays : ¬ onePixel.Grays := by
  intro given
  obtain ⟨t, ends, mem⟩ := onePixel.exists_ends
  obtain ⟨final, taken, pixels⟩ := given
  obtain rfl := (ends final).mp taken
  have pixel := pixels 0 (by decide)
  rw [mem, onePixel.toNat_afterSingles_of_ge (by decide) (by decide)] at pixel
  exact absurd pixel (by decide)

end VisionServer.Neon
