/-
This file follows the marks of the splitting loops while their turns go over the whole memory.
-/

import VisionServer.Neon.Weights
import Mathlib.Tactic.Ring

namespace VisionServer.Neon
open Library Library.Aarch64 Library.Assembly

/-- The memory has one full byte. -/
def single (place : Word) (a : Word) : Byte := if a = place then 255 else 0

/-- The lead of a byte is tripled in each pass. -/
def tripled : Nat → Nat
  | 0 => 1
  | passes + 1 => 3 * tripled passes + 1

theorem tripled_pos (passes : Nat) : 0 < tripled passes := by
  cases passes with
  | zero => exact Nat.one_pos
  | succ passes => exact Nat.succ_pos _

/-- The pixel in the middle of a memory whose source lies at its mark in the last pass, or one byte ahead. -/
def middle (gap : Word) : Nat := 2 ^ 63 - gap.toNat / 2

/-- A loop of the splitting kernel runs from a state with its constants. -/
structure SplitRun where
  offset : Fin 3
  alpha : Byte
  beta : Byte
  threshold : Byte
  cpu : Cpu
  weighs : Weighs alpha beta threshold cpu.v

namespace SplitRun

variable (r : SplitRun)

/-- The state after a number of turns. -/
def passed (n : Nat) : Cpu := (execAll isa (turnOps (splitLoop r.offset) ++ [.subs 2 2 1]))^[n] r.cpu

/-- The pixels are counted over all turns. -/
def source (pixel channel : Nat) : Byte := (r.passed (pixel / 16)).byteAt 0 (3 * (pixel % 16) + channel)

/-- The turn of a pixel computes this mark. -/
def mark (pixel : Nat) : Byte :=
  splitMark r.offset r.alpha r.beta r.threshold (r.passed (pixel / 16)).byteAt (pixel % 16)

/-- The source of a pixel lies this far ahead of its mark. -/
def lead (pixel : Nat) : Nat := (r.cpu.x 0 - r.cpu.x 1 + BitVec.ofNat 64 (2 * pixel)).toNat

theorem stores : Stores (turnOps (splitLoop r.offset)) (Weighs r.alpha r.beta r.threshold) 1 0 16
    (splitMark r.offset r.alpha r.beta r.threshold) :=
  (splitLoop_pixelwise r.alpha r.beta r.threshold r.offset).toStores

theorem turn : Turn 2 1 (turnOps (splitLoop r.offset)) := (splitLoop_shape r.offset).turn

/-- A mark stays for one pass over the memory. -/
theorem passed_mark {pixel n : Nat} (made : pixel / 16 < n) (pass : n ≤ pixel / 16 + 2 ^ 60) :
    (r.passed n).mem (r.cpu.x 1 + BitVec.ofNat 64 pixel) = r.mark pixel := by
  have stride := (splitLoop_touches r.offset).2.2
  have below : pixel % 16 < 16 := Nat.mod_lt _ (by decide)
  have block := r.stores.iterate_block r.turn (by decide) r.weighs (Nat.le_of_eq (by rw [stride]))
    (by rw [stride]; omega) made below
  rw [stride, Nat.add_zero, Nat.div_add_mod'] at block
  exact block

/-- The bytes behind the turns are those of the first state. -/
theorem passed_initial {place n : Nat} (behind : n * 16 ≤ place) (small : place < 2 ^ 64) :
    (r.passed n).mem (r.cpu.x 1 + BitVec.ofNat 64 place) = r.cpu.mem (r.cpu.x 1 + BitVec.ofNat 64 place) := by
  have stride := (splitLoop_touches r.offset).2.2
  refine r.stores.iterate_frame r.turn (by decide) r.weighs (Nat.zero_le n) fun k inside _ => ?_
  rw [stride]
  exact add_notMem_of_behind _ (by omega) small

/-- The channels of a pixel are found ahead of its mark. -/
theorem source_eq (pixel channel : Nat) : r.source pixel channel = (r.passed (pixel / 16)).mem
    (r.cpu.x 1 + BitVec.ofNat 64 (pixel + r.lead pixel + channel)) := by
  have walked : Walked (turnOps (splitLoop r.offset)) 2 1 (pixel / 16) r.cpu (r.passed (pixel / 16)) :=
    walked_iterate r.turn _ _
  have stride := (splitLoop_touches r.offset).2.1
  have whole : pixel / 16 * 48 + (3 * (pixel % 16) + channel) = pixel + 2 * pixel + channel := by omega
  have ahead : BitVec.ofNat 64 (r.lead pixel) = r.cpu.x 0 - r.cpu.x 1 + BitVec.ofNat 64 (2 * pixel) := by
    rw [lead, BitVec.ofNat_toNat, BitVec.setWidth_eq]
  have place : r.cpu.x 0 + BitVec.ofNat 64 (pixel + 2 * pixel + channel) =
      r.cpu.x 1 + BitVec.ofNat 64 (pixel + r.lead pixel + channel) := by
    rw [BitVec.ofNat_add, BitVec.ofNat_add, BitVec.ofNat_add (pixel + _), BitVec.ofNat_add pixel, ahead]
    ring
  rw [source, Cpu.byteAt, walked.pointers 0 (by decide), stride, BitVec.add_assoc, ← BitVec.ofNat_add, whole,
    place]

/-- A channel behind the end of the memory is a mark of the pass before. -/
theorem source_made {pixel channel : Nat} (wraps : 2 ^ 64 ≤ pixel + r.lead pixel + channel)
    (far : r.lead pixel + channel + 16 ≤ 2 ^ 64) :
    r.source pixel channel = r.mark (pixel + r.lead pixel + channel - 2 ^ 64) := by
  have place : BitVec.ofNat 64 (pixel + r.lead pixel + channel) =
      BitVec.ofNat 64 (pixel + r.lead pixel + channel - 2 ^ 64) := by
    apply BitVec.eq_of_toNat_eq
    rw [BitVec.toNat_ofNat, BitVec.toNat_ofNat]
    omega
  rw [source_eq, place]
  exact r.passed_mark (by omega) (by omega)

/-- A channel before the end of the memory has its first byte in the first pass. -/
theorem source_initial {pixel channel : Nat} (small : pixel + r.lead pixel + channel < 2 ^ 64) :
    r.source pixel channel =
      r.cpu.mem (r.cpu.x 1 + BitVec.ofNat 64 (pixel + r.lead pixel + channel)) := by
  rw [source_eq]
  exact r.passed_initial (by omega) small

theorem toNat_mark (pixel : Nat) : (r.mark pixel).toNat =
    if r.threshold.toNat < (r.source pixel r.offset).toNat -
      min 255 (weighted r.alpha (r.source pixel ((r.offset + 1) % 3)) +
        weighted r.beta (r.source pixel ((r.offset + 2) % 3))) then 255 else 0 :=
  toNat_splitMark _ _ _ _ _ _

/-- A mark needs its primary channel. -/
theorem source_of_mark {pixel : Nat} (marked : r.mark pixel ≠ 0) : r.source pixel r.offset ≠ 0 := by
  intro none
  apply marked
  apply BitVec.eq_of_toNat_eq
  rw [toNat_mark, none]
  exact if_neg (by simp)

/-- A full primary channel is marked beside empty ones. -/
theorem mark_full (below : r.threshold ≠ 255) {pixel : Nat}
    (single : ∀ channel < 3, r.source pixel channel = if channel = r.offset then 255 else 0) :
    r.mark pixel = 255 := by
  have byte : r.threshold.toNat < 255 := by bv_omega
  have first := r.offset.isLt
  have zero : (0 : Byte).toNat = 0 := rfl
  apply BitVec.eq_of_toNat_eq
  rw [toNat_mark, single _ first, single _ (Nat.mod_lt _ (by decide)), single _ (Nat.mod_lt _ (by decide)),
    if_pos rfl, if_neg (show (r.offset.val + 1) % 3 ≠ r.offset.val by omega),
    if_neg (show (r.offset.val + 2) % 3 ≠ r.offset.val by omega), weighted, weighted, zero,
    Nat.zero_shiftRight, Nat.zero_shiftRight]
  exact if_pos byte

theorem lead_pass (passes pixel : Nat) : r.lead (passes * 2 ^ 64 + pixel) = r.lead pixel := by
  have same : BitVec.ofNat 64 (2 * (passes * 2 ^ 64 + pixel)) = BitVec.ofNat 64 (2 * pixel) := by
    apply BitVec.eq_of_toNat_eq
    rw [BitVec.toNat_ofNat, BitVec.toNat_ofNat]
    omega
  rw [lead, lead, same]

/-- The source gains two bytes with each pixel. -/
theorem lead_add {pixel more : Nat} (small : r.lead pixel + 2 * more < 2 ^ 64) :
    r.lead (pixel + more) = r.lead pixel + 2 * more := by
  have ahead : BitVec.ofNat 64 (r.lead pixel) = r.cpu.x 0 - r.cpu.x 1 + BitVec.ofNat 64 (2 * pixel) := by
    rw [lead, BitVec.ofNat_toNat, BitVec.setWidth_eq]
  have value : (BitVec.ofNat 64 (r.lead pixel + 2 * more)).toNat = r.lead pixel + 2 * more := by
    rw [BitVec.toNat_ofNat, Nat.mod_eq_of_lt small]
  rw [← value, BitVec.ofNat_add, ahead, lead, Nat.mul_add, BitVec.ofNat_add, BitVec.add_assoc]

/-- The first byte that a mark goes back to. -/
def origin (passes pixel : Nat) : Nat := pixel + (r.lead pixel + r.offset) * tripled passes

theorem origin_succ (passes pixel : Nat) : r.origin (passes + 1) pixel =
    pixel + (r.lead pixel + r.offset) + 3 * ((r.lead pixel + r.offset) * tripled passes) := by
  rw [origin, tripled]
  generalize r.lead pixel + r.offset = ahead
  rw [Nat.mul_succ, Nat.mul_left_comm]
  omega

/-- The primary channel of a pixel has the same origin one pass before. -/
theorem origin_next {passes pixel : Nat}
    (small : r.lead pixel + 2 * (r.lead pixel + r.offset) < 2 ^ 64) :
    r.origin passes (pixel + (r.lead pixel + r.offset)) = r.origin (passes + 1) pixel := by
  have gains : r.lead pixel + 2 * (r.lead pixel + r.offset) + r.offset = 3 * (r.lead pixel + r.offset) := by
    omega
  rw [origin_succ, origin, r.lead_add small, gains, Nat.mul_assoc]

/-- The channels of a pixel have their origins close to it. -/
theorem origin_channel_le {passes pixel channel : Nat} (inside : channel < 3)
    (small : r.lead pixel + 2 * (r.lead pixel + channel) < 2 ^ 64) :
    r.origin passes (pixel + (r.lead pixel + channel)) ≤
      pixel + (r.lead pixel + 2) + 3 * ((r.lead pixel + 2) * tripled passes) := by
  have last := r.offset.isLt
  have slope : (r.lead pixel + 2 * (r.lead pixel + channel) + r.offset) * tripled passes ≤
      3 * (r.lead pixel + 2) * tripled passes := Nat.mul_le_mul_right _ (by omega)
  rw [Nat.mul_assoc] at slope
  rw [origin, r.lead_add small]
  omega

/-- The other channels of a pixel have other origins than the primary one. -/
theorem origin_channel_ne {passes pixel channel : Nat} (other : channel ≠ r.offset)
    (small : r.lead pixel + 2 * (r.lead pixel + channel) < 2 ^ 64) :
    r.origin passes (pixel + (r.lead pixel + channel)) ≠ r.origin (passes + 1) pixel := by
  have slope : (r.lead pixel + 2 * (r.lead pixel + channel) + r.offset) * tripled passes +
      2 * (r.offset * tripled passes) =
        3 * ((r.lead pixel + r.offset) * tripled passes) + 2 * (channel * tripled passes) := by
    ring
  rw [origin_succ, origin, r.lead_add small]
  intro same
  rcases Nat.lt_or_gt_of_ne other with less | greater
  · have fewer := Nat.mul_le_mul_right (tripled passes) (Nat.le_of_lt less)
    omega
  · have more := Nat.mul_le_mul_right (tripled passes) (Nat.le_of_lt greater)
    omega

/-- A channel of a pixel that is followed for another pass is a mark of the pass before. -/
theorem source_next {passes pixel channel : Nat} (far : r.lead pixel + channel + 16 ≤ 2 ^ 64) :
    r.source ((passes + 1) * 2 ^ 64 + pixel) channel =
      r.mark (passes * 2 ^ 64 + (pixel + (r.lead pixel + channel))) := by
  have lead := r.lead_pass (passes + 1) pixel
  have index : (passes + 1) * 2 ^ 64 + pixel + r.lead pixel + channel - 2 ^ 64 =
      passes * 2 ^ 64 + (pixel + (r.lead pixel + channel)) := by omega
  rw [r.source_made (by rw [lead]; omega) (by rw [lead]; exact far), lead, index]

/-- A mark comes from a byte of the first state. -/
theorem origin_of_mark {passes pixel : Nat} (small : r.origin passes pixel < 2 ^ 64)
    (marked : r.mark (passes * 2 ^ 64 + pixel) ≠ 0) :
    r.cpu.mem (r.cpu.x 1 + BitVec.ofNat 64 (r.origin passes pixel)) ≠ 0 := by
  induction passes generalizing pixel with
  | zero =>
      have read := r.source_of_mark marked
      rw [origin, tripled, Nat.mul_one, ← Nat.add_assoc] at small ⊢
      rw [Nat.zero_mul, Nat.zero_add, r.source_initial small] at read
      exact read
  | succ passes ih =>
      have read := r.source_of_mark marked
      have more := Nat.le_mul_of_pos_right (r.lead pixel + r.offset) (tripled_pos passes)
      have bound := small
      rw [origin_succ] at bound
      rw [r.source_next (by omega)] at read
      rw [← r.origin_next (by omega)] at small ⊢
      exact ih small read

theorem single_of_ne {base : Word} {place other : Nat} (first : place < 2 ^ 64) (second : other < 2 ^ 64)
    (apart : other ≠ place) : single (base + BitVec.ofNat 64 place) (base + BitVec.ofNat 64 other) = 0 := by
  apply if_neg
  intro same
  have values := congrArg BitVec.toNat (add_left_cancel same)
  rw [BitVec.toNat_ofNat, BitVec.toNat_ofNat, Nat.mod_eq_of_lt first, Nat.mod_eq_of_lt second] at values
  exact apart values

/-- A full byte of an empty memory is marked by the turns that go back to it. -/
theorem mark_of_origin (below : r.threshold ≠ 255) {passes pixel : Nat}
    (small : pixel + 4 * ((r.lead pixel + 2) * tripled passes) < 2 ^ 64)
    (full : r.cpu.mem = single (r.cpu.x 1 + BitVec.ofNat 64 (r.origin passes pixel))) :
    r.mark (passes * 2 ^ 64 + pixel) = 255 := by
  have last := r.offset.isLt
  induction passes generalizing pixel with
  | zero =>
      apply r.mark_full below
      intro channel inside
      rw [tripled, Nat.mul_one] at small
      rw [Nat.zero_mul, Nat.zero_add, r.source_initial (by omega), full, origin, tripled, Nat.mul_one,
        ← Nat.add_assoc]
      by_cases primary : channel = r.offset
      · rw [if_pos primary, primary]
        exact if_pos rfl
      · rw [if_neg primary]
        exact single_of_ne (by omega) (by omega) (by omega)
  | succ passes ih =>
      apply r.mark_full below
      intro channel inside
      rw [tripled, Nat.mul_succ, Nat.mul_left_comm] at small
      have more := Nat.le_mul_of_pos_right (r.lead pixel + 2) (tripled_pos passes)
      rw [r.source_next (by omega)]
      by_cases primary : channel = r.offset
      · rw [if_pos primary, primary]
        have slope : (r.lead pixel + 2 * (r.lead pixel + r.offset) + 2) * tripled passes ≤
            3 * (r.lead pixel + 2) * tripled passes := Nat.mul_le_mul_right _ (by omega)
        rw [Nat.mul_assoc] at slope
        apply ih
        · rw [r.lead_add (by omega)]
          omega
        · rw [full, r.origin_next (by omega)]
      · rw [if_neg primary]
        have near (other : Nat) (inside : other < 3) :
            r.origin passes (pixel + (r.lead pixel + other)) < 2 ^ 64 :=
          Nat.lt_of_le_of_lt (r.origin_channel_le inside (by omega)) (by omega)
        have primaryNear := near r.offset last
        rw [r.origin_next (by omega)] at primaryNear
        by_contra marked
        have found := r.origin_of_mark (near channel inside) marked
        rw [full] at found
        exact found (single_of_ne primaryNear (near channel inside) (r.origin_channel_ne primary (by omega)))

theorem lead_middle : r.lead (middle (r.cpu.x 0 - r.cpu.x 1)) = (r.cpu.x 0 - r.cpu.x 1).toNat % 2 := by
  rw [lead, middle, BitVec.toNat_add, BitVec.toNat_ofNat]
  omega

/-- The last pass leaves a mark at the middle pixel when the full byte is the origin of the primary channel. -/
theorem passed_all (below : r.threshold ≠ 255) {rounds pixel : Nat} (all : rounds = 2 ^ 64)
    (near : pixel ≤ 2 ^ 63) (ahead : r.lead pixel < 2) {primary : Fin 3} (full : r.cpu.mem = single
      (r.cpu.x 1 + BitVec.ofNat 64 (pixel + (r.lead pixel + primary) * tripled 15))) :
    (r.passed rounds).mem (r.cpu.x 1 + BitVec.ofNat 64 pixel) = if r.offset = primary then 255 else 0 := by
  have tripled15 : tripled 15 = 21523360 := rfl
  have first := r.offset.isLt
  have second := primary.isLt
  have place : BitVec.ofNat 64 (15 * 2 ^ 64 + pixel) = BitVec.ofNat 64 pixel := by
    apply BitVec.eq_of_toNat_eq
    rw [BitVec.toNat_ofNat, BitVec.toNat_ofNat]
    omega
  rw [← place, r.passed_mark (by omega) (by omega)]
  by_cases same : r.offset = primary
  · subst same
    rw [if_pos rfl]
    exact r.mark_of_origin below (by rw [tripled15]; omega) full
  · have apart : r.offset.val ≠ primary.val := fun values => same (Fin.ext values)
    have origin15 : r.origin 15 pixel = pixel + (r.lead pixel + r.offset) * 21523360 := by
      rw [origin, tripled15]
    rw [if_neg same]
    rw [tripled15] at full
    by_contra marked
    have found := r.origin_of_mark (by rw [origin15]; omega) marked
    rw [full, origin15] at found
    exact found (single_of_ne (by omega) (by omega) (by omega))

/-- The first mark follows the full byte of its pixel. -/
theorem mark_zero (below : r.threshold ≠ 255) {primary : Fin 3}
    (full : r.cpu.mem = single (r.cpu.x 0 + BitVec.ofNat 64 primary)) :
    r.mark 0 = if r.offset = primary then 255 else 0 := by
  have found {channel : Nat} (inside : channel < 3) :
      r.source 0 channel = if channel = primary then 255 else 0 := by
    have last := primary.isLt
    change r.cpu.mem (r.cpu.x 0 + BitVec.ofNat 64 (3 * 0 + channel)) = _
    rw [full, Nat.mul_zero, Nat.zero_add]
    by_cases same : channel = primary
    · rw [if_pos same, same]
      exact if_pos rfl
    · rw [if_neg same]
      exact single_of_ne (by omega) (by omega) same
  by_cases same : r.offset = primary
  · subst same
    rw [if_pos rfl]
    exact r.mark_full below fun channel inside => found inside
  · rw [if_neg same]
    by_contra marked
    apply r.source_of_mark marked
    rw [found r.offset.isLt, if_neg fun values => same (Fin.ext values)]

end SplitRun

/-- For each number of turns some memory tells the loops from each other. -/
theorem exists_telltale (source dest : Word) {rounds : Nat}
    (shape : rounds = 2 ^ 64 ∨ 0 < rounds ∧ rounds ≤ 2 ^ 60) (primary : Fin 3) :
    ∃ mem place, ∀ r : SplitRun, r.threshold ≠ 255 → r.cpu.x 0 = source → r.cpu.x 1 = dest → r.cpu.mem = mem →
      (r.passed rounds).mem place = if r.offset = primary then 255 else 0 := by
  rcases shape with all | ⟨some, few⟩
  · refine ⟨single (dest + BitVec.ofNat 64 (middle (source - dest) +
      ((source - dest).toNat % 2 + primary) * tripled 15)), dest + BitVec.ofNat 64 (middle (source - dest)),
      fun r below first second full => ?_⟩
    subst first second
    have ahead := Nat.mod_lt (r.cpu.x 0 - r.cpu.x 1).toNat (show 0 < 2 by decide)
    rw [← r.lead_middle] at full ahead
    exact r.passed_all below all (Nat.sub_le _ _) ahead full
  · refine ⟨single (source + BitVec.ofNat 64 primary), dest, fun r below first second full => ?_⟩
    subst first second
    have kept : (r.passed rounds).mem (r.cpu.x 1 + BitVec.ofNat 64 0) = r.mark 0 := r.passed_mark some few
    rw [BitVec.add_zero] at kept
    rw [kept]
    exact r.mark_zero below full

end VisionServer.Neon
