/-
This file decides when the 32-bit and the 64-bit kernel leave the same destination.
-/

import VisionServer.Neon.Calls32
import VisionServer.Neon.Marks

namespace VisionServer.Neon
open Library Library.Aarch64 Library.Assembly

section Bytes

variable {primary first second addition amount : Byte}

/-- The part of the primary byte that passes both comparisons selects its scale. -/
def scale (primary first second : Byte) : Byte :=
  if first < primary ∧ second < primary then primary >>> 6 else 0

/-- The primary byte is divided by a power of two. -/
def scaled (primary first second : Byte) : Nat := primary.toNat / 2 ^ (scale primary first second).toNat

theorem toNat_scale_le : (scale primary first second).toNat ≤ 3 := by
  have byte := primary.isLt
  unfold scale
  split
  · rw [BitVec.toNat_ushiftRight, Nat.shiftRight_eq_div_pow]
    omega
  · decide

theorem mask_eq_scale :
    (primary &&& (cmhi primary first &&& cmhi primary second)) >>> 6 = scale primary first second := by
  unfold scale
  by_cases above : first < primary ∧ second < primary
  · rw [if_pos above, cmhi, cmhi, if_pos above.1, if_pos above.2, BitVec.and_self, BitVec.and_allOnes]
  · rw [if_neg above, cmhi_and_cmhi_of_not_above above]
    simp

/-- A small negated amount is negative unless it is zero. -/
theorem neg_toInt_nonneg_iff (small : amount.toNat ≤ 3) : 0 ≤ (-amount).toInt ↔ amount = 0 := by
  rw [BitVec.toInt_eq_toNat_cond, BitVec.toNat_neg, ← BitVec.toNat_inj]
  have zero : (0 : Byte).toNat = 0 := rfl
  split <;> omega

theorem toNat_uqshl_neg (small : amount.toNat ≤ 3) (a : Byte) :
    (uqshl a (-amount)).toNat = a.toNat / 2 ^ amount.toNat := by
  have byte := a.isLt
  unfold uqshl
  by_cases none : amount = 0
  · rw [none, if_pos (by decide)]
    change (uqshlImm a 0).toNat = a.toNat / 2 ^ 0
    rw [toNat_uqshlImm]
    omega
  · rw [if_neg fun sign => none ((neg_toInt_nonneg_iff small).mp sign), neg_neg, BitVec.toNat_ushiftRight,
      Nat.shiftRight_eq_div_pow]

/-- The sign bits of an arithmetic shift are shifted out again. -/
theorem sshiftRight_shiftLeft (a : Byte) {shift : Nat} (small : shift ≤ 3) :
    a.sshiftRight shift <<< 4 = (a >>> shift) <<< 4 := by
  apply BitVec.eq_of_getLsbD_eq
  intro i inside
  simp only [BitVec.getLsbD_shiftLeft, BitVec.getLsbD_sshiftRight, BitVec.getLsbD_ushiftRight]
  by_cases low : i < 4
  · simp [low]
  · have below : shift + (i - 4) < 8 := by omega
    have byte : i - 4 < 8 := by omega
    simp [low, below, byte, inside]

theorem vshlS8_neg_shiftLeft (small : amount.toNat ≤ 3) (a : Byte) :
    Aarch32.vshlS8 a (-amount) <<< 4 = (a >>> amount.toNat) <<< 4 := by
  unfold Aarch32.vshlS8
  by_cases none : amount = 0
  · rw [none, if_pos (by decide), neg_zero]
    change (a <<< 0) <<< 4 = (a >>> 0) <<< 4
    rw [BitVec.shiftLeft_zero, BitVec.ushiftRight_zero]
  · rw [if_neg fun sign => none ((neg_toInt_nonneg_iff small).mp sign), neg_neg, sshiftRight_shiftLeft a small]

/-- The 64-bit kernel fills the byte up to its greatest value. -/
theorem toNat_compareAdd : (compareAdd primary first second addition).toNat =
    min 255 (min 255 (scaled primary first second * 16) + addition.toNat) := by
  rw [compareAdd, mask_eq_scale, toNat_uqadd, toNat_uqshlImm, toNat_uqshl_neg toNat_scale_le]
  rfl

/-- The 32-bit kernel wraps around. -/
theorem toNat_compareAdd32 : (compareAdd32 primary first second addition).toNat =
    min 255 (scaled primary first second * 16 % 256 + addition.toNat) := by
  rw [compareAdd32, mask_eq_scale, vshlS8_neg_shiftLeft toNat_scale_le, toNat_uqadd, BitVec.toNat_shiftLeft,
    BitVec.toNat_ushiftRight, Nat.shiftRight_eq_div_pow, Nat.shiftLeft_eq]
  rfl

/-- The scaled byte stays a byte, or the addition fills what is left of it. -/
def SameSum (primary first second addition : Byte) : Prop :=
  scaled primary first second < 16 ∨ 255 ≤ scaled primary first second * 16 % 256 + addition.toNat

theorem compareAdd_eq_iff_sameSum :
    compareAdd primary first second addition = compareAdd32 primary first second addition ↔
      SameSum primary first second addition := by
  have byte := addition.isLt
  rw [← BitVec.toNat_inj, toNat_compareAdd, toNat_compareAdd32, SameSum]
  omega

end Bytes

/-- Both kernels are called with the same planes and a count of whole blocks. -/
structure Twins where
  wide : BlockCall .compare3Add
  narrow : PlacedCall .compare3Add
  count : Kernel.compare3Add.count wide.cpu = Kernel32.compare3Add.count narrow.cpu
  multiple : 16 ∣ Kernel32.compare3Add.count narrow.cpu
  primary : ∀ i < Kernel32.compare3Add.count narrow.cpu, wide.cpu.byteAt 0 i = imageByte narrow.cpu 0 i
  first : ∀ i < Kernel32.compare3Add.count narrow.cpu, wide.cpu.byteAt 1 i = imageByte narrow.cpu 1 i
  second : ∀ i < Kernel32.compare3Add.count narrow.cpu, wide.cpu.byteAt 2 i = imageByte narrow.cpu 2 i
  addition : ∀ i < Kernel32.compare3Add.count narrow.cpu, wide.cpu.byteAt 3 i = imageByte narrow.cpu 3 i

namespace Twins

variable (t : Twins)

def pixels : Nat := Kernel32.compare3Add.count t.narrow.cpu

/-- Both kernels return, and their destinations hold the same bytes. -/
def Agree : Prop :=
  ∃ final final32, Kernel.compare3Add.Ends t.wide.cpu final ∧ Kernel32.compare3Add.Ends t.narrow.cpu final32 ∧
    ∀ i < t.pixels, final.mem (t.wide.cpu.x 4 + BitVec.ofNat 64 i) =
      final32.mem (Kernel32.compare3Add.dest t.narrow.cpu + BitVec.ofNat 32 i)

/-- The blocks of both kernels are all pixels. -/
theorem pixels_eq : Kernel.compare3Add.pixels t.wide.cpu = t.pixels ∧
    Kernel32.compare3Add.blocks t.narrow.cpu * 16 = t.pixels := by
  have enough := t.wide.enough
  rw [t.count] at enough
  constructor
  · rw [Kernel.pixels, Kernel.blocks, t.count]
    exact Nat.div_mul_cancel t.multiple
  · rw [t.narrow.blocks_of_enough enough]
    exact Nat.div_mul_cancel t.multiple

/-- The 64-bit kernel leaves its pixels for the planes of the 32-bit call. -/
theorem wide_dest {i : Nat} (inside : i < t.pixels) :
    (Kernel.compare3Add.finished .cmp3AddLoop t.wide.cpu).mem (t.wide.cpu.x 4 + BitVec.ofNat 64 i) =
      compareAdd (imageByte t.narrow.cpu 0 i) (imageByte t.narrow.cpu 1 i) (imageByte t.narrow.cpu 2 i)
        (imageByte t.narrow.cpu 3 i) := by
  rw [t.wide.compare3Add_dest (t.pixels_eq.1 ▸ inside), t.primary i inside, t.first i inside, t.second i inside,
    t.addition i inside]

theorem narrow_dest {final32 : Aarch32.Cpu} (leaves : t.narrow.Leaves final32) {i : Nat} (inside : i < t.pixels) :
    final32.mem (Kernel32.compare3Add.dest t.narrow.cpu + BitVec.ofNat 32 i) =
      compareAdd32 (imageByte t.narrow.cpu 0 i) (imageByte t.narrow.cpu 1 i) (imageByte t.narrow.cpu 2 i)
        (imageByte t.narrow.cpu 3 i) := by
  have plane (r : Fin 16) (single : Kernel32.compare3Add.shape.channels r = 1) :
      Kernel32.compare3Add.channelsAt t.narrow.cpu i r 0 = imageByte t.narrow.cpu r i :=
    t.narrow.channelsAt_single single i
  rw [leaves.dest i (t.pixels_eq.2 ▸ inside), ← plane 0 rfl, ← plane 1 rfl, ← plane 2 rfl, ← plane 3 rfl]
  rfl

/-- The kernels agree if and only if they give the same byte for each pixel. -/
theorem agree_iff_pixels : t.Agree ↔ ∀ i < t.pixels,
    compareAdd (imageByte t.narrow.cpu 0 i) (imageByte t.narrow.cpu 1 i) (imageByte t.narrow.cpu 2 i)
        (imageByte t.narrow.cpu 3 i) =
      compareAdd32 (imageByte t.narrow.cpu 0 i) (imageByte t.narrow.cpu 1 i) (imageByte t.narrow.cpu 2 i)
        (imageByte t.narrow.cpu 3 i) := by
  obtain ⟨end32, ends32, leaves⟩ := t.narrow.exists_end
  constructor
  · rintro ⟨final, final32, taken, taken32, same⟩ i inside
    obtain rfl := (t.wide.compare3Add_ends final).mp taken
    obtain rfl := (ends32 final32).mp taken32
    rw [← t.wide_dest inside, ← t.narrow_dest leaves inside]
    exact same i inside
  · intro same
    refine ⟨_, _, (t.wide.compare3Add_ends _).mpr rfl, (ends32 _).mpr rfl, fun i inside => ?_⟩
    rw [t.wide_dest inside, t.narrow_dest leaves inside]
    exact same i inside

/-- The kernels agree if and only if no scaled byte is lost at any pixel. -/
theorem agree_iff_sameSum : t.Agree ↔ ∀ i < t.pixels,
    SameSum (imageByte t.narrow.cpu 0 i) (imageByte t.narrow.cpu 1 i) (imageByte t.narrow.cpu 2 i)
      (imageByte t.narrow.cpu 3 i) := by
  rw [agree_iff_pixels]
  exact forall_congr' fun i => imp_congr_right fun _ => compareAdd_eq_iff_sameSum

end Twins

/-- All planes are at one address, and all bytes are sixteen. -/
def sixteens : Cpu where
  x r := if r < 5 then 0x1000 else 16
  v _ _ := 0
  flags := ⟨false, false, false, false⟩
  mem _ := 16
  trace := []

/-- The address of the destination and the count of sixteen are on the stack. -/
def sixteens32 : Aarch32.Cpu where
  r k := if k < 4 then 0x1000 else 0x2000
  q _ _ := 0
  flags := ⟨false, false, false⟩
  mem a := if a ∈ span 0x2000#32 8 then if a = 0x2001 ∨ a = 0x2004 then 16 else 0 else 16

/-- The planes are in the place of the destination, and the other registers have no image. -/
theorem sixteens32_planes (r : Fin 16) : Kernel32.compare3Add.shape.channels r = 0 ∨
    argument sixteens32 r = 0x1000 ∧ Kernel32.compare3Add.shape.channels r = 1 := by
  revert r
  decide

def blockOfSixteens : Twins where
  wide :=
    { cpu := sixteens
      enough := by decide
      placed := by
        have here : ∀ image ∈ Kernel.compare3Add.sources ++ Kernel.compare3Add.dests,
            sixteens.x image.1 = 0x1000 ∧ image.2 = 1 := by decide
        intro source member dest listed
        have first := here source (List.mem_append_left _ member)
        have last := here dest (List.mem_append_right _ listed)
        exact Or.inr ⟨first.1.trans last.1.symm, first.2.trans last.2.symm⟩ }
  narrow :=
    { cpu := sixteens32
      placed := by
        intro r
        rcases sixteens32_planes r with none | ⟨here, single⟩
        · rw [Kernel32.image, none, Nat.mul_zero, span_zero]
          exact Or.inl (Set.empty_disjoint _)
        · rw [here, single]
          exact Or.inr (by decide)
      framed := by
        intro r
        rcases sixteens32_planes r with none | ⟨here, single⟩
        · rw [Kernel32.image, none, Nat.mul_zero, span_zero]
          exact Set.empty_disjoint _
        · rw [Kernel32.image, here, single]
          exact disjoint_of_far (by decide) (by decide) }
  count := by decide
  multiple := by decide
  primary := by decide
  first := by decide
  second := by decide
  addition := by decide

/-- The 64-bit kernel leaves 255 where the 32-bit kernel leaves the addition. -/
theorem blockOfSixteens_not_agree : ¬blockOfSixteens.Agree := by
  intro agree
  exact absurd (blockOfSixteens.agree_iff_pixels.mp agree 0 (by decide)) (by decide)

end VisionServer.Neon
