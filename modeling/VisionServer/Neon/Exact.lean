/-
This file decides for every kernel which of its calls read and write exactly their images.
-/

import VisionServer.Neon.Handover

namespace VisionServer.Neon
open Library Library.Aarch64 Library.Assembly

section Swapped

theorem threshBinLoop_shape : Loop Kernel.thresholdBinary.counter .threshBinLoop :=
  ⟨⟨by decide, by decide, by decide⟩, rfl, _, rfl, fun _ _ _ => returns_ret⟩

theorem threshBinLoop_loads :
    (touches (turnOps .threshBinLoop)).filter (·.direction = .load) = [⟨.load, 1, 0, 16⟩] := rfl

/-- The kernel reads its destination, so it has no exact call. -/
theorem thresholdBinary_exact_iff (c : Call .thresholdBinary) : c.Exact ↔ c.Fits := by
  obtain ⟨t, ends, touched⟩ :=
    threshBinLoop_shape.exists_ends (c := c) ⟨rfl, rfl⟩ (c.ends_iff_of_falls rfl)
  refine ⟨fun exact_call => ?_, False.elim⟩
  rw [Call.exact_iff_of_ends ends, touched, c.touched_fresh, Set.empty_union,
    loopFootprint_single threshBinLoop_loads rfl] at exact_call
  have sources : Kernel.thresholdBinary.sources = [(0, 1)] := rfl
  have dests : Kernel.thresholdBinary.dests = [(1, 1)] := rfl
  have apart := c.disjoint
  rw [imageBytes_single sources, imageBytes_single dests] at apart
  have read : c.cpu.x 1 ∈ span (c.cpu.x 0) (c.size * 1) := by
    rw [← imageBytes_single sources]
    apply exact_call.1
    exact base_mem_span _ (Nat.mul_pos (Nat.succ_pos _) (by decide))
  have positive : 0 < c.size * 1 := Nat.zero_lt_of_lt (mem_span.mp read)
  exact Set.disjoint_left.mp apart read (base_mem_span _ positive)

end Swapped

section Wst

theorem wstLoop_shape : Loop Kernel.wst.counter .wstLoop :=
  ⟨⟨by decide, by decide, by decide⟩, rfl, _, rfl, fun _ _ _ => returns_ret⟩

theorem wstLoop_stores :
    (touches (turnOps .wstLoop)).filter (·.direction = .store) = [⟨.store, 1, 16, 16⟩] := rfl

/-- The kernel stores each block behind the block that it loaded from its second source. -/
theorem mem_wst_stores (n distance : Nat) (x : Fin 31 → Word) :
    x 1 + BitVec.ofNat 64 distance ∈ loopFootprint .store (turnOps .wstLoop) n x ↔
      ∃ i < n, (BitVec.ofNat 64 distance - BitVec.ofNat 64 (i * 32 + 16)).toNat < 16 := by
  rw [mem_loopFootprint_single wstLoop_stores]
  simp only [mem_span, add_sub_add_left_eq_sub]
  exact Iff.rfl

/-- The written bytes are a range only when they are a single block. -/
theorem wst_stores_eq_span_iff {n length : Nat} {base : Word} (positive : 0 < n) (small : length < 2 ^ 31)
    (x : Fin 31 → Word) : loopFootprint .store (turnOps .wstLoop) n x = span base length ↔
      n = 1 ∧ length = 16 ∧ base = x 1 + 16 := by
  constructor
  · intro same
    have first : x 1 + 16 ∈ span base length := by
      rw [← same]
      exact (mem_wst_stores n 16 x).mpr ⟨0, positive, by decide⟩
    have before : x 1 + 16 - 1 ∉ span base length := by
      rw [← same, show x 1 + 16 - 1 = x 1 + BitVec.ofNat 64 15 from add_sub_assoc ..]
      intro found
      obtain ⟨i, _, near⟩ := (mem_wst_stores n 15 x).mp found
      bv_omega
    obtain rfl := eq_base_of_pred_notMem first before
    have inside (distance : Nat) (near : distance < 2 ^ 32) :
        distance < length ↔ x 1 + BitVec.ofNat 64 (16 + distance) ∈
          loopFootprint .store (turnOps .wstLoop) n x := by
      rw [same, BitVec.ofNat_add, ← BitVec.add_assoc]
      exact (add_mem_span _ (by omega)).symm
    have least : 15 < length :=
      (inside 15 (by decide)).mpr ((mem_wst_stores ..).mpr ⟨0, positive, by decide⟩)
    have most : ¬ 16 < length := by
      rw [inside 16 (by decide), mem_wst_stores]
      intro given
      obtain ⟨i, _, near⟩ := given
      bv_omega
    have single : ¬ 1 < n := by
      intro second
      have gap := (inside 32 (by decide)).mpr ((mem_wst_stores ..).mpr ⟨1, second, by decide⟩)
      omega
    exact ⟨by omega, by omega, rfl⟩
  · intro given
    obtain ⟨rfl, rfl, rfl⟩ := given
    ext a
    rw [mem_loopFootprint_single wstLoop_stores]
    constructor
    · intro given
      obtain ⟨i, first, found⟩ := given
      obtain rfl : i = 0 := by omega
      exact found
    · intro found
      exact ⟨0, by decide, found⟩

theorem wst_exact_iff (c : Call .wst) : c.Exact ↔ c.Fits := by
  have prepares : c.Prepares (c.cpu.x 4 >>> 4) := ⟨rfl, rfl⟩
  obtain ⟨t, ends, touched⟩ := wstLoop_shape.exists_ends prepares (c.ends_iff_of_falls rfl)
  have count := turns_eq (c.cpu.x 4 >>> 4)
  rw [lsr_x_toNat] at count
  have small : c.size < 2 ^ 31 := c.size_lt
  have parts : (c.cpu.x 4).toNat = c.upper * 2 ^ 32 + c.size := c.toNat_counter
  have loads : ∀ t ∈ touches (turnOps .wstLoop), t.direction = .load →
      t.offset = 0 ∧ ∃ image ∈ Kernel.wst.sources, t.n = image.1 ∧ t.bytes = 16 * image.2 := by decide
  have positive : 0 < turns (c.cpu.x 4 >>> 4) := Nat.succ_pos _
  rw [Call.exact_iff_of_ends ends, touched, touched, c.touched_fresh, c.touched_fresh, Set.empty_union,
    Set.empty_union, Call.destBytes, imageBytes_single (show Kernel.wst.dests = [(3, 1)] from rfl),
    wst_stores_eq_span_iff positive (by omega), Nat.mul_one]
  constructor
  · intro given
    obtain ⟨_, one, size, base⟩ := given
    rw [parts] at count
    split at count
    · omega
    · exact ⟨size, by omega, base⟩
  · intro given
    obtain ⟨size, upper, base⟩ := given
    rw [parts, size, upper, if_neg (by decide)] at count
    refine ⟨?_, count, size, base⟩
    rw [Call.sourceBytes, size]
    intro a given
    obtain ⟨i, first, t, member, toward, found⟩ := given
    obtain ⟨start, image, source, same, bytes⟩ := loads t member toward
    rw [show i = 0 by omega, start, same, bytes, Nat.zero_mul, BitVec.add_zero] at found
    exact ⟨image, source, found⟩

end Wst

/-- A call of a kernel is exact if and only if its count and its placement fit. -/
theorem exact_iff_fits {k : Kernel} (c : Call k) : c.Exact ↔ c.Fits := by
  cases k with
  | threshold => exact threshold_exact_iff c
  | thresholdBinary => exact thresholdBinary_exact_iff c
  | compare3Add => exact compare3Add_exact_iff c
  | wst => exact wst_exact_iff c
  | deinterlaceWstb => exact deinterlaceWstb_exact_iff c
  | deinterlaceTogray => exact deinterlaceTogray_exact_iff c
  | bitwiseOr => exact bitwiseOr_exact_iff c
  | bitwiseOr3c => exact bitwiseOr3c_exact_iff c
  | add => exact add_exact_iff c
  | add3c => exact add3c_exact_iff c
  | add3c2 => exact add3c2_exact_iff c
  | subtract => exact subtract_exact_iff c

/-- A frame of seventeen pixels is passed to the threshold kernel. -/
def seventeenPixels : Call .threshold where
  cpu := {
    x := fun r => if r = 0 then 0x1000 else if r = 1 then 0x2000 else if r = 2 then 17 else 0
    v := fun _ _ => 0
    flags := ⟨false, false, false, false⟩
    mem := fun _ => 0
    trace := [] }
  fresh := rfl
  size_lt := by decide
  disjoint := by
    rw [imageBytes_single (show Kernel.threshold.sources = [(0, 1)] from rfl),
      imageBytes_single (show Kernel.threshold.dests = [(1, 1)] from rfl), Set.disjoint_left]
    intro a source dest
    change (a - 0x1000).toNat < 17 at source
    change (a - 0x2000).toNat < 17 at dest
    bv_omega

/-- The kernel writes one block, and the seventeenth pixel is left. -/
theorem seventeenPixels_not_exact : ¬ seventeenPixels.Exact := by
  rw [threshold_exact_iff]
  intro given
  obtain ⟨_, blocks⟩ := given
  exact absurd blocks (by decide)

end VisionServer.Neon
