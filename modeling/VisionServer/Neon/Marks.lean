/-
This file decides which calls of the comparing kernels leave the images of their prototypes.
-/

import VisionServer.Neon.Blocks
import VisionServer.Neon.Exact

namespace VisionServer.Neon
open Library Library.Aarch64 Library.Assembly

section ThresholdBinary

theorem thresholdBinary_streams (cpu : Cpu) : Streams .thresholdBinary .threshBinLoop cpu :=
  .of_falls (by decide) threshBinLoop_shape rfl cpu

/-- The threshold reaches the lower eight lanes of a block. -/
def lowerThreshold (cpu : Cpu) : Lanes := fun i => if i.val < 8 then (cpu.x 3).setWidth 8 else 0

theorem toNat_lowerThreshold_le (cpu : Cpu) (i : Fin 16) :
    (lowerThreshold cpu i).toNat ≤ (cpu.x 3).toNat % 256 := by
  unfold lowerThreshold
  split
  · exact Nat.le_of_eq (BitVec.toNat_setWidth ..)
  · exact Nat.zero_le _

/-- A byte and its mark agree in both directions when both are empty or both are full. -/
theorem marked_byte_iff {source dest lane : Byte} {threshold : Nat} (below : lane.toNat ≤ threshold)
    (byte : threshold < 256) :
    cmhi dest lane = source ∧ dest.toNat = (if threshold < source.toNat then 255 else 0) ↔
      source = 0 ∧ dest = 0 ∨ threshold ≠ 255 ∧ source = 255 ∧ dest = 255 := by
  have first := source.isLt
  have second := dest.isLt
  simp only [← BitVec.toNat_inj, toNat_cmhi, BitVec.ofNat_eq_ofNat, BitVec.toNat_ofNat]
  split <;> split <;> omega

namespace ApartCall

variable (c : ApartCall .thresholdBinary)

/-- The threshold is passed in the lowest byte of its register. -/
def threshold : Nat := (c.cpu.x 3).toNat % 256

/-- The kernel marks the bytes above the threshold in its destination and keeps its source. -/
def Marks : Prop :=
  ∃ final, Kernel.thresholdBinary.Ends c.cpu final ∧
    (∀ i < Kernel.thresholdBinary.pixels c.cpu, (final.mem (c.cpu.x 1 + BitVec.ofNat 64 i)).toNat =
      if c.threshold < (c.cpu.byteAt 0 i).toNat then 255 else 0) ∧
    ∀ a ∈ imageBytes Kernel.thresholdBinary.sources (Kernel.thresholdBinary.count c.cpu) c.cpu.x,
      final.mem a = c.cpu.mem a

/-- The images are marked before the call. -/
def Marked : Prop :=
  ∀ i < Kernel.thresholdBinary.pixels c.cpu,
    c.cpu.byteAt 0 i = 0 ∧ c.cpu.byteAt 1 i = 0 ∨
      c.threshold ≠ 255 ∧ c.cpu.byteAt 0 i = 255 ∧ c.cpu.byteAt 1 i = 255

/-- The kernel marks its source by the bytes of its destination. -/
theorem thresholdBinary_mem : (Kernel.thresholdBinary.finished .threshBinLoop c.cpu).mem =
    overwritten (c.cpu.x 0) (Kernel.thresholdBinary.pixels c.cpu)
      (fun q => cmhi (c.cpu.byteAt 1 q) (lowerThreshold c.cpu (.ofNat 16 q))) c.cpu.mem := by
  have placed : Placed (turnOps .threshBinLoop) 0 16 (Kernel.thresholdBinary.blocks c.cpu) c.cpu.x := by
    intro t member toward
    have only : ∀ t ∈ touches (turnOps .threshBinLoop), t.direction = .load → t = ⟨.load, 1, 0, 16⟩ := by
      decide
    obtain rfl := only t member toward
    rcases c.toBlockCall.placed (0, 1) (by decide) (1, 1) (by decide) with apart | ⟨here, _⟩
    · rw [Nat.mul_one] at apart
      exact Or.inl apart.symm
    · exact Or.inr ⟨here.symm, rfl⟩
  have left := c.toBlockCall.finished_mem (thresholdBinary_streams _)
    (threshBinLoop_pixelwise (lowerThreshold c.cpu)) rfl (by decide)
    (Nat.le_of_lt (Kernel.pixels_lt _ _)) placed
  refine left.trans (overwritten_congr fun q _ => ?_)
  rw [markAbove, Kernel.prepared_byteAt (by decide)]
  rfl

theorem thresholdBinary_ends (final : Cpu) :
    Kernel.thresholdBinary.Ends c.cpu final ↔
      final = Kernel.thresholdBinary.finished .threshBinLoop c.cpu :=
  c.toBlockCall.ends_iff_finished (thresholdBinary_streams _) final

/-- The source bytes of the blocks are replaced. -/
theorem thresholdBinary_source {i : Nat} (inside : i < Kernel.thresholdBinary.pixels c.cpu) :
    (Kernel.thresholdBinary.finished .threshBinLoop c.cpu).mem (c.cpu.x 0 + BitVec.ofNat 64 i) =
      cmhi (c.cpu.byteAt 1 i) (lowerThreshold c.cpu (.ofNat 16 i)) := by
  have small := Kernel.thresholdBinary.pixels_lt c.cpu
  rw [c.thresholdBinary_mem, overwritten_add inside (by omega)]

theorem thresholdBinary_kept {a : Word}
    (outside : a ∉ span (c.cpu.x 0) (Kernel.thresholdBinary.pixels c.cpu)) :
    (Kernel.thresholdBinary.finished .threshBinLoop c.cpu).mem a = c.cpu.mem a := by
  rw [c.thresholdBinary_mem, overwritten_of_notMem outside]

/-- The destination bytes are kept. -/
theorem thresholdBinary_dest {i : Nat} (inside : i < Kernel.thresholdBinary.pixels c.cpu) :
    (Kernel.thresholdBinary.finished .threshBinLoop c.cpu).mem (c.cpu.x 1 + BitVec.ofNat 64 i) =
      c.cpu.byteAt 1 i := by
  have shorter := Kernel.thresholdBinary.pixels_le c.cpu
  have apart := c.apart
  rw [imageBytes_single (show Kernel.thresholdBinary.sources = [(0, 1)] from rfl),
    imageBytes_single (show Kernel.thresholdBinary.dests = [(1, 1)] from rfl)] at apart
  apply c.thresholdBinary_kept
  intro given
  exact Set.disjoint_left.mp apart (span_mono (by omega) given) (add_mem_of_lt _ (by omega))

/-- A call marks its destination if and only if its images are marked before. -/
theorem marks_iff_marked : c.Marks ↔ c.Marked := by
  have byte (i : Nat) : cmhi (c.cpu.byteAt 1 i) (lowerThreshold c.cpu (.ofNat 16 i)) = c.cpu.byteAt 0 i ∧ _ ↔ _ :=
    marked_byte_iff (toNat_lowerThreshold_le c.cpu _) (Nat.mod_lt _ (by decide))
  constructor
  · intro given i inside
    obtain ⟨final, taken, marked, same⟩ := given
    obtain rfl := (c.thresholdBinary_ends final).mp taken
    have mark := marked i inside
    rw [c.thresholdBinary_dest inside] at mark
    have source := same (c.cpu.x 0 + BitVec.ofNat 64 i) ⟨(0, 1), by decide, by
      rw [Nat.mul_one]
      exact add_mem_of_lt _ (Nat.lt_of_lt_of_le inside (Kernel.pixels_le _ _))⟩
    rw [c.thresholdBinary_source inside] at source
    exact (byte i).mp ⟨source, mark⟩
  · intro marked
    refine ⟨_, (c.thresholdBinary_ends _).mpr rfl, fun i inside => ?_, fun a _ => ?_⟩
    · rw [c.thresholdBinary_dest inside]
      exact ((byte i).mpr (marked i inside)).2
    · by_cases within : a ∈ span (c.cpu.x 0) (Kernel.thresholdBinary.pixels c.cpu)
      · obtain ⟨i, inside, rfl⟩ := exists_of_mem_span within
        rw [c.thresholdBinary_source inside]
        exact ((byte i).mpr (marked i inside)).1
      · exact c.thresholdBinary_kept within

end ApartCall

/-- A block of ones is thresholded at zero. -/
def blockOfOnes : ApartCall .thresholdBinary where
  cpu := farPlanes .thresholdBinary 16 0 fun _ => 1
  enough := by decide
  apart := Kernel.apart_of_far (by decide)

/-- The first byte of the destination keeps its one. -/
theorem blockOfOnes_not_marks : ¬ blockOfOnes.Marks := by
  intro given
  obtain ⟨final, taken, marked, _⟩ := given
  obtain rfl := (blockOfOnes.thresholdBinary_ends final).mp taken
  have mark := marked 0 (by decide)
  rw [blockOfOnes.thresholdBinary_dest (by decide)] at mark
  exact absurd mark (by decide)

end ThresholdBinary

section Compare3Add

/-- A byte that is not above both others passes nothing. -/
theorem cmhi_and_cmhi_of_not_above {primary first second : Byte} (fails : ¬ (first < primary ∧ second < primary)) :
    cmhi primary first &&& cmhi primary second = 0 := by
  unfold cmhi
  by_cases above : first < primary
  · rw [if_neg (show ¬ second < primary from fun other => fails ⟨above, other⟩)]
    exact BitVec.and_zero
  · rw [if_neg above]
    exact BitVec.zero_and

/-- A byte that is not above both others is scaled as a whole. -/
theorem toNat_compareAdd_of_not_above {primary first second addition : Byte}
    (fails : ¬ (first < primary ∧ second < primary)) :
    (compareAdd primary first second addition).toNat =
      min 255 (min 255 (primary.toNat * 16) + addition.toNat) := by
  have scaled : uqshl primary (-((primary &&& 0) >>> 6)) = uqshlImm primary 0 := by
    rw [show primary &&& 0 = 0 from BitVec.and_zero]
    rfl
  rw [compareAdd, cmhi_and_cmhi_of_not_above fails, scaled, toNat_uqadd, toNat_uqshlImm, toNat_uqshlImm]
  have byte := primary.isLt
  omega

theorem compare3Add_streams (cpu : Cpu) : Streams .compare3Add .cmp3AddLoop cpu :=
  .of_falls (by decide) (show Loop Kernel.compare3Add.counter _ from cmp3AddLoop_shape) rfl cpu

namespace BlockCall

variable (c : BlockCall .compare3Add)

/-- The primary byte is the strict maximum of its pixel. -/
def Above (i : Nat) : Prop := c.cpu.byteAt 1 i < c.cpu.byteAt 0 i ∧ c.cpu.byteAt 2 i < c.cpu.byteAt 0 i

/-- A pixel whose primary byte is not the strict maximum contributes nothing to the addition. -/
def PassesAddition : Prop :=
  ∃ final, Kernel.compare3Add.Ends c.cpu final ∧ ∀ i < Kernel.compare3Add.pixels c.cpu,
    ¬ c.Above i → final.mem (c.cpu.x 4 + BitVec.ofNat 64 i) = c.cpu.byteAt 3 i

/-- No pixel has a byte to contribute or room to take it. -/
def Idle : Prop :=
  ∀ i < Kernel.compare3Add.pixels c.cpu, ¬ c.Above i → c.cpu.byteAt 0 i = 0 ∨ c.cpu.byteAt 3 i = 255

theorem compare3Add_ends (final : Cpu) :
    Kernel.compare3Add.Ends c.cpu final ↔ final = Kernel.compare3Add.finished .cmp3AddLoop c.cpu :=
  c.ends_iff_finished (compare3Add_streams _) final

/-- The destination takes the value of each pixel in the memory of the call. -/
theorem compare3Add_dest {i : Nat} (inside : i < Kernel.compare3Add.pixels c.cpu) :
    (Kernel.compare3Add.finished .cmp3AddLoop c.cpu).mem (c.cpu.x 4 + BitVec.ofNat 64 i) =
      compareAdd (c.cpu.byteAt 0 i) (c.cpu.byteAt 1 i) (c.cpu.byteAt 2 i) (c.cpu.byteAt 3 i) := by
  have small := Kernel.compare3Add.pixels_lt c.cpu
  have left := c.finished_mem (compare3Add_streams _) cmp3AddLoop_pixelwise trivial (by decide) (Nat.le_of_lt small)
    (c.placed_of_regular compare3Add_regular rfl)
  rw [left]
  refine (overwritten_add inside (by omega)).trans ?_
  rw [Kernel.prepared_byteAt (by decide),
    Kernel.prepared_byteAt (by decide), Kernel.prepared_byteAt (by decide),
    Kernel.prepared_byteAt (by decide)]

/-- A call passes its addition if and only if no pixel below the maximum has something to add. -/
theorem passesAddition_iff_idle : c.PassesAddition ↔ c.Idle := by
  have byte {i : Nat} (fails : ¬ c.Above i) : compareAdd (c.cpu.byteAt 0 i) (c.cpu.byteAt 1 i)
      (c.cpu.byteAt 2 i) (c.cpu.byteAt 3 i) = c.cpu.byteAt 3 i ↔
        c.cpu.byteAt 0 i = 0 ∨ c.cpu.byteAt 3 i = 255 := by
    have most := (c.cpu.byteAt 3 i).isLt
    simp only [← BitVec.toNat_inj, toNat_compareAdd_of_not_above fails, BitVec.ofNat_eq_ofNat,
      BitVec.toNat_ofNat]
    omega
  constructor
  · intro given i inside fails
    obtain ⟨final, taken, passes⟩ := given
    obtain rfl := (c.compare3Add_ends final).mp taken
    have same := passes i inside fails
    rw [c.compare3Add_dest inside] at same
    exact (byte fails).mp same
  · intro idle
    refine ⟨_, (c.compare3Add_ends _).mpr rfl, fun i inside fails => ?_⟩
    rw [c.compare3Add_dest inside]
    exact (byte fails).mpr (idle i inside fails)

end BlockCall

/-- Five planes hold the same byte at each pixel. -/
def equalPlanes : BlockCall .compare3Add where
  cpu := farPlanes .compare3Add 16 0 fun _ => 1
  enough := by decide
  placed := Kernel.placed_of_far (by decide)

/-- The first primary byte is scaled and added. -/
theorem equalPlanes_not_passesAddition : ¬ equalPlanes.PassesAddition := by
  intro given
  obtain ⟨final, taken, passes⟩ := given
  obtain rfl := (equalPlanes.compare3Add_ends final).mp taken
  have same := passes 0 (by decide) (by unfold BlockCall.Above; decide)
  rw [equalPlanes.compare3Add_dest (by decide)] at same
  exact absurd same (by decide)

end Compare3Add

end VisionServer.Neon
