/-
This file decides when the 32-bit and the 64-bit kernels of one name leave the same images.
-/

import VisionServer.Neon.Calls32
import VisionServer.Neon.Marks
import VisionServer.Neon.Streams

namespace VisionServer.Neon
open Library Library.Assembly
open Library.Aarch64 (Byte cmhi uqsub toNat_cmhi)

/-- An image that is apart from the destination is kept. -/
theorem PlacedCall.Leaves.image {k : Kernel32} {c : PlacedCall k} {t : Aarch32.Cpu} (leaves : c.Leaves t) {r : Fin 16}
    (apart : Disjoint (k.image c.cpu r) (k.written c.cpu)) {i : Nat}
    (inside : i < k.blocks c.cpu * (16 * k.shape.channels r)) :
    t.mem (argument c.cpu r + BitVec.ofNat 32 i) = imageByte c.cpu r i := by
  have member : argument c.cpu r + BitVec.ofNat 32 i ∈ k.image c.cpu r := add_mem_of_lt _ inside
  exact leaves.rest _ (Set.disjoint_left.mp apart member) (Set.disjoint_left.mp (c.framed r) member)

/-- Both kernels are called with the same count. -/
structure Ports (wide : Kernel) (narrow : Kernel32) where
  wideCall : BlockCall wide
  narrowCall : FamilyCall narrow
  count : wide.count wideCall.cpu = narrow.count narrowCall.cpu

namespace Ports

variable {wide : Kernel} {narrow : Kernel32} (p : Ports wide narrow)

/-- The pixels of the whole blocks are the same for both. -/
theorem pixels_eq : narrow.blocks p.narrowCall.cpu * 16 = wide.pixels p.wideCall.cpu := by
  have enough := p.wideCall.enough
  rw [p.count] at enough
  rw [p.narrowCall.blocks_of_enough enough, Kernel.pixels, Kernel.blocks, p.count]

/-- The byte of an image is the same for both. -/
def SameImage (r : Fin 31) (k : Fin 16) : Prop :=
  ∀ i < wide.pixels p.wideCall.cpu, p.wideCall.cpu.byteAt r i = imageByte p.narrowCall.cpu k i

end Ports

section Pairs

/-- The kernels that combine two images and are alike on both processors. -/
inductive Combining where
  | bitwiseOr
  | subtract
deriving DecidableEq

def Combining.wide : Combining → Streamed
  | .bitwiseOr => .bitwiseOr
  | .subtract => .subtract

def Combining.narrow : Combining → Kernel32
  | .bitwiseOr => .bitwiseOr
  | .subtract => .subtract

/-- Both kernels are called with the same two images. -/
structure CombiningPorts (k : Combining) extends Ports k.wide.kernel k.narrow where
  first : toPorts.SameImage 0 0
  second : toPorts.SameImage 1 1

/-- Both kernels return, and their destinations hold the same bytes. -/
def CombiningPorts.Agree {k : Combining} (p : CombiningPorts k) : Prop :=
  ∃ final final32, k.wide.kernel.Ends p.wideCall.cpu final ∧ k.narrow.Ends p.narrowCall.cpu final32 ∧
    ∀ i < k.wide.kernel.pixels p.wideCall.cpu, final.mem (p.wideCall.cpu.x 2 + BitVec.ofNat 64 i) =
      final32.mem (k.narrow.dest p.narrowCall.cpu + BitVec.ofNat 32 i)

/-- The kernels that combine two images leave the same destination on both processors. -/
theorem combining_agree {k : Combining} (p : CombiningPorts k) : p.Agree := by
  obtain ⟨final32, ends32, leaves⟩ := p.narrowCall.exists_end
  refine ⟨_, final32, (k.wide.ends_iff p.wideCall _).mpr rfl, (ends32 _).mpr rfl, fun i inside => ?_⟩
  have narrowByte := leaves.dest i (by rw [p.pixels_eq]; exact inside)
  have channels : ∀ r < (2 : Fin 16), k.narrow.shape.channels r = 1 := by
    cases k <;> decide
  have first := p.first i inside
  have second := p.second i inside
  rw [← p.narrowCall.channelsAt_single (channels 0 (by decide))] at first
  rw [← p.narrowCall.channelsAt_single (channels 1 (by decide))] at second
  have dest : k.wide.dest = 2 := by cases k <;> rfl
  have single : k.wide.channels = 1 := by cases k <;> rfl
  have wideByte := k.wide.finished_byte p.wideCall (j := i) (by rw [single, Nat.mul_one]; exact inside)
  rw [dest, k.wide.value_prepared] at wideByte
  rw [wideByte, narrowByte]
  cases k with
  | bitwiseOr => exact congrArg₂ (· ||| ·) first second
  | subtract => exact congrArg₂ uqsub first second

/-- The bytes of the images change from one to the next and from one image to another. -/
def speckle (address : Nat) : Byte := BitVec.ofNat 8 (97 * (address / 0x1000) + 13 * (address % 0x1000))

/-- Images with speckles are combined. -/
def speckledCombining (k : Combining) : CombiningPorts k where
  wideCall :=
    { cpu := farPlanes k.wide.kernel 16 0 fun a => speckle a.toNat
      enough := by cases k <;> decide
      placed := Kernel.placed_of_far (by cases k <;> decide) }
  narrowCall := farCall k.narrow (fun _ => 0) fun a => speckle a.toNat
  count := by cases k <;> decide
  first := by cases k <;> (unfold Ports.SameImage; decide +kernel)
  second := by cases k <;> (unfold Ports.SameImage; decide +kernel)

theorem speckledCombining_agree : (speckledCombining .subtract).Agree := combining_agree (speckledCombining .subtract)

end Pairs

section Thresholds

/-- Both kernels are called with the same source, destination and threshold, in the order of the prototype. The images
are apart from each other. -/
structure ThresholdPorts (wide : Kernel) (narrow : Kernel32) where
  wideCall : ApartCall wide
  narrowCall : FamilyCall narrow
  count : wide.count wideCall.cpu = narrow.count narrowCall.cpu
  apart : Disjoint (narrow.image narrowCall.cpu 1) (narrow.written narrowCall.cpu)
  threshold : (wideCall.cpu.x 3).setWidth 8 = byteArgument32 narrowCall.cpu 3
  source : ∀ i < wide.pixels wideCall.cpu, wideCall.cpu.byteAt 0 i = imageByte narrowCall.cpu 0 i
  dest : ∀ i < wide.pixels wideCall.cpu, wideCall.cpu.byteAt 1 i = imageByte narrowCall.cpu 1 i

namespace ThresholdPorts

variable {wide : Kernel} {narrow : Kernel32} (p : ThresholdPorts wide narrow)

def toPorts : Ports wide narrow := ⟨p.wideCall.toBlockCall, p.narrowCall, p.count⟩

/-- Both kernels return and leave the same source and the same destination. -/
def Agree : Prop :=
  ∃ final final32, wide.Ends p.wideCall.cpu final ∧ narrow.Ends p.narrowCall.cpu final32 ∧
    ∀ i < wide.pixels p.wideCall.cpu,
      final.mem (p.wideCall.cpu.x 0 + BitVec.ofNat 64 i) =
        final32.mem (argument p.narrowCall.cpu 0 + BitVec.ofNat 32 i) ∧
      final.mem (p.wideCall.cpu.x 1 + BitVec.ofNat 64 i) =
        final32.mem (argument p.narrowCall.cpu 1 + BitVec.ofNat 32 i)

/-- Kernels that return in one state each agree if and only if these states do. -/
theorem agree_iff {final : Aarch64.Cpu} {final32 : Aarch32.Cpu}
    (ends : ∀ other, wide.Ends p.wideCall.cpu other ↔ other = final)
    (ends32 : ∀ other, narrow.Ends p.narrowCall.cpu other ↔ other = final32) : p.Agree ↔
      ∀ i < wide.pixels p.wideCall.cpu,
        final.mem (p.wideCall.cpu.x 0 + BitVec.ofNat 64 i) =
          final32.mem (argument p.narrowCall.cpu 0 + BitVec.ofNat 32 i) ∧
        final.mem (p.wideCall.cpu.x 1 + BitVec.ofNat 64 i) =
          final32.mem (argument p.narrowCall.cpu 1 + BitVec.ofNat 32 i) := by
  constructor
  · rintro ⟨left, left32, taken, taken32, same⟩
    obtain rfl := (ends left).mp taken
    obtain rfl := (ends32 left32).mp taken32
    exact same
  · intro same
    exact ⟨final, final32, (ends final).mpr rfl, (ends32 final32).mpr rfl, same⟩

end ThresholdPorts

/-- The 32-bit kernels threshold the destination into the source and keep the destination. -/
theorem PlacedCall.Leaves.swapped {k : Kernel32} {c : PlacedCall k} {t : Aarch32.Cpu} (leaves : c.Leaves t)
    (shape : k.shape.dest = 0 ∧ k.shape.channels 1 = 1) (apart : Disjoint (k.image c.cpu 1) (k.written c.cpu))
    {i : Nat} (inside : i < k.blocks c.cpu * 16) :
    t.mem (argument c.cpu 0 + BitVec.ofNat 32 i) = k.pixel c.cpu (k.channelsAt c.cpu i) ∧
      t.mem (argument c.cpu 1 + BitVec.ofNat 32 i) = imageByte c.cpu 1 i := by
  obtain ⟨dest, single⟩ := shape
  have stored := leaves.dest i inside
  rw [Kernel32.dest, dest] at stored
  exact ⟨stored, leaves.image apart (by rw [single]; exact inside)⟩

/-- A byte above the threshold is kept, and another one is emptied. -/
theorem cmhi_and_eq_self_iff {byte threshold : Byte} :
    cmhi byte threshold &&& byte = byte ↔ byte = 0 ∨ threshold < byte := by
  unfold cmhi
  by_cases above : threshold < byte
  · rw [if_pos above, BitVec.allOnes_and]
    exact iff_of_true rfl (Or.inr above)
  · have none : (0 : Byte) &&& byte = 0 := BitVec.zero_and
    rw [if_neg above, none]
    exact ⟨fun same => Or.inl same.symm, fun given => (given.resolve_right above).symm⟩

/-- Each of two bytes is the kept part of the other if and only if they are the same kept byte. -/
theorem kept_each_other_iff {source dest threshold : Byte} :
    source = cmhi dest threshold &&& dest ∧ cmhi source threshold &&& source = dest ↔
      source = dest ∧ (dest = 0 ∨ threshold < dest) := by
  constructor
  · rintro ⟨first, second⟩
    have kept : cmhi dest threshold &&& dest = dest := by
      by_cases above : threshold < dest
      · exact cmhi_and_eq_self_iff.mpr (Or.inr above)
      · have empty : source = 0 := by
          rw [first, cmhi, if_neg above]
          exact BitVec.zero_and
        have none : dest = 0 := by
          rw [← second, empty]
          exact BitVec.and_zero
        exact cmhi_and_eq_self_iff.mpr (Or.inl none)
    exact ⟨first.trans kept, cmhi_and_eq_self_iff.mp kept⟩
  · rintro ⟨rfl, kept⟩
    have same := cmhi_and_eq_self_iff.mpr kept
    exact ⟨same.symm, same⟩

/-- A byte of a source is outside the destination of a call with images apart from each other. -/
theorem ApartCall.notMem_dest {k : Kernel} (c : ApartCall k) {r d : Fin 31} {channels other i : Nat}
    (source : (r, channels) ∈ k.sources) (dests : k.dests = [(d, other)]) (inside : i < k.pixels c.cpu * channels) :
    c.cpu.x r + BitVec.ofNat 64 i ∉ span (c.cpu.x d) (k.pixels c.cpu * other) := by
  have shorter := Nat.mul_le_mul_right channels (k.pixels_le c.cpu)
  have apart := c.apart
  rw [imageBytes_single dests] at apart
  intro stored
  exact Set.disjoint_left.mp apart ⟨(r, channels), source, add_mem_of_lt _ (Nat.lt_of_lt_of_le inside shorter)⟩
    (span_mono (Nat.mul_le_mul_right other (k.pixels_le c.cpu)) stored)

section Wide

variable (c : ApartCall .threshold) {i : Nat}

theorem threshold_ends (final : Aarch64.Cpu) :
    Kernel.threshold.Ends c.cpu final ↔ final = Kernel.threshold.finished .threshLoop c.cpu :=
  Streamed.threshold.ends_iff c.toBlockCall final

/-- The 64-bit kernel keeps its source. -/
theorem threshold_source (inside : i < Kernel.threshold.pixels c.cpu) :
    (Kernel.threshold.finished .threshLoop c.cpu).mem (c.cpu.x 0 + BitVec.ofNat 64 i) = c.cpu.byteAt 0 i := by
  have outside := c.notMem_dest (show (0, 1) ∈ Kernel.threshold.sources by decide) rfl
    (by rw [Nat.mul_one]; exact inside)
  exact (congrFun (Streamed.threshold.finished_mem c.toBlockCall) _).trans (overwritten_of_notMem outside)

/-- The 64-bit kernel keeps the bytes above the threshold in its destination. -/
theorem threshold_dest (inside : i < Kernel.threshold.pixels c.cpu) :
    (Kernel.threshold.finished .threshLoop c.cpu).mem (c.cpu.x 1 + BitVec.ofNat 64 i) =
      cmhi (c.cpu.byteAt 0 i) ((c.cpu.x 3).setWidth 8) &&& c.cpu.byteAt 0 i := by
  have left := Streamed.threshold.finished_byte c.toBlockCall (j := i)
    (by rw [show Streamed.threshold.channels = 1 from rfl, Nat.mul_one]; exact inside)
  exact left.trans (congrFun (Streamed.threshold.value_prepared c.cpu) i)

end Wide

/-- The 32-bit threshold kernel takes its images in the other order, so the processors agree if and only if the images
are the same and have only empty bytes and bytes above the threshold. -/
theorem threshold_agree_iff (p : ThresholdPorts .threshold .threshold) : p.Agree ↔
    ∀ i < Kernel.threshold.pixels p.wideCall.cpu, p.wideCall.cpu.byteAt 0 i = p.wideCall.cpu.byteAt 1 i ∧
      (p.wideCall.cpu.byteAt 1 i = 0 ∨ (p.wideCall.cpu.x 3).setWidth 8 < p.wideCall.cpu.byteAt 1 i) := by
  obtain ⟨final32, ends32, leaves⟩ := p.narrowCall.exists_end
  rw [p.agree_iff (threshold_ends p.wideCall) ends32]
  refine forall_congr' fun i => imp_congr_right fun inside => ?_
  have inside32 : i < Kernel32.threshold.blocks p.narrowCall.cpu * 16 := p.toPorts.pixels_eq ▸ inside
  obtain ⟨source32, dest32⟩ := leaves.swapped ⟨rfl, rfl⟩ p.apart inside32
  have single := p.narrowCall.channelsAt_single (k := .threshold) (r := 1) rfl i
  have pixel : Kernel32.threshold.pixel p.narrowCall.cpu (Kernel32.threshold.channelsAt p.narrowCall.cpu i) =
      cmhi (p.wideCall.cpu.byteAt 1 i) ((p.wideCall.cpu.x 3).setWidth 8) &&& p.wideCall.cpu.byteAt 1 i := by
    rw [p.threshold, p.dest i inside, ← single]
    rfl
  rw [source32, dest32, ← p.dest i inside, pixel, threshold_source p.wideCall inside,
    threshold_dest p.wideCall inside]
  exact kept_each_other_iff

/-- A mark by one threshold is the mark by a threshold below it unless the byte lies between both. -/
theorem cmhi_zero_eq_iff {byte threshold : Byte} :
    cmhi byte 0 = cmhi byte threshold ↔ byte = 0 ∨ threshold < byte := by
  rw [← BitVec.toNat_inj, toNat_cmhi, toNat_cmhi, ← BitVec.toNat_inj, BitVec.lt_def]
  have zero : (0 : Byte).toNat = 0 := rfl
  rw [zero]
  split <;> split <;> omega

/-- Both marking kernels mark the source by the bytes of the destination, but the 64-bit kernel has its threshold only
in the lower half of its register. -/
theorem thresholdBinary_agree_iff (p : ThresholdPorts .thresholdBinary .thresholdBinary) : p.Agree ↔
    ∀ i < Kernel.thresholdBinary.pixels p.wideCall.cpu, 8 ≤ i % 16 → p.wideCall.cpu.byteAt 1 i = 0 ∨
      (p.wideCall.cpu.x 3).setWidth 8 < p.wideCall.cpu.byteAt 1 i := by
  obtain ⟨final32, ends32, leaves⟩ := p.narrowCall.exists_end
  rw [p.agree_iff p.wideCall.thresholdBinary_ends ends32]
  refine forall_congr' fun i => imp_congr_right fun inside => ?_
  have inside32 : i < Kernel32.thresholdBinary.blocks p.narrowCall.cpu * 16 := p.toPorts.pixels_eq ▸ inside
  obtain ⟨source32, dest32⟩ := leaves.swapped ⟨rfl, rfl⟩ p.apart inside32
  have single := p.narrowCall.channelsAt_single (k := .thresholdBinary) (r := 1) rfl i
  have pixel : Kernel32.thresholdBinary.pixel p.narrowCall.cpu
      (Kernel32.thresholdBinary.channelsAt p.narrowCall.cpu i) =
        cmhi (p.wideCall.cpu.byteAt 1 i) ((p.wideCall.cpu.x 3).setWidth 8) := by
    rw [p.threshold, p.dest i inside, ← single]
    rfl
  rw [source32, dest32, ← p.dest i inside, pixel, p.wideCall.thresholdBinary_source inside,
    p.wideCall.thresholdBinary_dest inside, lowerThreshold, Fin.val_ofNat]
  by_cases lower : i % 16 < 8
  · rw [if_pos lower]
    exact iff_of_true ⟨rfl, rfl⟩ fun upper => absurd lower (by omega)
  · rw [if_neg lower, cmhi_zero_eq_iff]
    exact ⟨fun same _ => same.1, fun given => ⟨given (by omega), rfl⟩⟩

/-- Each fourth byte of an image is empty, and the others are above one hundred. -/
def brightOrEmpty (address : Nat) : Byte :=
  if address % 4 = 0 then 0 else BitVec.ofNat 8 (100 + address % 0x1000)

/-- A source and a destination with the same bytes are thresholded at twenty. -/
def brightThreshold : ThresholdPorts .threshold .threshold where
  wideCall :=
    { cpu := farPlanes .threshold 16 20 fun a => brightOrEmpty a.toNat
      enough := by decide
      apart := Kernel.apart_of_far (by decide) }
  narrowCall := farCall .threshold (fun _ => 20) fun a => brightOrEmpty a.toNat
  count := by decide
  apart := disjoint_of_far (by decide +kernel) (by decide +kernel)
  threshold := by decide
  source := by decide +kernel
  dest := by decide +kernel

theorem brightThreshold_agree : brightThreshold.Agree :=
  (threshold_agree_iff brightThreshold).mpr (by decide +kernel)

/-- The bytes of a block rise above eighty in its upper half. -/
def rising (address : Nat) : Byte := BitVec.ofNat 8 (10 + 10 * (address % 16))

/-- The lower half of the block is not above the threshold. -/
def risingThresholdBinary : ThresholdPorts .thresholdBinary .thresholdBinary where
  wideCall :=
    { cpu := farPlanes .thresholdBinary 16 80 fun a => rising a.toNat
      enough := by decide
      apart := Kernel.apart_of_far (by decide) }
  narrowCall := farCall .thresholdBinary (fun _ => 80) fun a => rising a.toNat
  count := by decide
  apart := disjoint_of_far (by decide +kernel) (by decide +kernel)
  threshold := by decide
  source := by decide +kernel
  dest := by decide +kernel

theorem risingThresholdBinary_agree : risingThresholdBinary.Agree :=
  (thresholdBinary_agree_iff risingThresholdBinary).mpr (by decide +kernel)

end Thresholds

end VisionServer.Neon
