/-
This file compares the kernels that subtract weighted channels and says what every run of a 64-bit kernel keeps.
-/

import VisionServer.Neon.Ports
import VisionServer.Neon.Weights

namespace VisionServer.Neon
open Library Library.Assembly
open Library.Aarch64 (Byte uqsub uqadd toNat_uqadd)

section Weights

/-- Both subtracting kernels are called with the same planes and weights on whole blocks, and the 32-bit planes are
apart from the destination. -/
structure WstPorts where
  wideCall : ApartCall .wst
  narrowCall : FamilyCall .wst
  count : Kernel.wst.count wideCall.cpu = Kernel32.wst.count narrowCall.cpu
  multiple : 16 ∣ Kernel.wst.count wideCall.cpu
  apart : ∀ r < (3 : Fin 16), Disjoint (Kernel32.wst.image narrowCall.cpu r) (Kernel32.wst.written narrowCall.cpu)
  alpha : wideCall.alpha = byteArgument32 narrowCall.cpu 5
  beta : wideCall.beta = byteArgument32 narrowCall.cpu 6
  gamma : wideCall.gamma = byteArgument32 narrowCall.cpu 7
  primary : ∀ i < Kernel.wst.count wideCall.cpu, wideCall.cpu.byteAt 0 i = imageByte narrowCall.cpu 0 i
  second : ∀ i < Kernel.wst.count wideCall.cpu, wideCall.cpu.byteAt 1 i = imageByte narrowCall.cpu 1 i
  third : ∀ i < Kernel.wst.count wideCall.cpu, wideCall.cpu.byteAt 2 i = imageByte narrowCall.cpu 2 i

namespace WstPorts

variable (p : WstPorts)

def count64 : Nat := Kernel.wst.count p.wideCall.cpu

/-- Both kernels return and leave the same planes and the same destination. -/
def Agree : Prop :=
  ∃ final final32, Kernel.wst.Ends p.wideCall.cpu final ∧ Kernel32.wst.Ends p.narrowCall.cpu final32 ∧
    (∀ i < p.count64, final.mem (p.wideCall.cpu.x 3 + BitVec.ofNat 64 i) =
      final32.mem (Kernel32.wst.dest p.narrowCall.cpu + BitVec.ofNat 32 i)) ∧
    ∀ i < p.count64,
      final.mem (p.wideCall.cpu.x 0 + BitVec.ofNat 64 i) =
        final32.mem (argument p.narrowCall.cpu 0 + BitVec.ofNat 32 i) ∧
      final.mem (p.wideCall.cpu.x 1 + BitVec.ofNat 64 i) =
        final32.mem (argument p.narrowCall.cpu 1 + BitVec.ofNat 32 i) ∧
      final.mem (p.wideCall.cpu.x 2 + BitVec.ofNat 64 i) =
        final32.mem (argument p.narrowCall.cpu 2 + BitVec.ofNat 32 i)

/-- The 32-bit kernel returns with the promised destination and keeps its planes. -/
def NarrowKeepsPromise : Prop :=
  ∃ final32, Kernel32.wst.Ends p.narrowCall.cpu final32 ∧
    (∀ i < p.count64, (final32.mem (Kernel32.wst.dest p.narrowCall.cpu + BitVec.ofNat 32 i)).toNat =
      p.wideCall.promised i) ∧
    ∀ r < (3 : Fin 16), ∀ i < p.count64,
      final32.mem (argument p.narrowCall.cpu r + BitVec.ofNat 32 i) = imageByte p.narrowCall.cpu r i

theorem pixels_eq : Kernel.wst.pixels p.wideCall.cpu = p.count64 ∧
    Kernel32.wst.blocks p.narrowCall.cpu * 16 = p.count64 := by
  have wide : Kernel.wst.pixels p.wideCall.cpu = p.count64 := Nat.div_mul_cancel p.multiple
  have both := Ports.pixels_eq ⟨p.wideCall.toBlockCall, p.narrowCall, p.count⟩
  exact ⟨wide, both.trans wide⟩

/-- The 32-bit kernel leaves what the 64-bit kernel promises. -/
theorem narrow_dest {final32 : Aarch32.Cpu} (leaves : p.narrowCall.Leaves final32) {i : Nat}
    (inside : i < p.count64) :
    (final32.mem (Kernel32.wst.dest p.narrowCall.cpu + BitVec.ofNat 32 i)).toNat = p.wideCall.promised i := by
  have byte (r : Fin 16) (plane : Kernel32.wst.shape.channels r = 1) :
      Kernel32.wst.channelsAt p.narrowCall.cpu i r 0 = imageByte p.narrowCall.cpu r i :=
    p.narrowCall.channelsAt_single plane i
  rw [leaves.dest i (by rw [p.pixels_eq.2]; exact inside), ApartCall.promised, ← ApartCall.toNat_weighSubtract,
    p.alpha, p.beta, p.gamma, p.primary i inside, p.second i inside, p.third i inside, ← byte 0 rfl, ← byte 1 rfl,
    ← byte 2 rfl]
  rfl

/-- The 32-bit kernel keeps its planes. -/
theorem narrow_planes {final32 : Aarch32.Cpu} (leaves : p.narrowCall.Leaves final32) {r : Fin 16} (plane : r < 3)
    {i : Nat} (inside : i < p.count64) :
    final32.mem (argument p.narrowCall.cpu r + BitVec.ofNat 32 i) = imageByte p.narrowCall.cpu r i := by
  have single : Kernel32.wst.shape.channels r = 1 := if_pos plane
  refine leaves.image (p.apart r plane) ?_
  rw [single, p.pixels_eq.2]
  exact inside

theorem narrow_keepsPromise : p.NarrowKeepsPromise := by
  obtain ⟨final32, ends32, leaves⟩ := p.narrowCall.exists_end
  exact ⟨final32, (ends32 _).mpr rfl, fun i inside => p.narrow_dest leaves inside,
    fun r plane i inside => p.narrow_planes leaves plane inside⟩

/-- The processors agree if and only if the 64-bit kernel leaves what the 32-bit kernel leaves. -/
theorem agree_iff_keepsPromise : p.Agree ↔ p.wideCall.KeepsPromise := by
  obtain ⟨final32, ends32, leaves⟩ := p.narrowCall.exists_end
  have sources : Kernel.wst.sources = [(0, 1), (1, 1), (2, 1)] := rfl
  have plane {r : Fin 31} (source : (r, 1) ∈ Kernel.wst.sources) {i : Nat} (inside : i < p.count64) :
      p.wideCall.cpu.x r + BitVec.ofNat 64 i ∈
        imageBytes Kernel.wst.sources (Kernel.wst.count p.wideCall.cpu) p.wideCall.cpu.x :=
    ⟨(r, 1), source, by rw [Nat.mul_one]; exact add_mem_of_lt _ inside⟩
  constructor
  · rintro ⟨final, left, taken, taken32, dest, planes⟩
    obtain rfl := (ends32 left).mp taken32
    refine ⟨final, taken, fun i inside => ?_, fun a member => ?_⟩
    · rw [p.pixels_eq.1] at inside
      rw [dest i inside]
      exact p.narrow_dest leaves inside
    · obtain ⟨image, source, found⟩ := member
      rw [sources] at source
      obtain ⟨i, inside, rfl⟩ := exists_of_mem_span found
      simp only [List.mem_cons, List.not_mem_nil, or_false] at source
      rcases source with rfl | rfl | rfl
      · rw [Nat.mul_one] at inside
        exact ((planes i inside).1.trans (p.narrow_planes leaves (by decide) inside)).trans (p.primary i inside).symm
      · rw [Nat.mul_one] at inside
        exact ((planes i inside).2.1.trans (p.narrow_planes leaves (by decide) inside)).trans (p.second i inside).symm
      · rw [Nat.mul_one] at inside
        exact ((planes i inside).2.2.trans (p.narrow_planes leaves (by decide) inside)).trans (p.third i inside).symm
  · rintro ⟨final, taken, pixels, kept⟩
    refine ⟨final, final32, taken, (ends32 _).mpr rfl, fun i inside => ?_, fun i inside => ⟨?_, ?_, ?_⟩⟩
    · apply BitVec.eq_of_toNat_eq
      rw [pixels i (by rw [p.pixels_eq.1]; exact inside), p.narrow_dest leaves inside]
    · rw [kept _ (plane (by decide) inside), p.narrow_planes leaves (by decide) inside]
      exact p.primary i inside
    · rw [kept _ (plane (by decide) inside), p.narrow_planes leaves (by decide) inside]
      exact p.second i inside
    · rw [kept _ (plane (by decide) inside), p.narrow_planes leaves (by decide) inside]
      exact p.third i inside

end WstPorts

/-- The processors agree if and only if the 64-bit kernel keeps its promise, and the 32-bit kernel always keeps it. -/
theorem wst_agree_iff (p : WstPorts) : (p.Agree ↔ p.wideCall.KeepsPromise) ∧ p.NarrowKeepsPromise :=
  ⟨p.agree_iff_keepsPromise, p.narrow_keepsPromise⟩

/-- Planes with speckles are subtracted with weights of three. -/
def speckledWst : WstPorts where
  wideCall :=
    { cpu := farPlanes .wst 16 3 fun a => speckle a.toNat
      enough := by decide
      apart := Kernel.apart_of_far (by decide) }
  narrowCall := farCall .wst (fun _ => 3) fun a => speckle a.toNat
  count := by decide
  multiple := by decide
  apart r below := by
    have single : Kernel32.wst.shape.channels r = 1 := if_pos below
    rcases farArgument_far .wst (fun _ => 3) r with none | ⟨⟨before, after⟩, _⟩
    · exact absurd (single.symm.trans none) one_ne_zero
    · change Disjoint (Kernel32.wst.image (farImages _ _ _) r) (Kernel32.wst.written (farImages _ _ _))
      rw [Kernel32.image, Kernel32.written, blocks_farImages, Kernel32.dest, argument_farImages, argument_farImages,
        Nat.one_mul, Nat.one_mul]
      exact disjoint_of_far before after
  alpha := by decide
  beta := by decide
  gamma := by decide
  primary := by decide +kernel
  second := by decide +kernel
  third := by decide +kernel

theorem speckledWst_agree_iff : (speckledWst.Agree ↔ speckledWst.wideCall.KeepsPromise) ∧
    speckledWst.NarrowKeepsPromise := wst_agree_iff speckledWst

/-- The split kernel is called with a frame, and the other one with the planes of the frame, with the same weights.
The roles of the planes follow the offset in their cyclic order. -/
structure PlanarPorts where
  frame : FamilyCall .splitWst
  planes : FamilyCall .wst
  count : Kernel32.splitWst.count frame.cpu = Kernel32.wst.count planes.cpu
  alpha : byteArgument32 frame.cpu 4 = byteArgument32 planes.cpu 5
  beta : byteArgument32 frame.cpu 5 = byteArgument32 planes.cpu 6
  gamma : byteArgument32 frame.cpu 6 = byteArgument32 planes.cpu 7
  primary : ∀ i < Kernel32.wst.blocks planes.cpu * 16,
    imageByte planes.cpu 0 i = imageByte frame.cpu 0 (3 * i + splitOffset frame.cpu)
  second : ∀ i < Kernel32.wst.blocks planes.cpu * 16,
    imageByte planes.cpu 1 i = imageByte frame.cpu 0 (3 * i + (splitOffset frame.cpu + 1) % 3)
  third : ∀ i < Kernel32.wst.blocks planes.cpu * 16,
    imageByte planes.cpu 2 i = imageByte frame.cpu 0 (3 * i + (splitOffset frame.cpu + 2) % 3)

/-- Both kernels return, and they store the same bytes. -/
def PlanarPorts.Agree (p : PlanarPorts) : Prop :=
  ∃ final planar, Kernel32.splitWst.Ends p.frame.cpu final ∧ Kernel32.wst.Ends p.planes.cpu planar ∧
    Kernel32.splitWst.blocks p.frame.cpu = Kernel32.wst.blocks p.planes.cpu ∧
    ∀ i < Kernel32.wst.blocks p.planes.cpu * 16,
      final.mem (Kernel32.splitWst.dest p.frame.cpu + BitVec.ofNat 32 i) =
        planar.mem (Kernel32.wst.dest p.planes.cpu + BitVec.ofNat 32 i)

/-- The split kernel leaves for a frame what the other kernel leaves for its planes. -/
theorem planar_agree (p : PlanarPorts) : p.Agree := by
  obtain ⟨final, ends, leaves⟩ := p.frame.exists_end
  obtain ⟨planar, endsPlanar, leavesPlanar⟩ := p.planes.exists_end
  have blocks : Kernel32.splitWst.blocks p.frame.cpu = Kernel32.wst.blocks p.planes.cpu := by
    rw [Kernel32.blocks, Kernel32.blocks, p.count]
  refine ⟨final, planar, (ends _).mpr rfl, (endsPlanar _).mpr rfl, blocks, fun i inside => ?_⟩
  have byte (r : Fin 16) (plane : Kernel32.wst.shape.channels r = 1) :
      Kernel32.wst.channelsAt p.planes.cpu i r 0 = imageByte p.planes.cpu r i :=
    p.planes.channelsAt_single plane i
  have first := (byte 0 rfl).trans (p.primary i inside)
  have second := (byte 1 rfl).trans (p.second i inside)
  have third := (byte 2 rfl).trans (p.third i inside)
  rw [leaves.dest i (by rw [blocks]; exact inside), leavesPlanar.dest i inside, Kernel32.pixel, Kernel32.pixel,
    p.alpha, p.beta, p.gamma]
  simp only [first, second, third]
  rfl

/-- A frame with speckles is split at its last channel, beside the planes of its channels in their cyclic order. -/
def speckledPlanar : PlanarPorts where
  frame := farCall .splitWst (fun _ => 2) fun a => speckle a.toNat
  planes := farCall .wst (fun _ => 2) fun a =>
    speckle (0x1000 + 3 * (a.toNat % 0x1000) + (a.toNat / 0x1000 + 1) % 3)
  count := by decide
  alpha := by decide
  beta := by decide
  gamma := by decide
  primary := by decide +kernel
  second := by decide +kernel
  third := by decide +kernel

theorem speckledPlanar_agree : speckledPlanar.Agree := planar_agree speckledPlanar

end Weights

section Passes

/-- On the 32-bit processor a frame is split without gamma and marked in a second call, which finds what the first
call has left. On the 64-bit processor one kernel does both. -/
structure Passes where
  fused : SplitCall
  split : FamilyCall .splitWst
  marking : FamilyCall .thresholdBinary
  count : Kernel.deinterlaceWstb.count fused.cpu = Kernel32.splitWst.count split.cpu
  again : Kernel32.splitWst.count split.cpu = Kernel32.thresholdBinary.count marking.cpu
  offset : fused.offset = splitOffset split.cpu
  alpha : fused.alpha = byteArgument32 split.cpu 4
  beta : fused.beta = byteArgument32 split.cpu 5
  gamma : byteArgument32 split.cpu 6 = 0
  threshold : fused.threshold = byteArgument32 marking.cpu 3
  frame : ∀ i < Kernel.deinterlaceWstb.pixels fused.cpu, ∀ c < 3,
    fused.channel i c = imageByte split.cpu 0 (3 * i + c)
  follows : ∀ middle, Kernel32.splitWst.Ends split.cpu middle → ∀ i < Kernel32.splitWst.blocks split.cpu * 16,
    imageByte marking.cpu 1 i = middle.mem (Kernel32.splitWst.dest split.cpu + BitVec.ofNat 32 i)

/-- The fused kernel and the second pass return and leave the same marks. -/
def Passes.Agree (p : Passes) : Prop :=
  ∃ final final32, Kernel.deinterlaceWstb.Ends p.fused.cpu final ∧
    Kernel32.thresholdBinary.Ends p.marking.cpu final32 ∧
    ∀ i < Kernel.deinterlaceWstb.pixels p.fused.cpu, final.mem (p.fused.cpu.x 1 + BitVec.ofNat 64 i) =
      final32.mem (Kernel32.thresholdBinary.dest p.marking.cpu + BitVec.ofNat 32 i)

end Passes

section Registers

/-- No instruction writes a general register behind the arguments or a vector register behind the constants. -/
theorem neon64_writes : ∀ op ∈ ops neon64, (∀ r ∈ op.writesX, r < 6) ∧ ∀ v ∈ op.writesV, v < 7 := by
  decide +kernel

/-- Each run of a 64-bit kernel keeps the registers behind the arguments and the constants, the link register and
those of the caller among them, and the memory outside its stores. The count is free, and a kernel can go on in the
loop of another. -/
theorem neon64_keeps (k : Kernel) {cpu final : Aarch64.Cpu} (ends : k.Ends cpu final) :
    (∀ r, 6 ≤ r → final.x r = cpu.x r) ∧ (∀ v, 7 ≤ v → final.v v = cpu.v v) ∧
      ∀ a ∉ final.touched .store, final.mem a = cpu.mem a := by
  refine ⟨fun r behind => ?_, fun v behind => ?_, fun a outside => Aarch64.frame_of_returns ends outside⟩
  · exact Aarch64.returns_x (fun op member writes => absurd ((neon64_writes op member).1 r writes) (by omega)) ends
  · exact Aarch64.returns_v (fun op member writes => absurd ((neon64_writes op member).2 v writes) (by omega)) ends

/-- The link register of a call is kept. -/
theorem brightThreshold_keeps :
    (Kernel.threshold.finished .threshLoop brightThreshold.wideCall.cpu).x 30 = brightThreshold.wideCall.cpu.x 30 :=
  (neon64_keeps .threshold ((threshold_ends brightThreshold.wideCall _).mpr rfl)).1 30 (by decide)

end Registers

end VisionServer.Neon
