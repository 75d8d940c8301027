/-
This file decides which pairs of matrices the wrappers combine pixel by pixel.
-/

import VisionServer.Neon.Continued
import VisionServer.Neon.Streams
import VisionServer.Neon.Wrappers

namespace VisionServer.Neon
open Library Library.Aarch64 Library.Assembly

/-- A wrapper is called with matrices that it accepts. The destination is apart from each operand, or it
has its data and its channels. -/
structure PairCall (wrapper : Wrapper) where
  a : Mat
  b : Mat
  dest : Mat
  cpu : Cpu
  eightBit : ∀ m ∈ [a, b], m.type.depth = .cv8U ∨ m.type.depth = .cv8S
  channels : ∀ m ∈ [a, b], m.type.channels = 1 ∨ m.type.channels = 3
  accepted : Accepts wrapper a b dest
  positive : 0 < a.area
  multiple : 16 ∣ a.area
  small : a.area < 2 ^ 31
  placed : ∀ m ∈ [a, b],
    Disjoint m.bytes dest.bytes ∨ m.data = dest.data ∧ m.type.channels = dest.type.channels

/-- A kernel combines two images in its first registers. -/
structure Paired (k : Kernel) (first second dest : Nat) : Prop where
  sources : k.sources = [(0, first), (1, second)]
  dests : k.dests = [(2, dest)]
  counter : k.counter = 3
  whole : k.narrow = false

section Entered

variable {k : Kernel} {s t d : Nat} (paired : Paired k s t d) {p q r : Word} {size : Nat} (cpu : Cpu)
include paired

theorem Paired.count (small : size < 2 ^ 32) :
    k.count ((Launch.mk k [p, q, r, .ofNat 64 size]).enter cpu) = size := by
  rw [Kernel.count, paired.whole, paired.counter]
  change (BitVec.ofNat 64 size).toNat = size
  rw [BitVec.toNat_ofNat, Nat.mod_eq_of_lt (by omega)]

theorem Paired.pixels (small : size < 2 ^ 32) (multiple : 16 ∣ size) :
    k.pixels ((Launch.mk k [p, q, r, .ofNat 64 size]).enter cpu) = size := by
  rw [Kernel.pixels, Kernel.blocks, paired.count cpu small]
  omega

/-- A wrapper enters the kernel with whole blocks. -/
def Paired.blockCall (positive : 0 < size) (small : size < 2 ^ 32) (multiple : 16 ∣ size)
    (first : Disjoint (span p (size * s)) (span r (size * d)) ∨ p = r ∧ s = d)
    (second : Disjoint (span q (size * t)) (span r (size * d)) ∨ q = r ∧ t = d) : BlockCall k where
  cpu := (Launch.mk k [p, q, r, .ofNat 64 size]).enter cpu
  enough := by
    rw [paired.count cpu small]
    omega
  placed := by
    intro source member dest listed
    rw [paired.sources, List.mem_cons, List.mem_singleton] at member
    rw [paired.dests, List.mem_singleton] at listed
    rw [paired.pixels cpu small multiple]
    rcases member with rfl | rfl
    · rw [listed]
      exact first
    · rw [listed]
      exact second

end Entered

/-- The sum of two bytes is bounded by the greatest byte. -/
def saturatedSum (a b : Byte) : Byte := .ofNat 8 (min 255 (a.toNat + b.toNat))

theorem uqadd_eq_saturatedSum (a b : Byte) : uqadd a b = saturatedSum a b := by
  apply BitVec.eq_of_toNat_eq
  rw [toNat_uqadd, saturatedSum, BitVec.toNat_ofNat]
  omega

theorem saturatedSum_comm (a b : Byte) : saturatedSum a b = saturatedSum b a := by
  rw [saturatedSum, Nat.add_comm, saturatedSum]

/-- The byte of the second colour image that is found for a byte of the destination behind the first block.
A destination in the place of the second image holds sums from its second block on. -/
def foundBy (a b dest : Mat) (mem : Word → Byte) (j : Nat) : Byte :=
  if b.data = dest.data ∧ 96 ≤ j then
    saturatedSum (a.byteAt mem (32 + j / 3)) (b.byteAt mem (32 + j / 3))
  else b.byteAt mem (32 + j / 3)

section Launched

variable {a b dest : Mat} {size : Nat} (cpu : Cpu) (positive : 0 < size) (small : size < 2 ^ 31)
  (multiple : 16 ∣ size)
include positive small multiple

/-- A kernel over single bytes combines the bytes of both operands at each distance. -/
theorem exists_zipped {s : Streamed} (paired : Paired s.kernel 1 1 1) (third : s.dest = 2)
    (single : s.channels = 1) {g : Byte → Byte → Byte} (value : ∀ cpu, s.value cpu = zipBytes g)
    (first : Disjoint (span a.data (size * 1)) (span dest.data (size * 1)) ∨ a.data = dest.data)
    (second : Disjoint (span b.data (size * 1)) (span dest.data (size * 1)) ∨ b.data = dest.data) :
    ∃ t, (∀ final, s.kernel.Ends
        ((Launch.mk s.kernel [a.data, b.data, dest.data, .ofNat 64 size]).enter cpu) final ↔ final = t) ∧
      ∀ j < size, dest.byteAt t.mem j = g (a.byteAt cpu.mem j) (b.byteAt cpu.mem j) := by
  let c := paired.blockCall cpu positive (by omega) multiple (first.imp_right (⟨·, rfl⟩))
    (second.imp_right (⟨·, rfl⟩))
  have pixels : s.kernel.pixels c.cpu = size := paired.pixels cpu (by omega) multiple
  refine ⟨_, s.ends_iff c, fun j inside => ?_⟩
  have byte := s.finished_byte c (j := j) (by rw [pixels, single, Nat.mul_one]; exact inside)
  rw [third, value, zipBytes, Kernel.prepared_byteAt (by rw [paired.counter]; decide),
    Kernel.prepared_byteAt (by rw [paired.counter]; decide)] at byte
  exact byte

/-- The kernel over a colour image and one channel combines whole pixels. -/
theorem exists_add3c
    (first : Disjoint (span a.data (size * 3)) (span dest.data (size * 3)) ∨ a.data = dest.data)
    (second : Disjoint (span b.data (size * 1)) (span dest.data (size * 3))) :
    ∃ t, (∀ final, Kernel.add3c.Ends
        ((Launch.mk .add3c [a.data, b.data, dest.data, .ofNat 64 size]).enter cpu) final ↔ final = t) ∧
      ∀ j < size * 3, dest.byteAt t.mem j = uqadd (a.byteAt cpu.mem j) (b.byteAt cpu.mem (j / 3)) := by
  have paired : Paired Streamed.add3c.kernel 3 1 3 := ⟨rfl, rfl, rfl, rfl⟩
  let c := paired.blockCall cpu positive (by omega) multiple (first.imp_right (⟨·, rfl⟩)) (Or.inl second)
  have pixels : Kernel.add3c.pixels c.cpu = size := paired.pixels cpu (by omega) multiple
  refine ⟨_, Streamed.add3c.ends_iff c, fun j inside => ?_⟩
  have byte := Streamed.add3c.finished_byte c (j := j) (by
    change j < Kernel.add3c.pixels c.cpu * 3
    rw [pixels]
    exact inside)
  rw [Streamed.value, zipChannels, Kernel.prepared_byteAt (by decide),
    Kernel.prepared_byteAt (by decide)] at byte
  exact byte

/-- The kernel over a colour image and one channel combines whole pixels in its first block only. -/
theorem exists_bitwiseOr3c
    (first : Disjoint (span a.data (size * 3)) (span dest.data (size * 3)) ∨ a.data = dest.data)
    (second : Disjoint (span b.data (size * 1)) (span dest.data (size * 3))) :
    ∃ t, (∀ final, Kernel.bitwiseOr3c.Ends
        ((Launch.mk .bitwiseOr3c [a.data, b.data, dest.data, .ofNat 64 size]).enter cpu) final ↔ final = t) ∧
      ∀ j < size * 3, dest.byteAt t.mem j =
        if j < 48 then a.byteAt cpu.mem j ||| b.byteAt cpu.mem (j / 3)
        else if j < size + 32 then a.byteAt cpu.mem j ||| b.byteAt cpu.mem (j - 32)
        else dest.byteAt cpu.mem j := by
  have paired : Paired .bitwiseOr3c 3 1 3 := ⟨rfl, rfl, rfl, rfl⟩
  let c := paired.blockCall cpu positive (by omega) multiple (first.imp_right (⟨·, rfl⟩)) (Or.inl second)
  have count : Kernel.bitwiseOr3c.count c.cpu = size := paired.count cpu (by omega)
  have blocks : Kernel.bitwiseOr3c.blocks c.cpu = size / 16 := congrArg (· / 16) count
  refine ⟨_, c.ends_iff_continued bitwiseOr3c_continues, fun j inside => ?_⟩
  rw [Mat.byteAt, c.bitwiseOr3c_mem, blocks]
  change overwritten (dest.data + _) _ _ (overwritten dest.data _ _ cpu.mem) (dest.data + BitVec.ofNat 64 j) = _
  by_cases early : j < 48
  · rw [if_pos early, overwritten_of_notMem (add_notMem_of_before _ early (by omega)),
      overwritten_add early (by omega)]
    rfl
  · rw [if_neg early]
    by_cases within : j < size + 32
    · rw [if_pos within, show j = 48 + (j - 48) by omega, BitVec.ofNat_add, ← BitVec.add_assoc,
        overwritten_add (by omega) (by omega)]
      rw [show 48 + (j - 48) - 32 = 16 + (j - 48) by omega]
      rfl
    · rw [if_neg within, overwritten_of_notMem (add_notMem_of_behind _ (by omega) (by omega)), overwritten_of_notMem]
      · rfl
      · rw [add_mem_span _ (by omega)]
        exact early

/-- The kernel over two colour images leaves the sums if and only if the bytes that its further blocks find
give them. -/
theorem exists_add3c2
    (first : Disjoint (span a.data (size * 3)) (span dest.data (size * 3)) ∨ a.data = dest.data)
    (second : Disjoint (span b.data (size * 3)) (span dest.data (size * 3)) ∨ b.data = dest.data) :
    ∃ t, (∀ final, Kernel.add3c2.Ends
        ((Launch.mk .add3c2 [a.data, b.data, dest.data, .ofNat 64 size]).enter cpu) final ↔ final = t) ∧
      ((∀ j < size * 3, dest.byteAt t.mem j = saturatedSum (a.byteAt cpu.mem j) (b.byteAt cpu.mem j)) ↔
        ∀ j < size * 3, 48 ≤ j → saturatedSum (a.byteAt cpu.mem j) (foundBy a b dest cpu.mem j) =
          saturatedSum (a.byteAt cpu.mem j) (b.byteAt cpu.mem j)) := by
  have paired : Paired .add3c2 3 3 3 := ⟨rfl, rfl, rfl, rfl⟩
  let c := paired.blockCall cpu positive (by omega) multiple (first.imp_right (⟨·, rfl⟩))
    (second.imp_right (⟨·, rfl⟩))
  have pixels : Kernel.add3c2.pixels c.cpu = size := paired.pixels cpu (by omega) multiple
  have sums := c.add3c2_sums_iff (by rw [pixels]; omega)
  rw [pixels] at sums
  simp only [← uqadd_eq_saturatedSum, foundBy]
  exact ⟨_, c.ends_iff_continued add3c2_continues, sums⟩

end Launched

section Pixels

variable {m : Mat} {mem : Word → Byte}

/-- The channel of a byte is found at the byte. -/
theorem pixel_divMod {channels : Nat} (many : m.type.channels = channels) (j : Nat) :
    m.pixel mem (j / channels) (j % channels) = m.byteAt mem j := by
  rw [Mat.pixel, many]
  by_cases single : channels = 1
  · rw [if_pos single, single, Nat.div_one, Nat.one_mul, Nat.add_zero]
  · rw [if_neg single, Nat.div_add_mod]

theorem pixel_mono (single : m.type.channels = 1) (i channel : Nat) : m.pixel mem i channel = m.byteAt mem i := by
  rw [Mat.pixel, single, if_pos rfl, Nat.one_mul, Nat.add_zero]

/-- The channels of all pixels are the bytes of a matrix. -/
theorem forall_pixels {channels n : Nat} (positive : 0 < channels) {holds : Nat → Nat → Prop} :
    (∀ i < n, ∀ channel < channels, holds i channel) ↔
      ∀ j < n * channels, holds (j / channels) (j % channels) := by
  constructor
  · intro given j inside
    exact given _ (Nat.div_lt_of_lt_mul (by rw [Nat.mul_comm]; exact inside)) _ (Nat.mod_lt _ positive)
  · intro given i inside channel below
    have next : (i + 1) * channels ≤ n * channels := Nat.mul_le_mul_right _ inside
    rw [Nat.succ_mul] at next
    have found := given (i * channels + channel) (by omega)
    rw [Nat.mul_comm, Nat.mul_add_div positive, Nat.div_eq_of_lt below, Nat.mul_add_mod,
      Nat.mod_eq_of_lt below, Nat.add_zero] at found
    exact found

end Pixels

namespace PairCall

variable {wrapper : Wrapper} (c : PairCall wrapper)

/-- The wrapper passes its arguments to a kernel that returns in a state. -/
def Runs (final : Cpu) : Prop :=
  ∃ launch, wrapper c.a c.b c.dest = .ok launch ∧ launch.kernel.Ends (launch.enter c.cpu) final

/-- The destination combines each channel of each pixel of the operands. -/
def Leaves (g : Byte → Byte → Byte) : Prop :=
  ∃ final, c.Runs final ∧ ∀ i < c.a.area, ∀ channel < c.dest.type.channels,
    c.dest.pixel final.mem i channel = g (c.a.pixel c.cpu.mem i channel) (c.b.pixel c.cpu.mem i channel)

theorem runs_iff {launch : Launch} {t : Cpu} (launched : wrapper c.a c.b c.dest = .ok launch)
    (ends : ∀ final, launch.kernel.Ends (launch.enter c.cpu) final ↔ final = t) (final : Cpu) :
    c.Runs final ↔ final = t := by
  rw [← ends]
  constructor
  · intro given
    obtain ⟨other, same, taken⟩ := given
    rw [launched] at same
    cases same
    exact taken
  · exact fun taken => ⟨launch, launched, taken⟩

variable {g : Byte → Byte → Byte} {t : Cpu}

theorem leaves_iff (runs : ∀ final, c.Runs final ↔ final = t) :
    c.Leaves g ↔ ∀ i < c.a.area, ∀ channel < c.dest.type.channels,
      c.dest.pixel t.mem i channel = g (c.a.pixel c.cpu.mem i channel) (c.b.pixel c.cpu.mem i channel) := by
  constructor
  · intro given
    obtain ⟨final, taken, pixels⟩ := given
    rw [(runs final).mp taken] at pixels
    exact pixels
  · exact fun pixels => ⟨t, (runs t).mpr rfl, pixels⟩

/-- Operands of one type are combined byte by byte. -/
theorem leaves_iff_same (runs : ∀ final, c.Runs final ↔ final = t) {channels : Nat} (some : 0 < channels)
    (first : c.a.type.channels = channels) (second : c.b.type.channels = channels)
    (third : c.dest.type.channels = channels) :
    c.Leaves g ↔ ∀ j < c.a.area * channels,
      c.dest.byteAt t.mem j = g (c.a.byteAt c.cpu.mem j) (c.b.byteAt c.cpu.mem j) := by
  rw [c.leaves_iff runs, third, forall_pixels some]
  simp only [pixel_divMod first, pixel_divMod second, pixel_divMod third]

/-- A colour image is combined with the pixels of one channel. -/
theorem leaves_iff_colourMono (runs : ∀ final, c.Runs final ↔ final = t)
    (first : c.a.type.channels = 3) (second : c.b.type.channels = 1) (third : c.dest.type.channels = 3) :
    c.Leaves g ↔ ∀ j < c.a.area * 3,
      c.dest.byteAt t.mem j = g (c.a.byteAt c.cpu.mem j) (c.b.byteAt c.cpu.mem (j / 3)) := by
  rw [c.leaves_iff runs, third, forall_pixels (by decide)]
  simp only [pixel_divMod first, pixel_mono second, pixel_divMod third]

theorem leaves_iff_monoColour (runs : ∀ final, c.Runs final ↔ final = t)
    (first : c.a.type.channels = 1) (second : c.b.type.channels = 3) (third : c.dest.type.channels = 3) :
    c.Leaves g ↔ ∀ j < c.a.area * 3,
      c.dest.byteAt t.mem j = g (c.a.byteAt c.cpu.mem (j / 3)) (c.b.byteAt c.cpu.mem j) := by
  rw [c.leaves_iff runs, third, forall_pixels (by decide)]
  simp only [pixel_mono first, pixel_divMod second, pixel_divMod third]

/-- The images of an operand and of the destination are placed by their areas and channels. -/
theorem placed_at {m : Mat} (member : m ∈ [c.a, c.b]) {n few many : Nat} (area : m.area = n)
    (channels : m.type.channels = few) (destArea : c.dest.area = n)
    (destChannels : c.dest.type.channels = many) :
    Disjoint (span m.data (n * few)) (span c.dest.data (n * many)) ∨ m.data = c.dest.data ∧ few = many := by
  have placed := c.placed m member
  unfold Mat.bytes at placed
  rw [area, channels, destArea, destChannels] at placed
  exact placed

/-- An operand with the channels of the destination is apart from it or in its place. -/
theorem placed_same {m : Mat} (member : m ∈ [c.a, c.b]) {n channels : Nat} (area : m.area = n)
    (first : m.type.channels = channels) (destArea : c.dest.area = n)
    (second : c.dest.type.channels = channels) :
    Disjoint (span m.data (n * channels)) (span c.dest.data (n * channels)) ∨ m.data = c.dest.data :=
  (c.placed_at member area first destArea second).imp_right And.left

/-- An operand of one channel is apart from a colour image. -/
theorem placed_mono {m : Mat} (member : m ∈ [c.a, c.b]) {n : Nat} (area : m.area = n)
    (first : m.type.channels = 1) (destArea : c.dest.area = n) (second : c.dest.type.channels = 3) :
    Disjoint (span m.data (n * 1)) (span c.dest.data (n * 3)) := by
  rcases c.placed_at member area first destArea second with disjoint | ⟨_, same⟩
  · exact disjoint
  · cases same

end PairCall

section BitwiseOr

/-- Behind the first block the bytes of a colour image are combined with the following bytes of the other
one, and the end of the destination is left. -/
def ShiftedOr (n : Nat) (colour mono dest : Mat) (mem : Word → Byte) : Prop :=
  ∀ j < n * 3, 48 ≤ j →
    (if j < n + 32 then colour.byteAt mem j ||| mono.byteAt mem (j - 32) else dest.byteAt mem j) =
      colour.byteAt mem j ||| mono.byteAt mem (j / 3)

/-- The continued kernel combines whole pixels if and only if its shifted bytes are those of the pixels. -/
theorem forall_or_iff_shiftedOr {n : Nat} {colour mono dest : Mat} {mem last : Word → Byte}
    (bytes : ∀ j < n * 3, dest.byteAt last j =
      if j < 48 then colour.byteAt mem j ||| mono.byteAt mem (j / 3)
      else if j < n + 32 then colour.byteAt mem j ||| mono.byteAt mem (j - 32)
      else dest.byteAt mem j) :
    (∀ j < n * 3, dest.byteAt last j = colour.byteAt mem j ||| mono.byteAt mem (j / 3)) ↔
      ShiftedOr n colour mono dest mem := by
  constructor
  · intro given j inside behind
    have byte := given j inside
    rw [bytes j inside, if_neg (by omega)] at byte
    exact byte
  · intro shifted j inside
    rw [bytes j inside]
    by_cases early : j < 48
    · rw [if_pos early]
    · rw [if_neg early]
      exact shifted j inside (by omega)

/-- The product of the size fits, or the shifted bytes are those of the pixels. -/
def PairCall.OrFits (c : PairCall neonBitwiseOr) : Prop :=
  if c.a.type = c.b.type then c.a.area * c.a.type.channels < 2 ^ 31
  else if c.a.type = cv8UC3 then ShiftedOr c.a.area c.a c.b c.dest c.cpu.mem
  else ShiftedOr c.a.area c.b c.a c.dest c.cpu.mem

namespace PairCall

variable (c : PairCall neonBitwiseOr)

/-- Operands of one type are combined when the product of their size fits. -/
theorem leavesOr_iff_of_same (areas : c.a.area = c.b.area ∧ c.a.area = c.dest.area)
    (first : c.a.type = c.b.type) (second : c.a.type = c.dest.type) :
    c.Leaves (· ||| ·) ↔ c.a.area * c.a.type.channels < 2 ^ 31 := by
  have launched := neonBitwiseOr_same areas first second
  unfold intMul at launched
  have some : 0 < c.a.type.channels := by
    rcases c.channels c.a List.mem_cons_self with one | three
    · omega
    · omega
  by_cases fits : c.a.area * c.a.type.channels < 2 ^ 31
  · rw [if_pos fits] at launched
    have paired : Paired Streamed.bitwiseOr.kernel 1 1 1 := ⟨rfl, rfl, rfl, rfl⟩
    have left := c.placed_same List.mem_cons_self rfl rfl areas.2.symm (congrArg MatType.channels second.symm)
    have right := c.placed_same (List.mem_cons_of_mem _ List.mem_cons_self) areas.1.symm
      (congrArg MatType.channels first.symm) areas.2.symm (congrArg MatType.channels second.symm)
    rw [← Nat.mul_one (c.a.area * c.a.type.channels)] at left right
    obtain ⟨t, ends, bytes⟩ := exists_zipped c.cpu (Nat.mul_pos c.positive some) fits
      (Nat.dvd_mul_right_of_dvd c.multiple _) paired rfl rfl (fun _ => rfl) left right
    have leaves := c.leaves_iff_same (g := (· ||| ·)) (c.runs_iff launched ends) some rfl
      (congrArg MatType.channels first.symm) (congrArg MatType.channels second.symm)
    exact ⟨fun _ => fits, fun _ => leaves.mpr bytes⟩
  · rw [if_neg fits] at launched
    constructor
    · intro given
      obtain ⟨final, taken, _⟩ := given
      obtain ⟨launch, same, _⟩ := taken
      rw [launched] at same
      cases same
    · exact fun inside => absurd inside fits

/-- A colour image and one channel are combined when the shifted bytes are those of the pixels. -/
theorem leavesOr_iff_of_colourMono (areas : c.a.area = c.b.area ∧ c.a.area = c.dest.area)
    (first : c.a.type = cv8UC3) (second : c.b.type = cv8UC1) (third : c.dest.type = cv8UC3) :
    c.Leaves (· ||| ·) ↔ ShiftedOr c.a.area c.a c.b c.dest c.cpu.mem := by
  have colour := congrArg MatType.channels first
  have mono := congrArg MatType.channels second
  have dest := congrArg MatType.channels third
  have left := c.placed_same List.mem_cons_self rfl colour areas.2.symm dest
  have right := c.placed_mono (List.mem_cons_of_mem _ List.mem_cons_self) areas.1.symm mono areas.2.symm dest
  obtain ⟨t, ends, bytes⟩ := exists_bitwiseOr3c c.cpu c.positive c.small c.multiple left right
  rw [c.leaves_iff_colourMono (c.runs_iff (neonBitwiseOr_colourMono areas first second third) ends) colour
    mono dest]
  exact forall_or_iff_shiftedOr bytes

/-- The operands change their places when the colour image is the second one. -/
theorem leavesOr_iff_of_monoColour (areas : c.a.area = c.b.area ∧ c.a.area = c.dest.area)
    (first : c.a.type = cv8UC1) (second : c.b.type = cv8UC3) (third : c.dest.type = cv8UC3) :
    c.Leaves (· ||| ·) ↔ ShiftedOr c.a.area c.b c.a c.dest c.cpu.mem := by
  have mono := congrArg MatType.channels first
  have colour := congrArg MatType.channels second
  have dest := congrArg MatType.channels third
  have left := c.placed_same (List.mem_cons_of_mem _ List.mem_cons_self) areas.1.symm colour areas.2.symm dest
  have right := c.placed_mono List.mem_cons_self rfl mono areas.2.symm dest
  obtain ⟨t, ends, bytes⟩ := exists_bitwiseOr3c c.cpu c.positive c.small c.multiple left right
  rw [c.leaves_iff_monoColour (c.runs_iff (neonBitwiseOr_monoColour areas first second third) ends) mono
    colour dest]
  simp only [BitVec.or_comm (c.a.byteAt _ _)]
  exact forall_or_iff_shiftedOr bytes

/-- The destination combines both operands if and only if the product of the size fits or the shifted bytes
are those of the pixels. -/
theorem leavesOr_iff_orFits : c.Leaves (· ||| ·) ↔ c.OrFits := by
  obtain ⟨one, two, combination⟩ := neonBitwiseOr_accepted c.accepted
  unfold OrFits
  cases combination with
  | same first second =>
      rw [if_pos first]
      exact c.leavesOr_iff_of_same ⟨one, two⟩ first second
  | colourMono first second third =>
      rw [if_neg (by rw [first, second]; decide), if_pos first]
      exact c.leavesOr_iff_of_colourMono ⟨one, two⟩ first second third
  | monoColour first second third =>
      rw [if_neg (by rw [first, second]; decide), if_neg (by rw [first]; decide)]
      exact c.leavesOr_iff_of_monoColour ⟨one, two⟩ first second third

end PairCall

/-- A memory in which one range holds ones. -/
def onesAt (place : Word) (bytes : Nat) : Word → Byte := overwritten place bytes (fun _ => 1) fun _ => 0

/-- A dark colour image is combined with a bright channel. -/
def brightMono : PairCall neonBitwiseOr where
  a := ⟨2, 16, cv8UC3, 0x1000⟩
  b := ⟨2, 16, cv8UC1, 0x2000⟩
  dest := ⟨2, 16, cv8UC3, 0x3000⟩
  cpu := farPlanes .bitwiseOr3c 0 0 (onesAt 0x2000 32)
  eightBit := by decide
  channels := by decide
  accepted := by
    intro text same
    cases same
  positive := by decide
  multiple := by decide
  small := by decide
  placed := by
    intro m member
    rw [List.mem_cons, List.mem_singleton] at member
    rcases member with rfl | rfl
    · exact Or.inl (disjoint_of_far (by decide) (by decide))
    · exact Or.inl (disjoint_of_far (by decide) (by decide))

/-- The end of the destination stays dark. -/
theorem brightMono_not_leaves : ¬ brightMono.Leaves (· ||| ·) := by
  intro given
  have shifted := (brightMono.leavesOr_iff_of_colourMono ⟨rfl, rfl⟩ rfl rfl rfl).mp given
  exact absurd (shifted 64 (by decide) (by decide)) (by decide)

end BitwiseOr

section Add

namespace PairCall

/-- A wrapper ends in one state only. -/
theorem Runs.unique {wrapper : Wrapper} {c : PairCall wrapper} {first second : Cpu} (runs : c.Runs first)
    (again : c.Runs second) : second = first := by
  obtain ⟨launch, passed, taken⟩ := runs
  obtain ⟨other, same, found⟩ := again
  rw [passed] at same
  cases same
  exact taken.unique found

variable (c : PairCall neonAdd)

theorem areas : c.a.area = c.b.area ∧ c.a.area = c.dest.area :=
  ⟨(neonAdd_accepted c.accepted).1, (neonAdd_accepted c.accepted).2.1⟩

/-- The operands exchange their places. -/
def swap : PairCall neonAdd where
  a := c.b
  b := c.a
  dest := c.dest
  cpu := c.cpu
  eightBit m member := c.eightBit m ((List.Perm.swap c.a c.b []).mem_iff.mp member)
  channels m member := c.channels m ((List.Perm.swap c.a c.b []).mem_iff.mp member)
  accepted := neonAdd_accepts_swap c.accepted
  positive := c.areas.1 ▸ c.positive
  multiple := c.areas.1 ▸ c.multiple
  small := c.areas.1 ▸ c.small
  placed m member := c.placed m ((List.Perm.swap c.a c.b []).mem_iff.mp member)

/-- Both orders of the operands leave the same destination. -/
def Agrees : Prop :=
  ∃ first second, c.Runs first ∧ c.swap.Runs second ∧ ∀ i < c.a.area, ∀ channel < c.dest.type.channels,
    c.dest.pixel first.mem i channel = c.dest.pixel second.mem i channel

/-- The bytes that are found for a second colour image give the sums of its pixels. -/
def AddFits : Prop :=
  c.a.type = cv8UC3 → c.b.type = cv8UC3 → ∀ j < c.a.area * 3, 48 ≤ j →
    saturatedSum (c.a.byteAt c.cpu.mem j) (foundBy c.a c.b c.dest c.cpu.mem j) =
      saturatedSum (c.a.byteAt c.cpu.mem j) (c.b.byteAt c.cpu.mem j)

theorem leavesAdd_of_mono (first : c.a.type = cv8UC1) (second : c.b.type = cv8UC1)
    (third : c.dest.type = cv8UC1) : c.Leaves saturatedSum := by
  have areas := c.areas
  have one := congrArg MatType.channels first
  have two := congrArg MatType.channels second
  have three := congrArg MatType.channels third
  have left := c.placed_same List.mem_cons_self rfl one areas.2.symm three
  have right := c.placed_same (List.mem_cons_of_mem _ List.mem_cons_self) areas.1.symm two areas.2.symm three
  have paired : Paired Streamed.add.kernel 1 1 1 := ⟨rfl, rfl, rfl, rfl⟩
  obtain ⟨t, ends, bytes⟩ := exists_zipped c.cpu c.positive c.small c.multiple paired rfl rfl
    (fun _ => rfl) left right
  simp only [uqadd_eq_saturatedSum] at bytes
  rw [c.leaves_iff_same (c.runs_iff (neonAdd_mono areas first second third) ends) (by decide) one two three,
    show c.a.area * cv8UC1.channels = c.a.area from Nat.mul_one _]
  exact bytes

theorem leavesAdd_of_colourMono (first : c.a.type = cv8UC3) (second : c.b.type = cv8UC1)
    (third : c.dest.type = cv8UC3) : c.Leaves saturatedSum := by
  have areas := c.areas
  have colour := congrArg MatType.channels first
  have mono := congrArg MatType.channels second
  have dest := congrArg MatType.channels third
  have left := c.placed_same List.mem_cons_self rfl colour areas.2.symm dest
  have right := c.placed_mono (List.mem_cons_of_mem _ List.mem_cons_self) areas.1.symm mono areas.2.symm dest
  obtain ⟨t, ends, bytes⟩ := exists_add3c c.cpu c.positive c.small c.multiple left right
  simp only [uqadd_eq_saturatedSum] at bytes
  exact (c.leaves_iff_colourMono (c.runs_iff (neonAdd_colourMono areas first second third) ends) colour mono
    dest).mpr bytes

theorem leavesAdd_of_monoColour (first : c.a.type = cv8UC1) (second : c.b.type = cv8UC3)
    (third : c.dest.type = cv8UC3) : c.Leaves saturatedSum := by
  have areas := c.areas
  have mono := congrArg MatType.channels first
  have colour := congrArg MatType.channels second
  have dest := congrArg MatType.channels third
  have left := c.placed_same (List.mem_cons_of_mem _ List.mem_cons_self) areas.1.symm colour areas.2.symm dest
  have right := c.placed_mono List.mem_cons_self rfl mono areas.2.symm dest
  obtain ⟨t, ends, bytes⟩ := exists_add3c c.cpu c.positive c.small c.multiple left right
  simp only [uqadd_eq_saturatedSum, saturatedSum_comm (c.b.byteAt _ _)] at bytes
  exact (c.leaves_iff_monoColour (c.runs_iff (neonAdd_monoColour areas first second third) ends) mono colour
    dest).mpr bytes

/-- Two colour images are added when the bytes that are found give the sums of the pixels. -/
theorem leavesAdd_iff_of_colour (first : c.a.type = cv8UC3) (second : c.b.type = cv8UC3)
    (third : c.dest.type = cv8UC3) : c.Leaves saturatedSum ↔ c.AddFits := by
  have areas := c.areas
  have one := congrArg MatType.channels first
  have two := congrArg MatType.channels second
  have three := congrArg MatType.channels third
  have left := c.placed_same List.mem_cons_self rfl one areas.2.symm three
  have right := c.placed_same (List.mem_cons_of_mem _ List.mem_cons_self) areas.1.symm two areas.2.symm three
  obtain ⟨t, ends, sums⟩ := exists_add3c2 c.cpu c.positive c.small c.multiple left right
  rw [c.leaves_iff_same (c.runs_iff (neonAdd_colour areas first second third) ends) (by decide) one two three]
  exact sums.trans ⟨fun fits _ _ => fits, fun fits => fits first second⟩

/-- One order of the operands leaves the sums if and only if the bytes that are found give them. -/
theorem leavesAdd_iff : c.Leaves saturatedSum ↔ c.AddFits := by
  obtain ⟨_, _, combination, types⟩ := neonAdd_accepted c.accepted
  have single {m : Mat} (mono : m.type = cv8UC1) : m.type ≠ cv8UC3 := by
    rw [mono]
    decide
  cases combination with
  | same first second =>
      rcases types with mono | colour
      · have leaves := c.leavesAdd_of_mono mono (first.symm.trans mono) (second.symm.trans mono)
        exact ⟨fun _ both => absurd both (single mono), fun _ => leaves⟩
      · exact c.leavesAdd_iff_of_colour colour (first.symm.trans colour) (second.symm.trans colour)
  | colourMono first second third =>
      have leaves := c.leavesAdd_of_colourMono first second third
      exact ⟨fun _ _ both => absurd both (single second), fun _ => leaves⟩
  | monoColour first second third =>
      have leaves := c.leavesAdd_of_monoColour first second third
      exact ⟨fun _ both => absurd both (single first), fun _ => leaves⟩

/-- Two sums leave the same destination. -/
theorem agrees_of_leaves (leaves : c.Leaves saturatedSum) (other : c.swap.Leaves saturatedSum) :
    c.Agrees := by
  obtain ⟨first, runs, sums⟩ := leaves
  obtain ⟨second, again, others⟩ := other
  refine ⟨first, second, runs, again, fun i inside channel below => ?_⟩
  rw [sums i inside channel below, saturatedSum_comm]
  exact (others i (c.areas.1 ▸ inside) channel below).symm

/-- Two orders that agree leave the sums together. -/
theorem leaves_swap_of_agrees (leaves : c.Leaves saturatedSum) (agrees : c.Agrees) :
    c.swap.Leaves saturatedSum := by
  obtain ⟨final, taken, sums⟩ := leaves
  obtain ⟨first, second, runs, again, same⟩ := agrees
  obtain rfl := taken.unique runs
  refine ⟨second, again, fun i inside channel below => ?_⟩
  have within : i < c.a.area := c.areas.1.symm ▸ inside
  refine (same i within channel below).symm.trans ?_
  rw [sums i within channel below]
  exact saturatedSum_comm _ _

/-- The wrapper leaves the sums in both orders if and only if the bytes that are found give them in both. -/
theorem leavesAdd_and_agrees_iff : c.Leaves saturatedSum ∧ c.Agrees ↔ c.AddFits ∧ c.swap.AddFits := by
  rw [← c.leavesAdd_iff, ← c.swap.leavesAdd_iff]
  constructor
  · intro given
    obtain ⟨leaves, agrees⟩ := given
    exact ⟨leaves, c.leaves_swap_of_agrees leaves agrees⟩
  · intro given
    obtain ⟨leaves, other⟩ := given
    exact ⟨leaves, c.agrees_of_leaves leaves other⟩

end PairCall

/-- A dark colour image is added to an image with a bright end. -/
def brightEnd : PairCall neonAdd where
  a := ⟨2, 16, cv8UC3, 0x1000⟩
  b := ⟨2, 16, cv8UC3, 0x2000⟩
  dest := ⟨2, 16, cv8UC3, 0x3000⟩
  cpu := farPlanes .add3c2 0 0 (onesAt 0x2040 32)
  eightBit := by decide
  channels := by decide
  accepted := by
    intro text same
    cases same
  positive := by decide
  multiple := by decide
  small := by decide
  placed := by
    intro m member
    rw [List.mem_cons, List.mem_singleton] at member
    rcases member with rfl | rfl
    · exact Or.inl (disjoint_of_far (by decide) (by decide))
    · exact Or.inl (disjoint_of_far (by decide) (by decide))

/-- The end of the sum is dark. -/
theorem brightEnd_not_leaves : ¬ (brightEnd.Leaves saturatedSum ∧ brightEnd.Agrees) := by
  intro given
  have fits := (brightEnd.leavesAdd_iff_of_colour rfl rfl rfl).mp given.1
  exact absurd (fits rfl rfl 64 (by decide) (by decide)) (by decide)

end Add

end VisionServer.Neon
