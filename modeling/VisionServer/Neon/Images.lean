/-
This file decides which calls of the wrappers act on their matrices as images.
-/

import VisionServer.Neon.Gray
import VisionServer.Neon.Marks
import VisionServer.Neon.Pairs
import VisionServer.Neon.Weights

namespace VisionServer.Neon
open Library Library.Aarch64 Library.Assembly

/-- This is the size of a channel. -/
def Depth.bytes : Depth → Nat
  | .cv8U => 1
  | .cv8S => 1
  | .cv16U => 2
  | .cv16S => 2
  | .cv32S => 4
  | .cv32F => 4
  | .cv64F => 8
  | .cv16F => 2

def MatType.elemSize (type : MatType) : Nat := type.depth.bytes * type.channels

/-- The rows of a matrix are a step apart, and its elements have a channel. -/
structure Image extends Mat where
  step : Nat
  wide : cols * type.elemSize ≤ step
  some : 0 < type.channels

namespace Image

variable (m : Image)

/-- A byte of the element that is found at a place in row-major order. -/
def element (mem : Word → Byte) (k j : Nat) : Byte :=
  m.byteAt mem (k / m.cols * m.step + k % m.cols * m.type.elemSize + j)

def rowBytes : Set Word :=
  {a | ∃ r < m.rows, a ∈ span (m.data + BitVec.ofNat 64 (r * m.step)) (m.cols * m.type.elemSize)}

/-- The rows of a continuous matrix leave no gap. -/
def Continuous : Prop := m.rows ≤ 1 ∨ m.step = m.cols * m.type.elemSize

/-- A channel of an image that is combined with another one, where one channel is broadcast to all. -/
def channel (other : Image) (mem : Word → Byte) (k j : Nat) : Byte :=
  m.element mem k (if m.type = other.type then j else 0)

variable {m}

/-- The elements of a continuous matrix follow each other. -/
theorem Continuous.element (continuous : m.Continuous) (mem : Word → Byte) {k : Nat} (inside : k < m.area)
    (j : Nat) : m.element mem k j = m.byteAt mem (m.type.elemSize * k + j) := by
  have place : k / m.cols * m.step + k % m.cols * m.type.elemSize = m.type.elemSize * k := by
    rcases continuous with single | dense
    · have below : k < m.cols :=
        Nat.lt_of_lt_of_le inside ((Nat.mul_le_mul_right _ single).trans_eq (Nat.one_mul _))
      rw [Nat.div_eq_of_lt below, Nat.mod_eq_of_lt below, Nat.zero_mul, Nat.zero_add, Nat.mul_comm]
    · calc k / m.cols * m.step + k % m.cols * m.type.elemSize
          = (k / m.cols * m.cols + k % m.cols) * m.type.elemSize := by
            rw [dense, Nat.add_mul, Nat.mul_assoc]
        _ = m.type.elemSize * k := by rw [Nat.div_add_mod', Nat.mul_comm]
  rw [Image.element, place]

/-- The rows of a continuous matrix are one range. -/
theorem Continuous.rowBytes (continuous : m.Continuous) :
    m.rowBytes = span m.data (m.area * m.type.elemSize) := by
  have rows : m.rowBytes = span m.data (m.rows * (m.cols * m.type.elemSize)) := by
    ext a
    rw [mem_span_blocks]
    have start (r : Nat) (inside : r < m.rows) : r * m.step = r * (m.cols * m.type.elemSize) := by
      rcases continuous with single | dense
      · rw [show r = 0 by omega, Nat.zero_mul, Nat.zero_mul]
      · rw [dense]
    constructor
    · intro given
      obtain ⟨r, inside, here⟩ := given
      rw [start r inside] at here
      exact ⟨r, inside, here⟩
    · intro given
      obtain ⟨r, inside, here⟩ := given
      rw [← start r inside] at here
      exact ⟨r, inside, here⟩
  rw [rows, Mat.area, Nat.mul_assoc]

end Image

/-- A request names a wrapper and its arguments. -/
inductive Request where
  | threshold (src dest : Image) (thresh : Byte)
  | thresholdBinary (src dest : Image) (thresh : Byte)
  | compare3Add (primary comp1 comp2 addition dest : Image)
  | wst (primary ch1 : Image) (alpha : Byte) (ch2 : Image) (beta : Byte) (dest : Image) (gamma : Byte)
  | deinterlaceWstb (frame3C dest : Image) (primary : BGR) (alpha beta thresh : Byte)
  | deinterlaceCvt2gray (frame3C dest : Image)
  | bitwiseOr (a b dest : Image)
  | add (a b dest : Image)
  | subtract (src sub dest : Image)

namespace Request

def launch : Request → Except Stop Launch
  | .threshold src dest thresh => neonThreshold src.toMat dest.toMat thresh
  | .thresholdBinary src dest thresh => neonThresholdBinary src.toMat dest.toMat thresh
  | .compare3Add primary comp1 comp2 addition dest =>
      neonCompare3Add primary.toMat comp1.toMat comp2.toMat addition.toMat dest.toMat
  | .wst primary ch1 alpha ch2 beta dest gamma =>
      neonWst primary.toMat ch1.toMat alpha ch2.toMat beta dest.toMat gamma
  | .deinterlaceWstb frame3C dest primary alpha beta thresh =>
      neonDeinterlaceWstb frame3C.toMat dest.toMat primary alpha beta thresh
  | .deinterlaceCvt2gray frame3C dest => neonDeinterlaceCvt2gray frame3C.toMat dest.toMat
  | .bitwiseOr a b dest => neonBitwiseOr a.toMat b.toMat dest.toMat
  | .add a b dest => neonAdd a.toMat b.toMat dest.toMat
  | .subtract src sub dest => neonSubtract src.toMat sub.toMat dest.toMat

def dest : Request → Image
  | .threshold _ dest _ => dest
  | .thresholdBinary _ dest _ => dest
  | .compare3Add _ _ _ _ dest => dest
  | .wst _ _ _ _ _ dest _ => dest
  | .deinterlaceWstb _ dest _ _ _ _ => dest
  | .deinterlaceCvt2gray _ dest => dest
  | .bitwiseOr _ _ dest => dest
  | .add _ _ dest => dest
  | .subtract _ _ dest => dest

def sources : Request → List Image
  | .threshold src _ _ => [src]
  | .thresholdBinary src _ _ => [src]
  | .compare3Add primary comp1 comp2 addition _ => [primary, comp1, comp2, addition]
  | .wst primary ch1 _ ch2 _ _ _ => [primary, ch1, ch2]
  | .deinterlaceWstb frame3C _ _ _ _ _ => [frame3C]
  | .deinterlaceCvt2gray frame3C _ => [frame3C]
  | .bitwiseOr a b _ => [a, b]
  | .add a b _ => [a, b]
  | .subtract src sub _ => [src, sub]

/-- The kernel's function of the elements at one place. -/
def function (mem : Word → Byte) (k j : Nat) : Request → Byte
  | .threshold src _ thresh => keepAbove thresh (fun _ _ => src.element mem k 0) 0
  | .thresholdBinary src _ thresh => cmhi (src.element mem k 0) thresh
  | .compare3Add primary comp1 comp2 addition _ => compareAdd (primary.element mem k 0)
      (comp1.element mem k 0) (comp2.element mem k 0) (addition.element mem k 0)
  | .wst primary ch1 alpha ch2 beta _ gamma => weighSubtract alpha beta gamma (primary.element mem k 0)
      (ch1.element mem k 0) (ch2.element mem k 0)
  | .deinterlaceWstb frame3C _ primary alpha beta thresh =>
      splitMark primary.number alpha beta thresh (fun _ => frame3C.element mem k) 0
  | .deinterlaceCvt2gray frame3C _ => mixGray (fun _ => frame3C.element mem k) 0
  | .bitwiseOr a b dest => a.channel dest mem k j ||| b.channel dest mem k j
  | .add a b dest => uqadd (a.channel dest mem k j) (b.channel dest mem k j)
  | .subtract src sub _ => uqsub (src.element mem k 0) (sub.element mem k 0)

end Request

/-- A wrapper is called with matrices that it accepts. -/
structure ImageCall where
  request : Request
  launch : Launch
  accepted : request.launch = .ok launch
  positive : 0 < request.dest.area
  multiple : 16 ∣ request.dest.area
  small : request.dest.area < 2 ^ 31
  cpu : Cpu
  fresh : cpu.trace = []

/-- The call writes the elements of the destination image, each from the elements at its place, and
changes no other byte. -/
def ImageCall.Acts (c : ImageCall) : Prop :=
  ∃ final, c.launch.kernel.Ends (c.launch.enter c.cpu) final ∧
    (∀ k < c.request.dest.area, ∀ j < c.request.dest.type.elemSize,
      c.request.dest.element final.mem k j = c.request.function c.cpu.mem k j) ∧
    c.request.dest.rowBytes ⊆ final.touched .store ∧
    ∀ a ∉ c.request.dest.rowBytes, final.mem a = c.cpu.mem a

/-- The kernels that work block by block in their own loops make one pixel from the pixels at its place. -/
def Request.Pixelwise : Request → Prop
  | .thresholdBinary .. => False
  | .wst .. => False
  | .bitwiseOr a b _ => a.type = b.type
  | .add a b _ => ¬ (a.type = cv8UC3 ∧ b.type = cv8UC3)
  | .subtract _ _ dest => dest.type.channels = 1
  | _ => True

/-- The matrices of the call are continuous and made of bytes, and no block of a source is loaded after the
destination has stored in it. -/
structure PlainCall extends ImageCall where
  pixelwise : request.Pixelwise
  continuous : ∀ m ∈ request.dest :: request.sources, m.Continuous
  bytes : ∀ m ∈ request.dest :: request.sources, m.type.depth.bytes = 1
  unread : launch.kernel.Unread (launch.enter cpu)

/-- A launch fills one range with bytes. -/
structure Fills (launch : Launch) (cpu : Cpu) (base : Word) (bytes : Nat) (value : Nat → Byte)
    (t : Cpu) : Prop where
  ends : launch.kernel.Ends (launch.enter cpu) t
  mem : t.mem = overwritten base bytes value cpu.mem
  stores : span base bytes ⊆ t.touched .store

/-- A wrapper that goes on after an assertion has found it true. -/
theorem ok_of_assert {holds : Bool} {text : String} {next : Except Stop Launch} {launch : Launch}
    (passed : (cvAssert holds text >>= fun _ => next) = .ok launch) : holds = true ∧ next = .ok launch := by
  cases holds with
  | true => exact ⟨rfl, passed⟩
  | false => cases passed

section Counted

variable {k : Kernel} {cpu : Cpu} {n : Nat} (passed : cpu.x k.counter = BitVec.ofNat 64 n)
  (small : n < 2 ^ 31)
include passed small

theorem Kernel.count_of_passed : k.count cpu = n := by
  have value : (BitVec.ofNat 64 n).toNat = n := by
    rw [BitVec.toNat_ofNat, Nat.mod_eq_of_lt (by omega)]
  rw [Kernel.count, Kernel.size, passed, value, Nat.mod_eq_of_lt (by omega), ite_self]

theorem Kernel.pixels_of_passed (multiple : 16 ∣ n) : k.pixels cpu = n := by
  rw [Kernel.pixels, Kernel.blocks, Kernel.count_of_passed passed small, Nat.div_mul_cancel multiple]

end Counted

/-- A launch with regular turns fills its destination. -/
theorem Streams.fills {k : Kernel} {arguments : List Word} {loop : Label} {cpu : Cpu}
    (streams : Streams k loop ((Launch.mk k arguments).enter cpu)) (regular : Regular k (turnOps loop))
    {keeps : (Fin 32 → Lanes) → Prop} {d : Fin 31} {channels : Nat} {value : Reads → Nat → Byte}
    (pixelwise : Pixelwise (turnOps loop) keeps d (16 * channels) value) (dests : k.dests = [(d, channels)])
    (kept : keeps (k.prepared ((Launch.mk k arguments).enter cpu)).v) (apart : d ≠ k.counter) {n : Nat}
    (passed : ((Launch.mk k arguments).enter cpu).x k.counter = BitVec.ofNat 64 n) (positive : 0 < n)
    (multiple : 16 ∣ n) (small : n < 2 ^ 31) (unread : k.Unread ((Launch.mk k arguments).enter cpu)) :
    ∃ t, Fills ⟨k, arguments⟩ cpu (((Launch.mk k arguments).enter cpu).x d) (n * channels)
      (value (k.prepared ((Launch.mk k arguments).enter cpu)).byteAt) t := by
  have count := Kernel.count_of_passed passed small
  have pixels := Kernel.pixels_of_passed passed small multiple
  have whole : k.blocks ((Launch.mk k arguments).enter cpu) * (16 * channels) = n * channels := by
    rw [← pixels, Kernel.pixels, Nat.mul_assoc]
  have fits : n * channels ≤ 2 ^ 64 := by
    obtain ⟨other, many, same, _, few⟩ := regular.single
    rw [dests] at same
    cases same
    have bound : n * channels ≤ n * 3 := Nat.mul_le_mul_left n few
    omega
  have mem := streams.finished_mem pixelwise kept apart (by rw [whole]; exact fits)
    (unread.turns regular dests)
  rw [whole] at mem
  refine ⟨_, (streams.ends_iff_finished (by omega) _).mpr rfl, mem, ?_⟩
  rw [streams.finished_touched, regular.stores_eq, imageBytes_single dests, Nat.mul_assoc, whole]
  exact Set.subset_union_right

/-- A launch of the gray kernel with whole blocks fills its destination. -/
theorem gray_fills {arguments : List Word} {cpu : Cpu} {n : Nat}
    (passed : ((Launch.mk .deinterlaceTogray arguments).enter cpu).x 2 = BitVec.ofNat 64 n) (positive : 0 < n)
    (multiple : 16 ∣ n) (small : n < 2 ^ 31)
    (unread : Kernel.deinterlaceTogray.Unread ((Launch.mk .deinterlaceTogray arguments).enter cpu)) :
    ∃ t, Fills ⟨.deinterlaceTogray, arguments⟩ cpu (((Launch.mk .deinterlaceTogray arguments).enter cpu).x 1)
      n (mixGray ((Launch.mk .deinterlaceTogray arguments).enter cpu).byteAt) t := by
  have count : (((Launch.mk .deinterlaceTogray arguments).enter cpu).x 2).toNat = n :=
    Kernel.count_of_passed (k := .deinterlaceTogray) passed small
  have turns := unread.turns deinterlaceTogray_regular rfl
  obtain ⟨t, walked, mem, ends⟩ := exists_grayBlocks turns
  rw [count, if_neg positive.ne', Nat.mod_eq_zero_of_dvd multiple, Function.iterate_zero] at ends
  rw [count, Nat.div_mul_cancel multiple] at mem
  refine ⟨t, (ends t).mpr rfl, mem, ?_⟩
  rw [walked.touched, deinterlaceTogray_regular.stores_eq,
    imageBytes_single (show Kernel.deinterlaceTogray.dests = [(1, 1)] from rfl), count,
    Nat.div_mul_cancel multiple, Nat.mul_one]
  exact Set.subset_union_right

theorem Streamed.dest_ne_counter (s : Streamed) : s.dest ≠ s.kernel.counter := by
  cases s <;> decide

/-- A launch of a streamed kernel fills its destination from the memory of the call. -/
theorem Streamed.fills (s : Streamed) {arguments : List Word} {cpu : Cpu} {n : Nat}
    (passed : ((Launch.mk s.kernel arguments).enter cpu).x s.kernel.counter = BitVec.ofNat 64 n)
    (positive : 0 < n) (multiple : 16 ∣ n) (small : n < 2 ^ 31)
    (unread : s.kernel.Unread ((Launch.mk s.kernel arguments).enter cpu)) :
    ∃ t, Fills ⟨s.kernel, arguments⟩ cpu (((Launch.mk s.kernel arguments).enter cpu).x s.dest)
      (n * s.channels) (s.value ((Launch.mk s.kernel arguments).enter cpu)
        ((Launch.mk s.kernel arguments).enter cpu).byteAt) t := by
  rw [← s.value_prepared]
  exact (s.streams _).fills s.regular (s.pixelwise _) s.dests (s.keeps_prepared _) s.dest_ne_counter passed
    positive multiple small unread

namespace PlainCall

variable (c : PlainCall)

/-- A call acts on images when it fills the bytes of its destination. -/
theorem acts_of_fills {request : Request} (asked : c.request = request) {launch : Launch}
    (launched : c.launch = launch) {bytes : Nat} {value : Nat → Byte} {t : Cpu}
    (fills : Fills launch c.cpu request.dest.data bytes value t)
    (whole : bytes = request.dest.area * request.dest.type.elemSize) (fits : bytes ≤ 2 ^ 64)
    (same : ∀ k < request.dest.area, ∀ j < request.dest.type.elemSize,
      value (request.dest.type.elemSize * k + j) = request.function c.cpu.mem k j) :
    c.Acts := by
  subst asked launched
  have continuous := c.continuous _ List.mem_cons_self
  have rows := continuous.rowBytes
  rw [← whole] at rows
  refine ⟨t, fills.ends, fun k inside j below => ?_, ?_, fun a outside => ?_⟩
  · have next : c.request.dest.type.elemSize * (k + 1) ≤ c.request.dest.type.elemSize * c.request.dest.area :=
      Nat.mul_le_mul_left _ inside
    rw [Nat.mul_succ, Nat.mul_comm _ c.request.dest.area, ← whole] at next
    rw [continuous.element _ inside, Mat.byteAt, fills.mem, overwritten_add (by omega) (by omega)]
    exact same k inside j below
  · rw [rows]
    exact fills.stores
  · rw [rows] at outside
    rw [fills.mem]
    exact overwritten_of_notMem outside

theorem unread_of {launch : Launch} (launched : c.launch = launch) :
    launch.kernel.Unread (launch.enter c.cpu) := by
  subst launched
  exact c.unread

section Asked

variable {c} {request : Request} (asked : c.request = request)
include asked

theorem facts : request.launch = .ok c.launch ∧ request.Pixelwise ∧
    0 < request.dest.area ∧ 16 ∣ request.dest.area ∧ request.dest.area < 2 ^ 31 := by
  subst asked
  exact ⟨c.accepted, c.pixelwise, c.positive, c.multiple, c.small⟩

theorem elemSize {m : Image} (member : m ∈ request.dest :: request.sources) :
    m.type.elemSize = m.type.channels := by
  subst asked
  rw [MatType.elemSize, c.bytes m member, Nat.one_mul]

/-- The elements of the call follow each other from their data pointers. -/
theorem element {m : Image} (member : m ∈ request.dest :: request.sources) (mem : Word → Byte)
    {k : Nat} (inside : k < m.area) (j : Nat) :
    m.element mem k j = m.byteAt mem (m.type.channels * k + j) := by
  rw [← elemSize asked member]
  subst asked
  exact (c.continuous m member).element mem inside j

theorem element_mono {m : Image} (member : m ∈ request.dest :: request.sources) (mono : m.type = cv8UC1)
    (mem : Word → Byte) {k : Nat} (inside : k < m.area) : m.element mem k 0 = m.byteAt mem k := by
  rw [element asked member mem inside, mono]
  exact congrArg (m.byteAt mem) (Nat.one_mul k)

/-- A call over single bytes acts on images when it fills one byte for each pixel. -/
theorem acts_of_pixels {launch : Launch} (launched : c.launch = launch) {value : Nat → Byte} {t : Cpu}
    (fills : Fills launch c.cpu request.dest.data request.dest.area value t)
    (single : request.dest.type.elemSize = 1)
    (same : ∀ k < request.dest.area, value k = request.function c.cpu.mem k 0) : c.Acts := by
  obtain ⟨_, _, _, _, small⟩ := facts asked
  refine c.acts_of_fills asked launched fills (by rw [single, Nat.mul_one]) (by omega) ?_
  intro k inside j below
  rw [single] at below ⊢
  obtain rfl := Nat.lt_one_iff.mp below
  rw [Nat.one_mul, Nat.add_zero]
  exact same k inside

end Asked

theorem acts_threshold {src dest : Image} {thresh : Byte}
    (asked : c.request = .threshold src dest thresh) : c.Acts := by
  obtain ⟨accepted, _, (positive : 0 < dest.area), (multiple : 16 ∣ dest.area),
    (small : dest.area < 2 ^ 31)⟩ := facts asked
  obtain ⟨first, accepted⟩ := ok_of_assert accepted
  obtain ⟨second, accepted⟩ := ok_of_assert accepted
  obtain ⟨third, accepted⟩ := ok_of_assert accepted
  have mono : src.type = cv8UC1 := beq_iff_eq.mp first
  have single : dest.type.elemSize = 1 := by rw [beq_iff_eq.mp second]; rfl
  have area : src.area = dest.area := beq_iff_eq.mp third
  have launched := (Except.ok.inj accepted).symm
  obtain ⟨t, fills⟩ :=
    Streamed.threshold.fills (by rw [← area]; rfl) positive multiple small (c.unread_of launched)
  rw [show Streamed.threshold.channels = 1 from rfl, Nat.mul_one] at fills
  refine acts_of_pixels asked launched fills single ?_
  intro k (inside : k < dest.area)
  rw [Request.function, element_mono asked (.tail _ (.head _)) mono _ (by omega)]
  change keepAbove ((byteArgument thresh).setWidth 8) (fun _ => src.byteAt c.cpu.mem) k =
    keepAbove thresh (fun _ _ => src.byteAt c.cpu.mem k) 0
  rw [byteArgument_low, keepAbove, keepAbove]

/-- A kernel over single bytes combines the elements of both sources. -/
theorem acts_zipped {s : Streamed} (paired : Paired s.kernel 1 1 1) (third : s.dest = 2)
    (one : s.channels = 1) {g : Byte → Byte → Byte} (value : ∀ cpu, s.value cpu = zipBytes g)
    {request : Request} (asked : c.request = request) {a b : Image} {channels : Nat}
    (launched : c.launch = ⟨s.kernel, [a.data, b.data, request.dest.data,
      .ofNat 64 (request.dest.area * channels)]⟩)
    (sources : request.sources = [a, b]) (areas : a.area = request.dest.area ∧ b.area = request.dest.area)
    (types : a.type.channels = channels ∧ b.type.channels = channels ∧ request.dest.type.channels = channels)
    (some : 0 < channels) (small : request.dest.area * channels < 2 ^ 31)
    (function : ∀ mem k j, j < channels →
      request.function mem k j = g (a.element mem k j) (b.element mem k j)) : c.Acts := by
  obtain ⟨_, _, positive, multiple, _⟩ := facts asked
  have size : request.dest.type.elemSize = channels := by
    rw [elemSize asked List.mem_cons_self, types.2.2]
  obtain ⟨t, fills⟩ := s.fills (n := request.dest.area * channels) (by rw [paired.counter]; rfl)
    (Nat.mul_pos positive some) (Dvd.dvd.mul_right multiple channels) small (c.unread_of launched)
  rw [third, one, Nat.mul_one, value] at fills
  refine c.acts_of_fills asked launched fills (by rw [size]) (by omega) fun k inside j below => ?_
  rw [size] at below ⊢
  rw [function _ _ _ below, element asked (by simp [sources]) _ (areas.1 ▸ inside),
    element asked (by simp [sources]) _ (areas.2 ▸ inside), types.1, types.2.1]
  rfl

/-- The kernel over a colour image and one channel combines the channel with each channel of the colour. -/
theorem acts_add3c {request : Request} (asked : c.request = request) {colour mono : Image}
    (launched : c.launch = ⟨.add3c, [colour.data, mono.data, request.dest.data, .ofNat 64 request.dest.area]⟩)
    (members : colour ∈ request.sources ∧ mono ∈ request.sources)
    (areas : colour.area = request.dest.area ∧ mono.area = request.dest.area)
    (types : colour.type = cv8UC3 ∧ mono.type = cv8UC1 ∧ request.dest.type = cv8UC3)
    (function : ∀ mem k j, request.function mem k j = uqadd (colour.element mem k j) (mono.element mem k 0)) :
    c.Acts := by
  obtain ⟨_, _, positive, multiple, small⟩ := facts asked
  have size : request.dest.type.elemSize = 3 := by rw [types.2.2]; rfl
  obtain ⟨t, fills⟩ := Streamed.add3c.fills rfl positive multiple small (c.unread_of launched)
  refine c.acts_of_fills asked launched fills (by rw [size]; rfl)
    (by change request.dest.area * 3 ≤ _; omega) fun k inside j below => ?_
  rw [size] at below ⊢
  rw [function, element asked (.tail _ members.1) _ (areas.1 ▸ inside),
    element asked (.tail _ members.2) _ (areas.2 ▸ inside), types.1, types.2.1]
  have whole : (3 * k + j) / 3 = k := by omega
  change uqadd (colour.byteAt c.cpu.mem (3 * k + j)) (mono.byteAt c.cpu.mem ((3 * k + j) / 3)) =
    uqadd (colour.byteAt c.cpu.mem (3 * k + j)) (mono.byteAt c.cpu.mem (1 * k + 0))
  rw [whole, Nat.one_mul, Nat.add_zero]

theorem acts_compare3Add {primary comp1 comp2 addition dest : Image}
    (asked : c.request = .compare3Add primary comp1 comp2 addition dest) : c.Acts := by
  obtain ⟨accepted, _, (positive : 0 < dest.area), (multiple : 16 ∣ dest.area),
    (small : dest.area < 2 ^ 31)⟩ := facts asked
  obtain ⟨first, accepted⟩ := ok_of_assert accepted
  obtain ⟨second, accepted⟩ := ok_of_assert accepted
  obtain ⟨third, accepted⟩ := ok_of_assert accepted
  obtain ⟨fourth, accepted⟩ := ok_of_assert accepted
  obtain ⟨fifth, accepted⟩ := ok_of_assert accepted
  obtain ⟨sixth, accepted⟩ := ok_of_assert accepted
  obtain ⟨seventh, accepted⟩ := ok_of_assert accepted
  obtain ⟨eighth, accepted⟩ := ok_of_assert accepted
  obtain ⟨ninth, accepted⟩ := ok_of_assert accepted
  have area : primary.area = dest.area := beq_iff_eq.mp ninth
  have areas : comp1.area = dest.area ∧ comp2.area = dest.area ∧ addition.area = dest.area :=
    ⟨(beq_iff_eq.mp sixth).symm.trans area, (beq_iff_eq.mp seventh).symm.trans area,
      (beq_iff_eq.mp eighth).symm.trans area⟩
  have single : dest.type.elemSize = 1 := by rw [beq_iff_eq.mp fifth]; rfl
  have launched := (Except.ok.inj accepted).symm
  have passed : ((Launch.mk .compare3Add [primary.data, comp1.data, comp2.data, addition.data, dest.data,
      .ofNat 64 primary.area]).enter c.cpu).x Kernel.compare3Add.counter = .ofNat 64 dest.area := by
    rw [← area]
    rfl
  obtain ⟨t, fills⟩ := (compare3Add_streams _).fills compare3Add_regular cmp3AddLoop_pixelwise rfl trivial
    (by decide) passed positive multiple small (c.unread_of launched)
  rw [Nat.mul_one] at fills
  refine acts_of_pixels asked launched fills single ?_
  intro k (inside : k < dest.area)
  rw [Request.function, element_mono asked (.tail _ (.head _)) (beq_iff_eq.mp first) _ (by omega),
    element_mono asked (.tail _ (.tail _ (.head _))) (beq_iff_eq.mp second) _ (by omega),
    element_mono asked (.tail _ (.tail _ (.tail _ (.head _)))) (beq_iff_eq.mp third) _ (by omega),
    element_mono asked (.tail _ (.tail _ (.tail _ (.tail _ (.head _))))) (beq_iff_eq.mp fourth) _ (by omega)]
  rw [Kernel.prepared_byteAt (by decide), Kernel.prepared_byteAt (by decide),
    Kernel.prepared_byteAt (by decide), Kernel.prepared_byteAt (by decide)]
  rfl

/-- The channels of a pixel keep the roles that the kernel gives them. -/
theorem acts_deinterlaceWstb {frame3C dest : Image} {primary : BGR} {alpha beta thresh : Byte}
    (asked : c.request = .deinterlaceWstb frame3C dest primary alpha beta thresh) : c.Acts := by
  obtain ⟨accepted, _, (positive : 0 < dest.area), (multiple : 16 ∣ dest.area),
    (small : dest.area < 2 ^ 31)⟩ := facts asked
  obtain ⟨first, accepted⟩ := ok_of_assert accepted
  obtain ⟨second, accepted⟩ := ok_of_assert accepted
  obtain ⟨third, accepted⟩ := ok_of_assert accepted
  have colour : frame3C.type = cv8UC3 := beq_iff_eq.mp first
  have single : dest.type.elemSize = 1 := by rw [beq_iff_eq.mp second]; rfl
  have area : frame3C.area = dest.area := beq_iff_eq.mp third
  have launched := (Except.ok.inj accepted).symm
  have passed : ((Launch.mk .deinterlaceWstb [frame3C.data, dest.data, .ofNat 64 frame3C.area,
      .ofNat 64 primary.number, byteArgument alpha, byteArgument beta, byteArgument thresh]).enter c.cpu).x
        Kernel.deinterlaceWstb.counter = .ofNat 64 dest.area := by
    rw [← area]
    rfl
  have weighs : Weighs ((byteArgument alpha).setWidth 8) ((byteArgument beta).setWidth 8)
      ((byteArgument thresh).setWidth 8) (Kernel.deinterlaceWstb.prepared ((Launch.mk .deinterlaceWstb
        [frame3C.data, dest.data, .ofNat 64 frame3C.area, .ofNat 64 primary.number, byteArgument alpha,
          byteArgument beta, byteArgument thresh]).enter c.cpu)).v := ⟨rfl, rfl, rfl⟩
  rw [byteArgument_low, byteArgument_low, byteArgument_low] at weighs
  obtain ⟨t, fills⟩ := (@split_streams _ primary.number rfl).fills (split_regular _)
    (splitLoop_pixelwise alpha beta thresh _) rfl weighs (by decide) passed positive multiple small
      (c.unread_of launched)
  rw [Nat.mul_one] at fills
  refine acts_of_pixels asked launched fills single ?_
  intro k (inside : k < dest.area)
  have channel (i : Nat) : frame3C.element c.cpu.mem k i = frame3C.byteAt c.cpu.mem (3 * k + i) := by
    rw [element asked (.tail _ (.head _)) _ (by omega), colour]
    rfl
  rw [Request.function, splitMark, splitMark, channel, channel, channel, Kernel.prepared_byteAt (by decide),
    Kernel.prepared_byteAt (by decide), Kernel.prepared_byteAt (by decide)]
  simp only [Nat.mul_zero, Nat.zero_add]
  rfl

/-- The gray kernel makes the blocks of a whole number of blocks only. -/
theorem acts_deinterlaceCvt2gray {frame3C dest : Image}
    (asked : c.request = .deinterlaceCvt2gray frame3C dest) : c.Acts := by
  obtain ⟨accepted, _, (positive : 0 < dest.area), (multiple : 16 ∣ dest.area),
    (small : dest.area < 2 ^ 31)⟩ := facts asked
  obtain ⟨first, accepted⟩ := ok_of_assert accepted
  obtain ⟨second, accepted⟩ := ok_of_assert accepted
  obtain ⟨third, accepted⟩ := ok_of_assert accepted
  have colour : frame3C.type = cv8UC3 := beq_iff_eq.mp first
  have single : dest.type.elemSize = 1 := by rw [beq_iff_eq.mp second]; rfl
  have area : frame3C.area = dest.area := beq_iff_eq.mp third
  have launched := (Except.ok.inj accepted).symm
  obtain ⟨t, fills⟩ :=
    gray_fills (n := dest.area) (by rw [← area]; rfl) positive multiple small (c.unread_of launched)
  refine acts_of_pixels asked launched fills single ?_
  intro k (inside : k < dest.area)
  have channel (i : Nat) : frame3C.element c.cpu.mem k i = frame3C.byteAt c.cpu.mem (3 * k + i) := by
    rw [element asked (.tail _ (.head _)) _ (by omega), colour]
    rfl
  rw [Request.function, mixGray, mixGray, channel, channel, channel]
  rfl

theorem acts_bitwiseOr {a b dest : Image} (asked : c.request = .bitwiseOr a b dest) : c.Acts := by
  obtain ⟨accepted, (same : a.type = b.type), (positive : 0 < dest.area), _, _⟩ := facts asked
  have accepts : Accepts neonBitwiseOr a.toMat b.toMat dest.toMat := by
    intro text failed
    cases failed.symm.trans accepted
  obtain ⟨first, second, combination⟩ := neonBitwiseOr_accepted accepts
  have target : a.type = dest.type := by
    cases combination with
    | same _ second => exact second
    | colourMono first second _ => exact absurd (first.symm.trans (same.trans second)) (by decide)
    | monoColour first second _ => exact absurd (first.symm.trans (same.trans second)) (by decide)
  have passed := (neonBitwiseOr_same ⟨first, second⟩ same target).symm.trans accepted
  unfold intMul at passed
  split at passed
  · rename_i small
    have launched := (Except.ok.inj passed).symm
    rw [second, target] at launched small
    have channel {m : Image} (alike : m.type = dest.type) (mem : Word → Byte) (k j : Nat) :
        m.channel dest mem k j = m.element mem k j := by
      rw [Image.channel, if_pos alike]
    exact c.acts_zipped (s := .bitwiseOr) ⟨rfl, rfl, rfl, rfl⟩ rfl rfl (fun _ => rfl) asked launched rfl
      ⟨second, first.symm.trans second⟩
      ⟨congrArg MatType.channels target, congrArg MatType.channels (same.symm.trans target), rfl⟩ dest.some
      small fun mem k j _ => by
        rw [Request.function, channel target, channel (same.symm.trans target)]
  · cases passed

theorem acts_subtract {src sub dest : Image} (asked : c.request = .subtract src sub dest) : c.Acts := by
  obtain ⟨accepted, (one : dest.type.channels = 1), _, _, (small : dest.area < 2 ^ 31)⟩ := facts asked
  obtain ⟨first, accepted⟩ := ok_of_assert accepted
  obtain ⟨second, accepted⟩ := ok_of_assert accepted
  obtain ⟨_, accepted⟩ := ok_of_assert accepted
  obtain ⟨third, accepted⟩ := ok_of_assert accepted
  obtain ⟨fourth, accepted⟩ := ok_of_assert accepted
  have areas : src.area = dest.area ∧ sub.area = dest.area :=
    ⟨beq_iff_eq.mp fourth, (beq_iff_eq.mp third).symm.trans (beq_iff_eq.mp fourth)⟩
  have launched := (Except.ok.inj accepted).symm
  rw [areas.1, ← Nat.mul_one dest.area] at launched
  exact c.acts_zipped (s := .subtract) ⟨rfl, rfl, rfl, rfl⟩ rfl rfl (fun _ => rfl) asked launched rfl areas
    ⟨congrArg MatType.channels (beq_iff_eq.mp first), congrArg MatType.channels (beq_iff_eq.mp second), one⟩
    (by decide) (by rw [Nat.mul_one]; exact small) fun mem k j below => by
      rw [Request.function, Nat.lt_one_iff.mp below]

theorem acts_add {a b dest : Image} (asked : c.request = .add a b dest) : c.Acts := by
  obtain ⟨accepted, (apart : ¬ (a.type = cv8UC3 ∧ b.type = cv8UC3)), _, _, (small : dest.area < 2 ^ 31)⟩ :=
    facts asked
  have accepts : Accepts neonAdd a.toMat b.toMat dest.toMat := by
    intro text failed
    cases failed.symm.trans accepted
  obtain ⟨first, second, combination, types⟩ := neonAdd_accepted accepts
  have areas : a.area = dest.area ∧ b.area = dest.area := ⟨second, first.symm.trans second⟩
  have alike {m : Image} (same : m.type = dest.type) (mem : Word → Byte) (k j : Nat) :
      m.channel dest mem k j = m.element mem k j := by rw [Image.channel, if_pos same]
  have broadcast {m : Image} (mono : m.type = cv8UC1) (colour : dest.type = cv8UC3) (mem : Word → Byte)
      (k j : Nat) : m.channel dest mem k j = m.element mem k 0 := by
    rw [Image.channel, mono, colour, if_neg (by decide)]
  cases combination with
  | same one two =>
      have mono : a.type = cv8UC1 := types.resolve_right fun colour => apart ⟨colour, one.symm.trans colour⟩
      have passed := neonAdd_mono ⟨first, second⟩ mono (one.symm.trans mono) (two.symm.trans mono)
      have launched := (Except.ok.inj (passed.symm.trans accepted)).symm
      rw [second, ← Nat.mul_one dest.area] at launched
      exact c.acts_zipped (s := .add) ⟨rfl, rfl, rfl, rfl⟩ rfl rfl (fun _ => rfl) asked launched rfl areas
        ⟨congrArg MatType.channels mono, congrArg MatType.channels (one.symm.trans mono),
          congrArg MatType.channels (two.symm.trans mono)⟩ (by decide) (by rw [Nat.mul_one]; exact small)
        fun mem k j _ => by rw [Request.function, alike two, alike (one.symm.trans two)]
  | colourMono colour mono target =>
      have passed := neonAdd_colourMono ⟨first, second⟩ colour mono target
      have launched := (Except.ok.inj (passed.symm.trans accepted)).symm
      rw [second] at launched
      exact c.acts_add3c asked launched ⟨.head _, .tail _ (.head _)⟩ areas ⟨colour, mono, target⟩
        fun mem k j => by rw [Request.function, alike (colour.trans target.symm), broadcast mono target]
  | monoColour mono colour target =>
      have passed := neonAdd_monoColour ⟨first, second⟩ mono colour target
      have launched := (Except.ok.inj (passed.symm.trans accepted)).symm
      rw [second] at launched
      exact c.acts_add3c asked launched ⟨.tail _ (.head _), .head _⟩ areas.symm ⟨colour, mono, target⟩
        fun mem k j => by
          rw [Request.function, alike (colour.trans target.symm), broadcast mono target,
            uqadd_eq_saturatedSum, saturatedSum_comm, ← uqadd_eq_saturatedSum]

end PlainCall

/-- A plain call acts on its matrices as images. -/
theorem plain_acts (c : PlainCall) : c.Acts := by
  have pixelwise := c.pixelwise
  cases asked : c.request with
  | threshold => exact c.acts_threshold asked
  | thresholdBinary =>
      rw [asked] at pixelwise
      exact pixelwise.elim
  | compare3Add => exact c.acts_compare3Add asked
  | wst =>
      rw [asked] at pixelwise
      exact pixelwise.elim
  | deinterlaceWstb => exact c.acts_deinterlaceWstb asked
  | deinterlaceCvt2gray => exact c.acts_deinterlaceCvt2gray asked
  | bitwiseOr => exact c.acts_bitwiseOr asked
  | add => exact c.acts_add asked
  | subtract => exact c.acts_subtract asked

/-- One block is thresholded in place. -/
example : Nonempty PlainCall :=
  ⟨{ request := .threshold ⟨⟨1, 16, cv8UC1, 0x1000⟩, 16, by decide, by decide⟩
        ⟨⟨1, 16, cv8UC1, 0x1000⟩, 16, by decide, by decide⟩ 7
     launch := ⟨.threshold, [0x1000, 0x1000, 16, byteArgument 7]⟩
     accepted := rfl
     positive := by decide
     multiple := by decide
     small := by decide
     cpu := farPlanes .threshold 0 0 fun _ => 0
     fresh := rfl
     pixelwise := trivial
     continuous := by simp [Request.dest, Request.sources, Image.Continuous]
     bytes := by simp [Request.dest, Request.sources, cv8UC1, Depth.bytes]
     unread := by
       intro source _ dest _ i inside
       obtain rfl := Nat.lt_one_iff.mp inside
       simp }⟩

/-- The source is the left half of a wider image whose right half is bright. -/
def regionThreshold : ImageCall where
  request := .threshold ⟨⟨2, 16, cv8UC1, 0x1000⟩, 32, by decide, by decide⟩
    ⟨⟨2, 16, cv8UC1, 0x2000⟩, 16, by decide, by decide⟩ 0
  launch := ⟨.threshold, [0x1000, 0x2000, 32, byteArgument 0]⟩
  accepted := rfl
  positive := by decide
  multiple := by decide
  small := by decide
  cpu := farPlanes .threshold 0 0 fun a => if a = 0x1010 then 1 else 0
  fresh := rfl

/-- The destination lies one block behind the source. -/
def shiftedThreshold : ImageCall where
  request := .threshold ⟨⟨1, 32, cv8UC1, 0x1000⟩, 32, by decide, by decide⟩
    ⟨⟨1, 32, cv8UC1, 0x1010⟩, 32, by decide, by decide⟩ 0
  launch := ⟨.threshold, [0x1000, 0x1010, 32, byteArgument 0]⟩
  accepted := rfl
  positive := by decide
  multiple := by decide
  small := by decide
  cpu := farPlanes .threshold 0 0 fun a => if a = 0x1000 then 1 else 0
  fresh := rfl

/-- The seventeenth pixel is taken from the other half, or from the block that the first turn stores. -/
theorem threshold_not_acts : ¬ regionThreshold.Acts ∧ ¬ shiftedThreshold.Acts := by
  constructor
  · rintro ⟨final, ended, pixels, _⟩
    obtain rfl := ((Streamed.threshold.streams _).ends_iff_finished (by decide) final).mp ended
    exact absurd (pixels 16 (by decide) 0 (by decide)) (by decide)
  · rintro ⟨final, ended, pixels, _⟩
    obtain rfl := ((Streamed.threshold.streams _).ends_iff_finished (by decide) final).mp ended
    exact absurd (pixels 16 (by decide) 0 (by decide)) (by decide)

end VisionServer.Neon
