/-
This file gives the images of the kernels that subtract weighted channels.
-/

import VisionServer.Neon.Blocks
import VisionServer.Neon.Exact

namespace VisionServer.Neon
open Library Library.Aarch64 Library.Assembly

/-- A weight takes as many bits from a byte as it has leading zeros. -/
def weighted (weight byte : Byte) : Nat := byte.toNat >>> weight.clz.toNat

section Split

/-- The signed comparison of the offset register with one selects the loop of a channel. -/
def selected (offset : Word) : Fin 3 := if offset.slt 1 then 0 else if offset = 1 then 1 else 2

theorem selected_ofNat : (offset : Fin 3) → selected (BitVec.ofNat 64 offset) = offset
  | 0 => rfl
  | 1 => rfl
  | 2 => rfl

theorem selected_enters (cpu final : Cpu) : Kernel.deinterlaceWstb.Ends cpu final ↔
    Returns isa neon64 (codeAt (splitLoop (selected (cpu.x 3))) neon64)
      (Kernel.deinterlaceWstb.prepared cpu) final := by
  have branches : Kernel.deinterlaceWstb.Ends cpu final ↔ Returns isa neon64
      (afterBlock (codeAt .memcpyDeinterlaceWstbAsm neon64)) (Kernel.deinterlaceWstb.prepared cpu) final :=
    returns_block
  have three : ∃ rest, afterBlock (codeAt .memcpyDeinterlaceWstbAsm neon64) =
      .branch .lt .c0SplitWstbLoop :: .branch .eq .c1SplitWstbLoop ::
        .branch .gt .c2SplitWstbLoop :: rest := ⟨_, rfl⟩
  obtain ⟨rest, text⟩ := three
  -- the prepared flags are those of the comparison of the offset with one
  have holds (cond : Cond) : isa.holds cond (Kernel.deinterlaceWstb.prepared cpu) =
      isa.holds cond (cpu.compare (cpu.x 3) 1) := by
    cases cond <;> rfl
  rw [branches, text, returns_branch, holds, holds_lt_compare, selected]
  by_cases less : (cpu.x 3).slt 1 = true
  · rw [if_pos less, if_pos less]
    rfl
  · rw [if_neg less, if_neg less, returns_branch, holds, holds_eq_compare]
    by_cases one : cpu.x 3 = 1
    · rw [if_pos (decide_eq_true one), if_pos one]
      rfl
    · have greater := holds_gt_compare (cpu.x 3) 1 cpu (Bool.eq_false_of_not_eq_true less) one
      rw [if_neg (by rw [decide_eq_true_iff]; exact one), if_neg one, returns_branch, holds, if_pos greater]
      rfl

theorem splitLoop_shape : (offset : Fin 3) → Loop Kernel.deinterlaceWstb.counter (splitLoop offset)
  | 0 => c0SplitWstbLoop_shape
  | 1 => c1SplitWstbLoop_shape
  | 2 => c2SplitWstbLoop_shape

theorem selected_streams (cpu : Cpu) : Streams .deinterlaceWstb (splitLoop (selected (cpu.x 3))) cpu :=
  ⟨by decide, splitLoop_shape _, selected_enters cpu⟩

theorem split_streams {cpu : Cpu} {offset : Fin 3} (passed : cpu.x 3 = BitVec.ofNat 64 offset) :
    Streams .deinterlaceWstb (splitLoop offset) cpu := by
  have streams := selected_streams cpu
  rw [passed, selected_ofNat] at streams
  exact streams

theorem split_regular (offset : Fin 3) : Regular .deinterlaceWstb (turnOps (splitLoop offset)) :=
  deinterlaceWstb_regular <| match offset with
    | 0 => by decide
    | 1 => by decide
    | 2 => by decide

/-- The mark of a pixel is decided by its weighted channels. -/
theorem toNat_splitMark (offset : Fin 3) (alpha beta threshold : Byte) (f : Reads) (pixel : Nat) :
    (splitMark offset alpha beta threshold f pixel).toNat =
      if threshold.toNat < (f 0 (3 * pixel + offset)).toNat -
        min 255 (weighted alpha (f 0 (3 * pixel + (offset + 1) % 3)) +
          weighted beta (f 0 (3 * pixel + (offset + 2) % 3))) then 255 else 0 := by
  rw [splitMark, toNat_cmhi, toNat_uqsub, toNat_uqadd, toNat_ushl_neg_clz, toNat_ushl_neg_clz]
  rfl

/-- A call of the splitting kernel selects the primary channel. -/
structure SplitCall extends BlockCall .deinterlaceWstb where
  offset : Fin 3
  passed : cpu.x 3 = BitVec.ofNat 64 offset

namespace SplitCall

variable (c : SplitCall)

def alpha : Byte := (c.cpu.x 4).setWidth 8

def beta : Byte := (c.cpu.x 5).setWidth 8

def threshold : Byte := (c.cpu.x 6).setWidth 8

/-- A pixel has three channels. -/
def channel (pixel channel : Nat) : Byte := c.cpu.byteAt 0 (3 * pixel + channel)

/-- The weighted channels of a pixel are subtracted from its primary one. -/
def difference (pixel : Nat) : Nat :=
  (c.channel pixel c.offset).toNat - min 255 (weighted c.alpha (c.channel pixel ((c.offset + 1) % 3)) +
    weighted c.beta (c.channel pixel ((c.offset + 2) % 3)))

theorem streams : Streams .deinterlaceWstb (splitLoop c.offset) c.cpu := split_streams c.passed

theorem regular : Regular .deinterlaceWstb (turnOps (splitLoop c.offset)) := split_regular c.offset

/-- The turns fill the prefix of the destination with marks. -/
theorem finished_mem : (Kernel.deinterlaceWstb.finished (splitLoop c.offset) c.cpu).mem =
    overwritten (c.cpu.x 1) (Kernel.deinterlaceWstb.pixels c.cpu)
      (splitMark c.offset c.alpha c.beta c.threshold (Kernel.deinterlaceWstb.prepared c.cpu).byteAt)
      c.cpu.mem :=
  c.toBlockCall.finished_mem c.streams (splitLoop_pixelwise c.alpha c.beta c.threshold c.offset)
    ⟨rfl, rfl, rfl⟩ (by decide) (Nat.le_of_lt (Kernel.deinterlaceWstb.pixels_lt c.cpu))
    (c.placed_of_regular c.regular (show Kernel.deinterlaceWstb.dests = [(1, 1)] from rfl))

/-- The bytes of the prefix are decided by the differences. -/
theorem toNat_finished {i : Nat} (inside : i < Kernel.deinterlaceWstb.pixels c.cpu) :
    ((Kernel.deinterlaceWstb.finished (splitLoop c.offset) c.cpu).mem
      (c.cpu.x 1 + BitVec.ofNat 64 i)).toNat = if c.threshold.toNat < c.difference i then 255 else 0 := by
  have small := Kernel.deinterlaceWstb.pixels_lt c.cpu
  rw [c.finished_mem, overwritten_add inside (by omega), toNat_splitMark, Kernel.prepared_byteAt (by decide),
    Kernel.prepared_byteAt (by decide), Kernel.prepared_byteAt (by decide)]
  rfl

end SplitCall

/-- The splitting kernel marks the pixels whose difference is above the threshold and changes no other
byte. -/
theorem split_marks (c : SplitCall) :
    ∃ final, Kernel.deinterlaceWstb.Ends c.cpu final ∧
      (∀ i < Kernel.deinterlaceWstb.pixels c.cpu, (final.mem (c.cpu.x 1 + BitVec.ofNat 64 i)).toNat =
        if c.threshold.toNat < c.difference i then 255 else 0) ∧
      ∀ a ∉ imageBytes Kernel.deinterlaceWstb.dests (Kernel.deinterlaceWstb.pixels c.cpu) c.cpu.x,
        final.mem a = c.cpu.mem a := by
  have dests : Kernel.deinterlaceWstb.dests = [(1, 1)] := rfl
  refine ⟨_, (c.ends_iff_finished c.streams _).mpr rfl, fun i inside => c.toNat_finished inside,
    fun a outside => ?_⟩
  rw [imageBytes_single dests, Nat.mul_one] at outside
  rw [c.finished_mem]
  exact overwritten_of_notMem outside

end Split

section Wst

theorem wst_streams (cpu : Cpu) : Streams .wst .wstLoop cpu := .of_falls (by decide) wstLoop_shape rfl cpu

namespace ApartCall

variable (c : ApartCall .wst)

def alpha : Byte := (c.cpu.x 5).setWidth 8

def beta : Byte := (c.cpu.x 6).setWidth 8

def gamma : Byte := (c.cpu.x 7).setWidth 8

/-- The weighted bytes and gamma are subtracted from the primary byte. -/
def weigh (primary second third : Byte) : Nat :=
  primary.toNat - min 255 (min 255 (weighted c.alpha second + weighted c.beta third) + c.gamma.toNat)

/-- The pixel that the prototype promises. -/
def promised (i : Nat) : Nat := c.weigh (c.cpu.byteAt 0 i) (c.cpu.byteAt 1 i) (c.cpu.byteAt 2 i)

/-- The kernel leaves the promised pixels in its destination and keeps its sources. -/
def KeepsPromise : Prop :=
  ∃ final, Kernel.wst.Ends c.cpu final ∧
    (∀ i < Kernel.wst.pixels c.cpu,
      (final.mem (c.cpu.x 3 + BitVec.ofNat 64 i)).toNat = c.promised i) ∧
    ∀ a ∈ imageBytes Kernel.wst.sources (Kernel.wst.count c.cpu) c.cpu.x, final.mem a = c.cpu.mem a

/-- The second pointer makes two blocks in each turn, and the turn stores through it in between. -/
def target (k q : Nat) : Word := c.cpu.x 1 + BitVec.ofNat 64 (k * 32 + 16 + q)

/-- The byte that a turn stores when its loads find the bytes of the call. -/
def turned (k q : Nat) : Nat :=
  c.weigh (c.cpu.byteAt 0 (k * 16 + q)) (c.cpu.byteAt 1 (k * 32 + q)) (c.cpu.byteAt 2 (k * 16 + q))

/-- The sources hold what the first turns store in them. -/
def Harmless (n : Nat) : Prop :=
  ∀ k < n, ∀ q < 16, c.target k q ∈ imageBytes Kernel.wst.sources (Kernel.wst.count c.cpu) c.cpu.x →
    (c.cpu.mem (c.target k q)).toNat = c.turned k q

/-- Each pixel of the destination is stored as promised, or it is not stored and holds the promise. -/
def Fulfilled : Prop :=
  ∀ i < Kernel.wst.pixels c.cpu,
    (∃ k < Kernel.wst.blocks c.cpu, ∃ q < 16,
      c.cpu.x 3 + BitVec.ofNat 64 i = c.target k q ∧ c.turned k q = c.promised i) ∨
    (∀ k < Kernel.wst.blocks c.cpu, ∀ q < 16, c.cpu.x 3 + BitVec.ofNat 64 i ≠ c.target k q) ∧
      (c.cpu.byteAt 3 i).toNat = c.promised i

/-- The bytes of a turn are computed from the blocks that it loads. -/
def computed (f : Reads) (q : Nat) : Byte := weighSubtract c.alpha c.beta c.gamma (f 0 q) (f 1 q) (f 2 q)

theorem toNat_weighSubtract (primary second third : Byte) :
    (weighSubtract c.alpha c.beta c.gamma primary second third).toNat = c.weigh primary second third := by
  rw [weighSubtract, toNat_uqsub, toNat_uqadd, toNat_uqadd, toNat_ushl_neg_clz, toNat_ushl_neg_clz]
  rfl

/-- The memory after a number of turns whose loads find the bytes of the call. -/
def written (n : Nat) : Word → Byte :=
  filled (turnOps .wstLoop) 1 16 16 c.computed (Kernel.wst.prepared c.cpu) n

theorem blocks_le : Kernel.wst.blocks c.cpu * 32 ≤ 2 ^ 64 := by
  have apart : Disjoint (span (c.cpu.x 1) (Kernel.wst.count c.cpu * 1))
      (span (c.cpu.x 3) (Kernel.wst.count c.cpu * 1)) := by
    refine Set.disjoint_of_subset ?_ ?_ c.apart
    · exact fun a inside => ⟨(1, 1), by decide, inside⟩
    · exact fun a inside => ⟨(3, 1), by decide, inside⟩
  have enough := c.enough
  have both := add_le_of_disjoint apart (by omega) (by omega)
  have shorter := Kernel.wst.pixels_le c.cpu
  unfold Kernel.pixels at shorter
  omega

theorem written_target {n k q : Nat} (few : n ≤ Kernel.wst.blocks c.cpu) (inside : k < n) (below : q < 16) :
    (c.written n (c.target k q)).toNat = c.turned k q := by
  have bound := c.blocks_le
  have fits : n * advance 1 (turnOps .wstLoop) ≤ 2 ^ 64 := by
    change n * 32 ≤ _
    omega
  have found : c.written n (c.target k q) =
      c.computed ((Kernel.wst.prepared c.cpu).ahead (turnOps .wstLoop) k) q :=
    filled_block (by decide) fits inside below
  rw [found, computed, c.toNat_weighSubtract, Cpu.ahead, Cpu.ahead, Cpu.ahead, Kernel.prepared_byteAt (by decide),
    Kernel.prepared_byteAt (by decide), Kernel.prepared_byteAt (by decide)]
  rfl

/-- The block of a turn has only the targets of the turn. -/
theorem notMem_block {k : Nat} {a : Word} (outside : ∀ q < 16, a ≠ c.target k q) :
    a ∉ span (c.cpu.x 1 + BitVec.ofNat 64 (k * 32 + 16)) 16 := by
  intro given
  obtain ⟨q, below, rfl⟩ := exists_of_mem_span given
  apply outside q below
  rw [target, BitVec.ofNat_add (k * 32 + 16), ← BitVec.add_assoc]

theorem written_other {n : Nat} {a : Word} (outside : ∀ k < n, ∀ q < 16, a ≠ c.target k q) :
    c.written n a = c.cpu.mem a := by
  apply filled_of_notMem
  intro k inside
  exact c.notMem_block (outside k inside)

/-- Harmless turns keep the sources. -/
theorem written_source {n : Nat} (few : n ≤ Kernel.wst.blocks c.cpu) (harmless : c.Harmless n) {a : Word}
    (source : a ∈ imageBytes Kernel.wst.sources (Kernel.wst.count c.cpu) c.cpu.x) :
    c.written n a = c.cpu.mem a := by
  by_cases stored : ∃ k < n, ∃ q < 16, a = c.target k q
  · obtain ⟨k, inside, q, below, rfl⟩ := stored
    apply BitVec.eq_of_toNat_eq
    rw [c.written_target few inside below]
    exact (harmless k inside q below source).symm
  · apply c.written_other
    intro k inside q below same
    exact stored ⟨k, inside, q, below, same⟩

/-- The even blocks of the second pointer are never stored. -/
theorem written_even {n k j : Nat} (few : n ≤ Kernel.wst.blocks c.cpu) (inside : k < Kernel.wst.blocks c.cpu)
    (below : j < 16) : c.written n (c.cpu.x 1 + BitVec.ofNat 64 (k * 32 + j)) =
      c.cpu.mem (c.cpu.x 1 + BitVec.ofNat 64 (k * 32 + j)) := by
  have bound := c.blocks_le
  have last := Nat.succ_le_of_lt inside
  apply c.written_other
  intro i earlier q under same
  have turn := Nat.lt_of_lt_of_le earlier few
  have distance := congrArg BitVec.toNat (add_left_cancel same)
  rw [BitVec.toNat_ofNat, BitVec.toNat_ofNat, Nat.mod_eq_of_lt (by omega),
    Nat.mod_eq_of_lt (by omega)] at distance
  omega

/-- Harmless turns leave the bytes that the next turn loads. -/
theorem undisturbed {n : Nat} (inside : n < Kernel.wst.blocks c.cpu) (harmless : c.Harmless n) :
    Undisturbed (turnOps .wstLoop) 1 16 16 c.computed (Kernel.wst.prepared c.cpu) n := by
  have loads : ∀ t ∈ touches (turnOps .wstLoop), t.direction = .load →
      t = ⟨.load, 0, 0, 16⟩ ∨ t = ⟨.load, 1, 0, 16⟩ ∨ t = ⟨.load, 2, 0, 16⟩ := by decide
  have shorter := Kernel.wst.pixels_le c.cpu
  have plane (r : Fin 31) (source : (r, 1) ∈ Kernel.wst.sources) {j : Nat} (below : j < 16) :
      c.cpu.x r + BitVec.ofNat 64 (n * 16 + j) ∈
        imageBytes Kernel.wst.sources (Kernel.wst.count c.cpu) c.cpu.x := by
    refine ⟨(r, 1), source, add_mem_of_lt _ ?_⟩
    unfold Kernel.pixels at shorter
    omega
  intro t member toward j below
  rcases loads t member toward with rfl | rfl | rfl
  · change c.written n (c.cpu.x 0 + BitVec.ofNat 64 (n * 16 + (0 + j))) = _
    rw [Nat.zero_add, c.written_source (Nat.le_of_lt inside) harmless (plane 0 (by decide) below)]
    rfl
  · change c.written n (c.cpu.x 1 + BitVec.ofNat 64 (n * 32 + (0 + j))) = _
    rw [Nat.zero_add, c.written_even (Nat.le_of_lt inside) inside below]
    rfl
  · change c.written n (c.cpu.x 2 + BitVec.ofNat 64 (n * 16 + (0 + j))) = _
    rw [Nat.zero_add, c.written_source (Nat.le_of_lt inside) harmless (plane 2 (by decide) below)]
    rfl

theorem Harmless.mono {c : ApartCall .wst} {few many : Nat} (harmless : c.Harmless many)
    (fewer : few ≤ many) : c.Harmless few :=
  fun k inside => harmless k (Nat.lt_of_lt_of_le inside fewer)

theorem wst_ends (final : Cpu) :
    Kernel.wst.Ends c.cpu final ↔ final = Kernel.wst.finished .wstLoop c.cpu :=
  c.toBlockCall.ends_iff_finished (wst_streams c.cpu) final

/-- The state after a number of turns. -/
def afterTurns (n : Nat) : Cpu :=
  (execAll isa (turnOps .wstLoop ++ [.subs 4 4 1]))^[n] (Kernel.wst.prepared c.cpu)

/-- Harmless turns leave the written memory. -/
theorem afterTurns_mem {n : Nat} (few : n ≤ Kernel.wst.blocks c.cpu) (harmless : ∀ k < n, c.Harmless k) :
    (c.afterTurns n).mem = c.written n :=
  (wstLoop_block c.alpha c.beta c.gamma).mem_iterate wstLoop_shape.turn (by decide) ⟨rfl, rfl, rfl⟩
    fun k inside => c.undisturbed (by omega) (harmless k inside)

/-- Later turns keep the block of a turn. -/
theorem finished_target {k q : Nat} (inside : k < Kernel.wst.blocks c.cpu) (below : q < 16) :
    (Kernel.wst.finished .wstLoop c.cpu).mem (c.target k q) = (c.afterTurns (k + 1)).mem (c.target k q) := by
  have bound := c.blocks_le
  refine (wstLoop_block c.alpha c.beta c.gamma).iterate_frame wstLoop_shape.turn (by decide) ⟨rfl, rfl, rfl⟩
    (Nat.succ_le_of_lt inside) fun i last later => ?_
  change c.cpu.x 1 + BitVec.ofNat 64 (k * 32 + 16 + q) ∉ span (c.cpu.x 1 + BitVec.ofNat 64 (i * 32 + 16)) 16
  exact add_notMem_of_before _ (by omega) (by omega)

/-- The turns keep the bytes outside their blocks. -/
theorem finished_other {a : Word} (outside : ∀ k < Kernel.wst.blocks c.cpu, ∀ q < 16, a ≠ c.target k q) :
    (Kernel.wst.finished .wstLoop c.cpu).mem a = c.cpu.mem a := by
  refine (wstLoop_block c.alpha c.beta c.gamma).iterate_frame wstLoop_shape.turn (by decide) ⟨rfl, rfl, rfl⟩
    (Nat.zero_le _) fun k inside _ => ?_
  exact c.notMem_block (outside k inside)

/-- A kernel that keeps its sources stores only bytes in them that they hold. -/
theorem harmless_of_kept (kept : ∀ a ∈ imageBytes Kernel.wst.sources (Kernel.wst.count c.cpu) c.cpu.x,
    (Kernel.wst.finished .wstLoop c.cpu).mem a = c.cpu.mem a) {n : Nat}
    (few : n ≤ Kernel.wst.blocks c.cpu) : c.Harmless n := by
  induction n with
  | zero => exact fun k inside => absurd inside (Nat.not_lt_zero k)
  | succ n ih =>
      have earlier := ih (by omega)
      intro k inside q below source
      rcases Nat.lt_succ_iff_lt_or_eq.mp inside with before | rfl
      · exact earlier k before q below source
      · have left := c.afterTurns_mem few fun j within => earlier.mono (Nat.le_of_lt_succ within)
        rw [← kept _ source, c.finished_target few below, left]
        exact c.written_target few inside below

/-- A call keeps the promise if and only if its turns store nothing new in the sources and fulfil each
pixel of the destination. -/
theorem keepsPromise_iff : c.KeepsPromise ↔ c.Harmless (Kernel.wst.blocks c.cpu) ∧ c.Fulfilled := by
  have left (harmless : c.Harmless (Kernel.wst.blocks c.cpu)) :
      (Kernel.wst.finished .wstLoop c.cpu).mem = c.written (Kernel.wst.blocks c.cpu) :=
    c.afterTurns_mem le_rfl fun k inside => harmless.mono (Nat.le_of_lt inside)
  constructor
  · intro given
    obtain ⟨final, taken, pixels, kept⟩ := given
    obtain rfl := (c.wst_ends final).mp taken
    have harmless := c.harmless_of_kept kept le_rfl
    refine ⟨harmless, fun i inside => ?_⟩
    have pixel := pixels i inside
    rw [left harmless] at pixel
    by_cases stored : ∃ k < Kernel.wst.blocks c.cpu, ∃ q < 16, c.cpu.x 3 + BitVec.ofNat 64 i = c.target k q
    · obtain ⟨k, turn, q, below, same⟩ := stored
      rw [same, c.written_target le_rfl turn below] at pixel
      exact Or.inl ⟨k, turn, q, below, same, pixel⟩
    · have outside : ∀ k < Kernel.wst.blocks c.cpu, ∀ q < 16,
          c.cpu.x 3 + BitVec.ofNat 64 i ≠ c.target k q :=
        fun k turn q below same => stored ⟨k, turn, q, below, same⟩
      rw [c.written_other outside] at pixel
      exact Or.inr ⟨outside, pixel⟩
  · intro given
    obtain ⟨harmless, fulfilled⟩ := given
    refine ⟨_, (c.wst_ends _).mpr rfl, fun i inside => ?_, fun a source => ?_⟩
    · rw [left harmless]
      rcases fulfilled i inside with ⟨k, turn, q, below, same, value⟩ | ⟨outside, value⟩
      · rw [same, c.written_target le_rfl turn below, value]
      · rw [c.written_other outside]
        exact value
    · rw [left harmless]
      exact c.written_source le_rfl harmless source

end ApartCall

/-- Blocks of ones are weighted by one. -/
def wstOfOnes : ApartCall .wst where
  cpu := farPlanes .wst 16 1 fun _ => 1
  enough := by decide
  apart := Kernel.apart_of_far (by decide)

/-- The destination keeps its ones. -/
theorem wstOfOnes_not_keepsPromise : ¬ wstOfOnes.KeepsPromise := by
  intro given
  obtain ⟨final, taken, pixels, _⟩ := given
  obtain rfl := (wstOfOnes.wst_ends final).mp taken
  have pixel := pixels 0 (by decide)
  have outside : ∀ k < 1, ∀ q < 16, wstOfOnes.cpu.x 3 + BitVec.ofNat 64 0 ≠ wstOfOnes.target k q := by
    decide
  rw [wstOfOnes.finished_other outside] at pixel
  exact absurd pixel (by decide)

end Wst

end VisionServer.Neon
