/-
This file gives the images of the kernels that go on in the loop of another kernel.
-/

import VisionServer.Neon.Blocks
import VisionServer.Neon.Handover

namespace VisionServer.Neon
open Library Library.Aarch64 Library.Assembly

/-- The state after the own block of a kernel. -/
def Kernel.firstBlock (k : Kernel) (own : Label) (cpu : Cpu) : Cpu :=
  execAll isa (turnOps own ++ [.subs k.counter k.counter 1]) (k.prepared cpu)

/-- The state after the own block of a kernel and the further blocks of another one. -/
def Kernel.continued (k : Kernel) (own other : Label) (cpu : Cpu) : Cpu :=
  (execAll isa (turnOps other ++ [.subs k.counter k.counter 1]))^[k.blocks cpu - 1] (k.firstBlock own cpu)

/-- A kernel continues when it falls into a loop that goes on in the loop of another kernel. -/
structure Continues (k : Kernel) (own other : Label) : Prop where
  blockwise : k ≠ .deinterlaceTogray
  falls : afterBlock (codeAt k.entry neon64) = .label own :: codeAt own neon64
  turn : Turn k.counter 1 (turnOps own)
  body : block (codeAt own neon64) = turnOps own ++ [.subs k.counter k.counter 1]
  goes : ∃ rest, afterBlock (codeAt own neon64) = .branch .ne other :: .ret :: rest
  shape : Loop k.counter other

namespace BlockCall

variable {k : Kernel} (c : BlockCall k) {own other : Label}

theorem ends_iff_continued (continues : Continues k own other) (final : Cpu) :
    k.Ends c.cpu final ↔ final = k.continued own other c.cpu := by
  obtain ⟨rest, goes⟩ := continues.goes
  have looped := returns_shared continues.turn continues.body goes continues.shape (k.prepared c.cpu) final
  rw [Kernel.turns_prepared continues.blockwise c.enough] at looped
  unfold Kernel.Ends
  rw [returns_block, continues.falls, returns_label]
  exact looped

theorem firstBlock_walked (continues : Continues k own other) :
    Walked (turnOps own) k.counter 1 1 (k.prepared c.cpu) (k.firstBlock own c.cpu) :=
  (Walked.zero ..).turn continues.turn

/-- The own block moves each pointer by its stride. -/
theorem firstBlock_x (continues : Continues k own other) {r : Fin 31} (apart : r ≠ k.counter) :
    (k.firstBlock own c.cpu).x r = c.cpu.x r + BitVec.ofNat 64 (advance r (turnOps own)) := by
  rw [(c.firstBlock_walked continues).pointers r apart, Kernel.prepared_x apart, Nat.one_mul]

/-- The further blocks stay within the image. -/
theorem firstBlock_span (continues : Continues k own other) {r : Fin 31} (apart : r ≠ k.counter)
    {length whole : Nat} (within : advance r (turnOps own) + length ≤ whole) :
    span ((k.firstBlock own c.cpu).x r) length ⊆ span (c.cpu.x r) whole := by
  rw [c.firstBlock_x continues apart]
  exact (span_add_subset _ _ _).trans (span_mono within)

/-- The own block is computed from the memory of the call. -/
theorem firstBlock_mem {keeps : (Fin 32 → Lanes) → Prop} {d : Fin 31} {bytes : Nat}
    {value : Reads → Nat → Byte} (stores : Stores (turnOps own) keeps d 0 bytes value)
    (apart : d ≠ k.counter) (kept : keeps (k.prepared c.cpu).v) :
    (k.firstBlock own c.cpu).mem =
      overwritten (c.cpu.x d) bytes (value (k.prepared c.cpu).byteAt) c.cpu.mem := by
  have walked := Walked.zero (turnOps own) k.counter 1 (k.prepared c.cpu)
  have left := stores.mem_turn apart walked kept
  rw [Nat.zero_mul, Nat.add_zero, BitVec.add_zero, Kernel.prepared_mem, Kernel.prepared_x apart] at left
  exact left

/-- The own block keeps the sources behind it. -/
theorem firstBlock_byteAt (continues : Continues k own other) {keeps : (Fin 32 → Lanes) → Prop} {d : Fin 31}
    {channels : Nat} {value : Reads → Nat → Byte}
    (stores : Stores (turnOps own) keeps d 0 (16 * channels) value) (apart : d ≠ k.counter)
    (kept : keeps (k.prepared c.cpu).v) (dests : k.dests = [(d, channels)]) {source : Fin 31 × Nat}
    (member : source ∈ k.sources) (pointer : source.1 ≠ k.counter) {j : Nat}
    (inside : advance source.1 (turnOps own) + j < k.pixels c.cpu * source.2)
    (small : k.pixels c.cpu * source.2 ≤ 2 ^ 64)
    (behind : source.2 = channels → 16 * channels ≤ advance source.1 (turnOps own)) :
    (k.firstBlock own c.cpu).byteAt source.1 j =
      c.cpu.byteAt source.1 (advance source.1 (turnOps own) + j) := by
  have first : 16 * channels ≤ k.pixels c.cpu * channels := by
    have one := Nat.mul_le_mul_right 16 c.blocks_pos
    exact Nat.mul_le_mul_right _ one
  rw [Cpu.byteAt, c.firstBlock_x continues pointer, BitVec.add_assoc, ← BitVec.ofNat_add,
    c.firstBlock_mem stores apart kept, Cpu.byteAt]
  apply overwritten_of_notMem
  intro given
  rcases c.placed source member (d, channels) (by rw [dests]; exact List.mem_cons_self) with
    disjoint | ⟨here, same⟩
  · exact Set.disjoint_left.mp disjoint (add_mem_of_lt _ inside) (span_mono first given)
  · have after := behind same
    rw [show c.cpu.x source.1 = c.cpu.x d from here, add_mem_span _ (by omega)] at given
    omega

end BlockCall

section BitwiseOr3c

theorem bitwiseOr3c_continues : Continues .bitwiseOr3c .bitwiseOr3cLoop .bitwiseOrLoop :=
  ⟨by decide, rfl, ⟨by decide, by decide, by decide⟩, rfl, ⟨_, rfl⟩, bitwiseOrLoop_shape⟩

namespace BlockCall

variable (c : BlockCall .bitwiseOr3c)

theorem bitwiseOr3c_fits : Kernel.bitwiseOr3c.pixels c.cpu * 1 + Kernel.bitwiseOr3c.pixels c.cpu * 3 ≤ 2 ^ 64 := by
  have positive : 0 < Kernel.bitwiseOr3c.pixels c.cpu := Nat.mul_pos c.blocks_pos (by decide)
  rcases c.placed (1, 1) (by decide) (2, 3) (by decide) with disjoint | ⟨_, stride⟩
  · exact add_le_of_disjoint disjoint (by omega) (by omega)
  · cases stride

/-- The further blocks are placed as the images are. -/
theorem bitwiseOr3c_placed : Placed (turnOps .bitwiseOrLoop) 2 16 (Kernel.bitwiseOr3c.blocks c.cpu - 1)
    (Kernel.bitwiseOr3c.firstBlock .bitwiseOr3cLoop c.cpu).x := by
  have loads : ∀ t ∈ touches (turnOps .bitwiseOrLoop), t.direction = .load →
      t = ⟨.load, 0, 0, 16⟩ ∨ t = ⟨.load, 1, 0, 16⟩ := by decide
  have positive := c.blocks_pos
  have whole : Kernel.bitwiseOr3c.pixels c.cpu = Kernel.bitwiseOr3c.blocks c.cpu * 16 := rfl
  have dest := c.firstBlock_span bitwiseOr3c_continues (show (2 : Fin 31) ≠ 3 by decide)
    (show 48 + (Kernel.bitwiseOr3c.blocks c.cpu - 1) * 16 ≤ Kernel.bitwiseOr3c.pixels c.cpu * 3 by omega)
  intro t member toward
  rcases loads t member toward with rfl | rfl
  · rcases c.placed (0, 3) (by decide) (2, 3) (by decide) with disjoint | ⟨here, _⟩
    · have colour := c.firstBlock_span bitwiseOr3c_continues (show (0 : Fin 31) ≠ 3 by decide)
        (show 48 + (Kernel.bitwiseOr3c.blocks c.cpu - 1) * 16 ≤ Kernel.bitwiseOr3c.pixels c.cpu * 3 by omega)
      exact Or.inl (Set.disjoint_of_subset colour dest disjoint)
    · refine Or.inr ⟨?_, rfl⟩
      rw [c.firstBlock_x bitwiseOr3c_continues (by decide), c.firstBlock_x bitwiseOr3c_continues (by decide)]
      exact congrArg (· + BitVec.ofNat 64 48) here
  · rcases c.placed (1, 1) (by decide) (2, 3) (by decide) with disjoint | ⟨_, stride⟩
    · have mono := c.firstBlock_span bitwiseOr3c_continues (show (1 : Fin 31) ≠ 3 by decide)
        (show 16 + (Kernel.bitwiseOr3c.blocks c.cpu - 1) * 16 ≤ Kernel.bitwiseOr3c.pixels c.cpu * 1 by omega)
      exact Or.inl (Set.disjoint_of_subset mono dest disjoint)
    · cases stride

/-- The first block combines whole pixels, and each further block combines sixteen bytes. -/
theorem bitwiseOr3c_mem : (Kernel.bitwiseOr3c.continued .bitwiseOr3cLoop .bitwiseOrLoop c.cpu).mem =
    overwritten (c.cpu.x 2 + BitVec.ofNat 64 48) ((Kernel.bitwiseOr3c.blocks c.cpu - 1) * 16)
      (fun q => c.cpu.byteAt 0 (48 + q) ||| c.cpu.byteAt 1 (16 + q))
      (overwritten (c.cpu.x 2) 48 (fun q => c.cpu.byteAt 0 q ||| c.cpu.byteAt 1 (q / 3)) c.cpu.mem) := by
  have bound := c.bitwiseOr3c_fits
  have positive := c.blocks_pos
  have whole : Kernel.bitwiseOr3c.pixels c.cpu = Kernel.bitwiseOr3c.blocks c.cpu * 16 := rfl
  have own : Stores (turnOps .bitwiseOr3cLoop) (fun _ => True) 2 0 (16 * 3) (zipChannels (· ||| ·)) :=
    bitwiseOr3cLoop_pixelwise.toStores
  have dests : Kernel.bitwiseOr3c.dests = [(2, 3)] := rfl
  have left := bitwiseOrLoop_pixelwise.mem_iterate bitwiseOrLoop_shape.turn (by decide) trivial
    (by omega) (c.bitwiseOr3c_placed.unread (by omega))
  refine left.trans ?_
  rw [c.firstBlock_x bitwiseOr3c_continues (by decide),
    c.firstBlock_mem own (by decide) trivial]
  refine (overwritten_congr fun q inside => ?_).trans
    (congrArg (overwritten _ _ _) (overwritten_congr fun q inside => ?_))
  · have colour := c.firstBlock_byteAt bitwiseOr3c_continues own (by decide) trivial dests
      (show (0, 3) ∈ Kernel.bitwiseOr3c.sources by decide) (by decide) (j := q)
      (by change 48 + q < _; simp only; omega) (by simp only; omega) (fun _ => le_rfl)
    have mono := c.firstBlock_byteAt bitwiseOr3c_continues own (by decide) trivial dests
      (show (1, 1) ∈ Kernel.bitwiseOr3c.sources by decide) (by decide) (j := q)
      (by change 16 + q < _; simp only; omega) (by simp only; omega) (fun same => by cases same)
    rw [zipBytes, colour, mono]
    rfl
  · rw [zipChannels, Kernel.prepared_byteAt (by decide), Kernel.prepared_byteAt (by decide)]

end BlockCall

end BitwiseOr3c

section Add3c2

theorem add3c2_continues : Continues .add3c2 .add3c2Loop .add3cLoop :=
  ⟨by decide, rfl, ⟨by decide, by decide, by decide⟩, rfl, ⟨_, rfl⟩, add3cLoop_shape⟩

namespace BlockCall

variable (c : BlockCall .add3c2)

/-- The sum of the two bytes at one distance. -/
def sumAt (j : Nat) : Byte := uqadd (c.cpu.byteAt 0 j) (c.cpu.byteAt 1 j)

/-- The second byte that the further blocks find for a byte of the destination. A destination at the second
source holds sums from its second block on. -/
def seenAt (j : Nat) : Byte :=
  if c.cpu.x 1 = c.cpu.x 2 ∧ 96 ≤ j then c.sumAt (32 + j / 3) else c.cpu.byteAt 1 (32 + j / 3)

/-- The bytes that a further block finds when the blocks before it hold their sums. -/
def expected (k : Nat) : Reads :=
  (Kernel.add3c2.firstBlock .add3c2Loop c.cpu).expecting (turnOps .add3cLoop) 2 48
    (fun q => c.sumAt (48 + q)) k

/-- Both sources are found behind the first block. -/
theorem expected_eq {r : Fin 31} (member : (r, 3) ∈ Kernel.add3c2.sources) (k j : Nat) :
    c.expected k r j = overwritten (c.cpu.x 2 + BitVec.ofNat 64 48) (k * 48) (fun q => c.sumAt (48 + q))
      (Kernel.add3c2.firstBlock .add3c2Loop c.cpu).mem
      (c.cpu.x r + BitVec.ofNat 64 (48 + (k * advance r (turnOps .add3cLoop) + j))) := by
  have strides : ∀ source ∈ Kernel.add3c2.sources,
      advance source.1 (turnOps .add3c2Loop) = 48 ∧ source.1 ≠ Kernel.add3c2.counter := by decide
  obtain ⟨stride, pointer⟩ := strides _ member
  rw [expected, Cpu.expecting, c.firstBlock_x add3c2_continues (by decide),
    c.firstBlock_x add3c2_continues pointer, stride, BitVec.ofNat_add 48, ← BitVec.add_assoc]
  rfl

/-- The first block keeps the bytes of both sources behind it. -/
theorem add3c2_firstBlock {r : Fin 31} (member : (r, 3) ∈ Kernel.add3c2.sources)
    (fits : Kernel.add3c2.pixels c.cpu * 3 ≤ 2 ^ 64) {j : Nat}
    (inside : 48 + j < Kernel.add3c2.pixels c.cpu * 3) :
    (Kernel.add3c2.firstBlock .add3c2Loop c.cpu).mem (c.cpu.x r + BitVec.ofNat 64 (48 + j)) =
      c.cpu.byteAt r (48 + j) := by
  have own : Stores (turnOps .add3c2Loop) (fun _ => True) 2 0 (16 * 3) (zipBytes uqadd) :=
    add3c2Loop_pixelwise.toStores
  have dests : Kernel.add3c2.dests = [(2, 3)] := rfl
  have strides : ∀ source ∈ Kernel.add3c2.sources,
      advance source.1 (turnOps .add3c2Loop) = 48 ∧ source.1 ≠ Kernel.add3c2.counter := by decide
  obtain ⟨stride, pointer⟩ := strides _ member
  have kept := c.firstBlock_byteAt add3c2_continues own (by decide) trivial dests member pointer (j := j)
    (by rw [stride]; exact inside) fits (fun _ => by rw [stride])
  rw [stride, Cpu.byteAt, c.firstBlock_x add3c2_continues pointer, stride, BitVec.add_assoc,
    ← BitVec.ofNat_add] at kept
  exact kept

/-- A source that is apart from the destination is found as it was. -/
theorem expected_of_disjoint {r : Fin 31} (member : (r, 3) ∈ Kernel.add3c2.sources)
    (fits : Kernel.add3c2.pixels c.cpu * 3 ≤ 2 ^ 64)
    (disjoint : Disjoint (span (c.cpu.x r) (Kernel.add3c2.pixels c.cpu * 3))
      (span (c.cpu.x 2) (Kernel.add3c2.pixels c.cpu * 3))) {k j : Nat}
    (last : 48 + k * 48 ≤ Kernel.add3c2.pixels c.cpu * 3)
    (inside : 48 + (k * advance r (turnOps .add3cLoop) + j) < Kernel.add3c2.pixels c.cpu * 3) :
    c.expected k r j = c.cpu.byteAt r (48 + (k * advance r (turnOps .add3cLoop) + j)) := by
  rw [c.expected_eq member, overwritten_of_notMem, c.add3c2_firstBlock member fits inside]
  intro given
  exact Set.disjoint_left.mp disjoint (add_mem_of_lt _ inside)
    (span_mono last (span_add_subset _ _ _ given))

/-- The first operand keeps its stride, so its bytes are not stored before they are loaded. -/
theorem expected_first (fits : Kernel.add3c2.pixels c.cpu * 3 ≤ 2 ^ 64) {k q : Nat}
    (inside : 48 + (k * 48 + q) < Kernel.add3c2.pixels c.cpu * 3) :
    c.expected k 0 q = c.cpu.byteAt 0 (48 + (k * 48 + q)) := by
  rcases c.placed (0, 3) (by decide) (2, 3) (by decide) with disjoint | ⟨here, _⟩
  · exact c.expected_of_disjoint (by decide) fits disjoint (by omega) inside
  · rw [c.expected_eq (by decide), overwritten_of_notMem]
    · exact c.add3c2_firstBlock (by decide) fits inside
    · rw [show c.cpu.x 0 = c.cpu.x 2 from here]
      exact add_notMem_of_behind _ (Nat.add_le_add_left (Nat.le_add_right _ _) _) (by
        change 48 + (k * 48 + q) < _
        omega)

/-- The second operand is loaded with the stride of one channel, behind the sums that are stored. -/
theorem expected_second (fits : Kernel.add3c2.pixels c.cpu * 3 ≤ 2 ^ 64) {k q : Nat} (below : q < 48)
    (inside : 48 + (k * 48 + q) < Kernel.add3c2.pixels c.cpu * 3) :
    c.expected k 1 (q / 3) = c.seenAt (48 + (k * 48 + q)) := by
  have place : 32 + (48 + (k * 48 + q)) / 3 = 48 + (k * 16 + q / 3) := by omega
  have within : 48 + (k * 16 + q / 3) < Kernel.add3c2.pixels c.cpu * 3 := by omega
  rw [seenAt, place]
  by_cases same : c.cpu.x 1 = c.cpu.x 2
  · rw [c.expected_eq (by decide), show advance 1 (turnOps .add3cLoop) = 16 from rfl]
    by_cases first : k = 0
    · subst first
      rw [if_neg (by omega), Nat.zero_mul, overwritten_zero, c.add3c2_firstBlock (by decide) fits within]
    · rw [if_pos ⟨same, by omega⟩, same, BitVec.ofNat_add 48, ← BitVec.add_assoc,
        overwritten_add (by omega) (by omega)]
  · rw [if_neg fun given => same given.1]
    rcases c.placed (1, 3) (by decide) (2, 3) (by decide) with disjoint | ⟨here, _⟩
    · exact c.expected_of_disjoint (by decide) fits disjoint (by omega) within
    · exact absurd here same

theorem add3c2_dest (q : Nat) : (Kernel.add3c2.firstBlock .add3c2Loop c.cpu).x 2 + BitVec.ofNat 64 q =
    c.cpu.x 2 + BitVec.ofNat 64 (48 + q) := by
  rw [c.firstBlock_x add3c2_continues (by decide), BitVec.ofNat_add 48, ← BitVec.add_assoc]
  rfl

/-- The own block holds sums, and the further blocks keep them. -/
theorem add3c2_early (fits : Kernel.add3c2.pixels c.cpu * 3 ≤ 2 ^ 64) {j : Nat} (early : j < 48) :
    (Kernel.add3c2.continued .add3c2Loop .add3cLoop c.cpu).mem (c.cpu.x 2 + BitVec.ofNat 64 j) =
      c.sumAt j := by
  have whole : Kernel.add3c2.pixels c.cpu = Kernel.add3c2.blocks c.cpu * 16 := rfl
  have own : Stores (turnOps .add3c2Loop) (fun _ => True) 2 0 (16 * 3) (zipBytes uqadd) :=
    add3c2Loop_pixelwise.toStores
  have further : Stores (turnOps .add3cLoop) (fun _ => True) 2 0 48 (zipChannels uqadd) :=
    add3cLoop_pixelwise.toStores
  have outside : ∀ k < Kernel.add3c2.blocks c.cpu - 1, 0 ≤ k → c.cpu.x 2 + BitVec.ofNat 64 j ∉
      span ((Kernel.add3c2.firstBlock .add3c2Loop c.cpu).x 2 + BitVec.ofNat 64 (k * 48 + 0)) 48 := by
    intro k inside _
    rw [c.add3c2_dest]
    exact add_notMem_of_before _ (by omega) (by omega)
  refine (further.iterate_frame add3cLoop_shape.turn (by decide) trivial (Nat.zero_le _) outside).trans ?_
  rw [Function.iterate_zero, id, c.firstBlock_mem own (by decide) trivial, overwritten_add early (by omega),
    zipBytes, Kernel.prepared_byteAt (by decide), Kernel.prepared_byteAt (by decide), sumAt]

/-- A further block leaves sums if and only if the bytes that it finds give them. -/
theorem add3c2_further_iff (fits : Kernel.add3c2.pixels c.cpu * 3 ≤ 2 ^ 64) :
    (∀ q < (Kernel.add3c2.blocks c.cpu - 1) * 48,
      (Kernel.add3c2.continued .add3c2Loop .add3cLoop c.cpu).mem (c.cpu.x 2 + BitVec.ofNat 64 (48 + q)) =
        c.sumAt (48 + q)) ↔
    ∀ k < Kernel.add3c2.blocks c.cpu - 1, ∀ q < 48,
      uqadd (c.cpu.byteAt 0 (48 + (k * 48 + q))) (c.seenAt (48 + (k * 48 + q))) =
        c.sumAt (48 + (k * 48 + q)) := by
  have whole : Kernel.add3c2.pixels c.cpu = Kernel.add3c2.blocks c.cpu * 16 := rfl
  have further : Stores (turnOps .add3cLoop) (fun _ => True) 2 0 48 (zipChannels uqadd) :=
    add3cLoop_pixelwise.toStores
  have small : (Kernel.add3c2.blocks c.cpu - 1) * 48 ≤ 2 ^ 64 := by omega
  have wanted : (∀ q < (Kernel.add3c2.blocks c.cpu - 1) * 48,
      (Kernel.add3c2.continued .add3c2Loop .add3cLoop c.cpu).mem
        ((Kernel.add3c2.firstBlock .add3c2Loop c.cpu).x 2 + BitVec.ofNat 64 q) = c.sumAt (48 + q)) ↔
      ∀ k < Kernel.add3c2.blocks c.cpu - 1, ∀ q < 48,
        zipChannels uqadd (c.expected k) q = c.sumAt (48 + (k * 48 + q)) :=
    further.wanted_iff add3cLoop_shape.turn (by decide) trivial rfl small
  simp only [c.add3c2_dest] at wanted
  rw [wanted]
  refine forall₄_congr fun k block q below => ?_
  rw [zipChannels, c.expected_first fits (by omega), c.expected_second fits below (by omega)]

/-- The kernel leaves the sums if and only if the bytes that its further blocks find give them. -/
theorem add3c2_sums_iff (fits : Kernel.add3c2.pixels c.cpu * 3 ≤ 2 ^ 64) :
    (∀ j < Kernel.add3c2.pixels c.cpu * 3,
      (Kernel.add3c2.continued .add3c2Loop .add3cLoop c.cpu).mem (c.cpu.x 2 + BitVec.ofNat 64 j) =
        c.sumAt j) ↔
    ∀ j < Kernel.add3c2.pixels c.cpu * 3, 48 ≤ j → uqadd (c.cpu.byteAt 0 j) (c.seenAt j) = c.sumAt j := by
  have positive := c.blocks_pos
  have whole : Kernel.add3c2.pixels c.cpu = Kernel.add3c2.blocks c.cpu * 16 := rfl
  constructor
  · intro given j inside behind
    have computes := (c.add3c2_further_iff fits).mp fun q below => given (48 + q) (by omega)
    have byte := computes ((j - 48) / 48) (by omega) ((j - 48) % 48) (Nat.mod_lt _ (by decide))
    have place : 48 + ((j - 48) / 48 * 48 + (j - 48) % 48) = j := by omega
    rw [place] at byte
    exact byte
  · intro computes j inside
    by_cases early : j < 48
    · exact c.add3c2_early fits early
    · have further := (c.add3c2_further_iff fits).mpr fun k block q below =>
        computes _ (by omega) (by omega)
      have byte := further (j - 48) (by omega)
      rw [show 48 + (j - 48) = j by omega] at byte
      exact byte

end BlockCall

end Add3c2

end VisionServer.Neon
