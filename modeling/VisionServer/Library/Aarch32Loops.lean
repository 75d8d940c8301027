/-
This file gives the memory that a loop of 32-bit ARM over blocks of bytes leaves.
-/

import VisionServer.Library.Aarch32Vectors

namespace VisionServer.Library.Aarch32.Vector
open Library.Assembly
open Library.Aarch64 (Byte Lanes)

section Turns

/-- A pixel is computed from the channels at its place in the images. -/
abbrev Pixel := (Fin 16 → Nat → Byte) → Byte

/-- A loop has images with a number of channels at base registers, a destination and a counter. -/
structure Shape where
  channels : Fin 16 → Nat
  dest : Fin 16
  counter : Fin 16
  dest_channels : channels dest = 0
  counter_channels : channels counter = 0
  apart : dest ≠ counter

namespace Shape

variable (shape : Shape)

/-- The bytes by which a pixel moves a base register. -/
def stride (k : Fin 16) : Nat := if k = shape.dest then 1 else shape.channels k

/-- The channels of a pixel in the images of a state. -/
def channelsAt (s : Cpu) (i : Nat) : Fin 16 → Nat → Byte := fun k c => s.byteAt k (shape.channels k * i + c)

/-- No block of an image lies in the blocks of the destination before it. -/
def Unread (blocks : Nat) (s : Cpu) : Prop :=
  ∀ k, ∀ n < blocks, Disjoint (span (s.r k + BitVec.ofNat 32 (n * (16 * shape.channels k))) (16 * shape.channels k))
    (span (s.r shape.dest) (n * 16))

/-- Each image is apart from the destination, or it starts there and fits into the address space. -/
def Placed (blocks : Nat) (s : Cpu) : Prop :=
  ∀ k, Disjoint (span (s.r k) (blocks * (16 * shape.channels k))) (span (s.r shape.dest) (blocks * 16)) ∨
    s.r k = s.r shape.dest ∧ blocks * (16 * shape.channels k) ≤ 2 ^ 32

/-- Placed images are loaded before they are overwritten. -/
theorem Placed.unread {shape : Shape} {blocks : Nat} {s : Cpu} (placed : shape.Placed blocks s) :
    shape.Unread blocks s := by
  intro k n inside
  have last (size : Nat) : n * size + size ≤ blocks * size := by
    rw [← Nat.succ_mul]
    exact Nat.mul_le_mul_right _ inside
  rcases placed k with apart | ⟨here, fits⟩
  · have earlier := last 16
    exact Set.disjoint_of_subset ((span_add_subset _ _ _).trans (span_mono (last _))) (span_mono (by omega)) apart
  · rw [here, Set.disjoint_left]
    intro a loaded stored
    obtain ⟨offset, below, rfl⟩ := exists_of_mem_span stored
    rcases Nat.eq_zero_or_pos (shape.channels k) with none | some
    · rw [none] at loaded
      exact Nat.not_lt_zero _ (mem_span.mp loaded)
    · have wide : n * 16 ≤ n * (16 * shape.channels k) :=
        Nat.mul_le_mul_left n (Nat.le_mul_of_pos_right 16 some)
      exact add_notMem_of_before _ (Nat.lt_of_lt_of_le below wide) (Nat.le_trans (last _) fits) loaded

end Shape

/-- A turn keeps its constants, stores the pixels of a block and moves the images behind it. -/
structure Turn (shape : Shape) (ops : List Op) (keeps : (Fin 16 → Lanes) → Prop) (pixel : Pixel) : Prop where
  kept : ∀ s : Cpu, keeps s.q → keeps (execAll isa ops s).q
  moved : ∀ (s : Cpu) (k : Fin 16), (execAll isa ops s).r k = s.r k + BitVec.ofNat 32 (16 * shape.stride k)
  mem : ∀ s : Cpu, keeps s.q → (execAll isa ops s).mem =
    overwritten (s.r shape.dest) 16 (fun i => pixel (shape.channelsAt s i)) s.mem
  loads : ∀ f g : Fin 16 → Nat → Byte, (∀ k, ∀ c < shape.channels k, f k c = g k c) → pixel f = pixel g

/-- Some turns have stored their blocks, moved the images behind them and counted them. -/
structure Swept (shape : Shape) (keeps : (Fin 16 → Lanes) → Prop) (pixel : Pixel) (blocks : Nat) (s t : Cpu) :
    Prop where
  pointers : ∀ k, k ≠ shape.counter → t.r k = s.r k + BitVec.ofNat 32 (blocks * (16 * shape.stride k))
  counter : t.r shape.counter = s.r shape.counter - BitVec.ofNat 32 blocks
  kept : keeps t.q
  mem : t.mem = overwritten (s.r shape.dest) (blocks * 16) (fun i => pixel (shape.channelsAt s i)) s.mem

variable {shape : Shape} {ops : List Op} {keeps : (Fin 16 → Lanes) → Prop} {pixel : Pixel} {blocks : Nat} {s t : Cpu}

/-- The instructions at the end of a turn count it. -/
def counted (counter : Fin 16) : List Op := [.plain (.sub counter counter 1), .plain (.cmp counter 0)]

theorem Swept.start (kept : keeps s.q) : Swept shape keeps pixel 0 s s := by
  refine ⟨fun k _ => ?_, ?_, kept, ?_⟩
  · rw [Nat.zero_mul]
    exact (BitVec.add_zero _).symm
  · exact (BitVec.sub_zero _).symm
  · rw [Nat.zero_mul, overwritten_zero]

/-- The next block of an image is found as in the first state. -/
theorem Swept.channelsAt (swept : Swept shape keeps pixel blocks s t) (unread : shape.Unread (blocks + 1) s)
    {i : Nat} (inside : i < 16) {k : Fin 16} {c : Nat} (below : c < shape.channels k) :
    shape.channelsAt t i k c = shape.channelsAt s (blocks * 16 + i) k c := by
  have source : k ≠ shape.counter := fun same => by
    rw [same, shape.counter_channels] at below
    exact absurd below (Nat.not_lt_zero c)
  have plain : k ≠ shape.dest := fun same => by
    rw [same, shape.dest_channels] at below
    exact absurd below (Nat.not_lt_zero c)
  have stride : shape.stride k = shape.channels k := if_neg plain
  have block : shape.channels k * i + c < 16 * shape.channels k := by
    have last := Nat.mul_le_mul_left (shape.channels k) (Nat.succ_le_of_lt inside)
    rw [Nat.mul_succ, Nat.mul_comm _ 16] at last
    omega
  have place : blocks * (16 * shape.channels k) + (shape.channels k * i + c) =
      shape.channels k * (blocks * 16 + i) + c := by
    rw [Nat.mul_add, ← Nat.mul_assoc, Nat.mul_comm (blocks * 16), Nat.add_assoc]
  rw [Shape.channelsAt, Shape.channelsAt, Cpu.byteAt, Cpu.byteAt, swept.pointers k source, stride, swept.mem,
    BitVec.add_assoc, ← BitVec.ofNat_add, ← place]
  apply overwritten_of_notMem
  have loaded := add_mem_of_lt (s.r k + BitVec.ofNat 32 (blocks * (16 * shape.channels k))) block
  rw [BitVec.add_assoc, ← BitVec.ofNat_add] at loaded
  exact Set.disjoint_left.mp (unread k blocks (Nat.lt_succ_self _)) loaded

/-- A turn sweeps the next block. -/
theorem Swept.turn (swept : Swept shape keeps pixel blocks s t) (turn : Turn shape ops keeps pixel)
    (unread : shape.Unread (blocks + 1) s) (fits : (blocks + 1) * 16 ≤ 2 ^ 32) :
    Swept shape keeps pixel (blocks + 1) s (execAll isa (ops ++ counted shape.counter) t) := by
  have split : execAll isa (ops ++ counted shape.counter) t =
      execAll isa (counted shape.counter) (execAll isa ops t) := List.foldl_append
  have counter : shape.stride shape.counter = 0 := by
    rw [Shape.stride, if_neg shape.apart.symm, shape.counter_channels]
  rw [split]
  constructor
  · intro k apart
    change Function.update _ shape.counter _ k = _
    rw [Function.update_of_ne apart, turn.moved, swept.pointers k apart, BitVec.add_assoc, ← BitVec.ofNat_add,
      ← Nat.succ_mul]
  · change Function.update _ shape.counter _ shape.counter = _
    rw [Function.update_self, turn.moved, counter, swept.counter, BitVec.ofNat_add]
    simp only [Nat.mul_zero]
    bv_omega
  · exact turn.kept t swept.kept
  · change (execAll isa ops t).mem = _
    have stride : shape.stride shape.dest = 1 := if_pos rfl
    rw [Nat.succ_mul] at fits
    rw [turn.mem t swept.kept, swept.pointers _ shape.apart, swept.mem, stride, Nat.mul_one, Nat.add_mul,
      Nat.one_mul]
    apply overwritten_append fits
    intro i inside
    exact turn.loads _ _ fun k c below => swept.channelsAt unread inside below

/-- The condition of the loop is checked after its turn, so an empty count makes a turn as well. -/
def turns (count : Word) : Nat := max 1 count.toNat

/-- After a turn the loop goes back while turns are left. -/
theorem Swept.holds_gt (swept : Swept shape keeps pixel (blocks + 1) s (execAll isa (ops ++ counted shape.counter) t))
    (small : (s.r shape.counter).toNat < 2 ^ 31) (more : blocks < turns (s.r shape.counter)) :
    isa.holds .gt (execAll isa (ops ++ counted shape.counter) t) =
      decide (blocks + 1 ≠ turns (s.r shape.counter)) := by
  have split : execAll isa (ops ++ counted shape.counter) t = isa.exec (.plain (.cmp shape.counter 0))
      (isa.exec (.plain (.sub shape.counter shape.counter 1)) (execAll isa ops t)) := List.foldl_append
  have counter := swept.counter
  rw [split] at counter ⊢
  rw [holds_gt_cmp]
  change (isa.exec (.plain (.sub shape.counter shape.counter 1)) (execAll isa ops t)).r shape.counter = _ at counter
  rw [counter, BitVec.slt]
  unfold turns at more ⊢
  refine decide_eq_decide.mpr ?_
  rw [BitVec.toInt_sub, Int.bmod_def, BitVec.toInt_eq_toNat_cond, BitVec.toInt_eq_toNat_cond,
    BitVec.toInt_eq_toNat_cond, BitVec.toNat_ofNat, BitVec.toNat_ofNat]
  omega

/-- A loop over blocks makes its turns and is left with them swept. -/
theorem exists_swept {Label : Type} [DecidableEq Label] {text leave : List (Line Op Cond Label)} {head : Label}
    (turn : Turn shape ops keeps pixel) (body : block (codeAt head text) = ops ++ counted shape.counter)
    (back : afterBlock (codeAt head text) = .branch .gt head :: leave)
    (small : (s.r shape.counter).toNat < 2 ^ 31) (kept : keeps s.q)
    (unread : shape.Unread (turns (s.r shape.counter)) s) (fits : turns (s.r shape.counter) * 16 ≤ 2 ^ 32) :
    ∃ t, Swept shape keeps pixel (turns (s.r shape.counter)) s t ∧ isa.holds .gt t = false ∧
      ∀ final, Returns isa text (codeAt head text) s final ↔ Returns isa text leave t final := by
  have again (n : Nat) (u : Cpu) (more : n < turns (s.r shape.counter))
      (swept : Swept shape keeps pixel n s u ∧ (n = turns (s.r shape.counter) → isa.holds .gt u = false)) :
      ∃ t, (Swept shape keeps pixel (n + 1) s t ∧ (n + 1 = turns (s.r shape.counter) → isa.holds .gt t = false)) ∧
        ∀ final, Returns isa text (codeAt head text) u final ↔ Returns isa text
          (if n + 1 = turns (s.r shape.counter) then leave else codeAt head text) t final := by
    have fewer : shape.Unread (n + 1) s := fun k i inside => unread k i (Nat.lt_of_lt_of_le inside more)
    have next := swept.1.turn turn fewer (Nat.le_trans (Nat.mul_le_mul_right 16 more) fits)
    have goes := next.holds_gt small more
    refine ⟨_, ⟨next, fun last => ?_⟩, fun final => ?_⟩
    · rw [goes]
      exact decide_eq_false fun apart => apart last
    · rw [returns_block, body, back, returns_branch, goes]
      by_cases last : n + 1 = turns (s.r shape.counter)
      · rw [if_pos last, if_neg (by simpa using last)]
      · rw [if_neg last, if_pos (by simpa using last)]
  have positive : 0 < turns (s.r shape.counter) := Nat.lt_of_lt_of_le Nat.one_pos (Nat.le_max_left _ _)
  obtain ⟨t, ⟨swept, last⟩, left⟩ := exists_leave _ again positive
    ⟨Swept.start kept, fun none => absurd none positive.ne⟩
  exact ⟨t, swept, last rfl, left⟩

end Turns

end VisionServer.Library.Aarch32.Vector
