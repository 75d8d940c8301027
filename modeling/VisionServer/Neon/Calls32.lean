/-
This file gives the state in which each call of a 32-bit NEON kernel returns.
-/

import VisionServer.Library.Kept
import VisionServer.Neon.Turns32

namespace VisionServer.Neon
open Library Library.Assembly
open Library.Aarch64 (Byte)
open Library.Aarch32 (Word Cpu sp)
open Library.Aarch32.Vector (Op Shape Swept turns counted frame)

namespace Kernel32

variable (k : Kernel32) (cpu : Cpu)

/-- The state after the code before the first label or branch. -/
def entered : Cpu := execAll Aarch32.Vector.isa (block (codeAt k.entry neon32)) cpu

/-- These are the instructions behind the first one. -/
def prologue : Kernel32 → List Op
  | .threshold => [.plain (.add 11 13 0), .plain (.lsr 2 4), .vdup 3 3]
  | .thresholdBinary => [.plain (.add 11 13 0), .plain (.lsr 2 4), .vdup 3 3]
  | .compare3Add => [.plain (.add 11 13 0), .plain (.ldr 4 13 12), .plain (.ldr 5 13 16), .plain (.lsr 5 4)]
  | .wst => [.plain (.add 11 13 0), .plain (.ldr 4 13 20), .plain (.ldr 5 13 24), .plain (.ldr 6 13 28),
      .plain (.ldr 7 13 32), .vdup 8 5, .vclz 8 8, .plain (.vnegS8 8 8), .vdup 9 6, .vclz 9 9, .plain (.vnegS8 9 9),
      .vdup 10 7, .plain (.lsr 4 4)]
  | .splitWst => [.plain (.add 11 13 0), .plain (.ldr 4 13 16), .plain (.ldr 5 13 20), .plain (.ldr 6 13 24),
      .vdup 8 4, .vclz 8 8, .plain (.vnegS8 8 8), .vdup 9 5, .vclz 9 9, .plain (.vnegS8 9 9), .vdup 10 6,
      .plain (.lsr 2 4), .plain (.cmp 3 1)]
  | .bitwiseOr => [.plain (.add 11 13 0), .plain (.lsr 3 4)]
  | .subtract => [.plain (.add 11 13 0), .plain (.lsr 3 4)]

/-- The kernel pushes its registers before the rest of its prologue. -/
theorem entered_eq : k.entered cpu =
    execAll Aarch32.Vector.isa k.prologue (Aarch32.isa.exec (.push k.saved) cpu) := by
  cases k <;> rfl

theorem entered_mem : (k.entered cpu).mem = (Aarch32.isa.exec (.push k.saved) cpu).mem := by
  cases k <;> rfl

/-- The arguments on the stack are found above the frame. -/
theorem word_argument {r : Fin 16} (stacked : 4 ≤ r) : (Aarch32.isa.exec (.push k.saved) cpu).word 13
    (4 * k.saved.length + 4 * (r.val - 4)) = argument cpu r := by
  have few : k.saved.length ≤ 5 := by cases k <;> decide
  have register := r.isLt
  rw [argument, if_neg (by omega)]
  exact Aarch32.word_push k.saved cpu (4 * (r.val - 4)) (by omega)

/-- The code before the loop loads the arguments, shifts the count and sets the frame pointer. -/
theorem entered_r (r : Fin 16) : (k.entered cpu).r r =
    if r = k.shape.counter then argument cpu k.shape.counter >>> 4
    else if r = 11 ∨ r = sp then cpu.r sp - BitVec.ofNat 32 (4 * k.saved.length)
    else if r ∈ k.saved then argument cpu r else cpu.r r := by
  have word (r : Fin 16) (stacked : 4 ≤ r) := k.word_argument cpu stacked
  have pushed : (Aarch32.isa.exec (.push k.saved) cpu).r =
      Function.update cpu.r sp (cpu.r sp - BitVec.ofNat 32 (4 * k.saved.length)) := Aarch32.push_r _ _
  rw [entered_eq]
  generalize Aarch32.isa.exec (.push k.saved) cpu = p at *
  cases k with
  | threshold | thresholdBinary | bitwiseOr | subtract =>
      simp [prologue, Aarch32.Vector.isa, Aarch32.Vector.exec, Cpu.exec, pushed, Function.update_apply, shape, saved,
        sp, argument]
      grind
  | compare3Add =>
      have four : p.word 13 12 = argument cpu 4 := word 4 (by decide)
      have five : p.word 13 16 = argument cpu 5 := word 5 (by decide)
      simp [prologue, Aarch32.Vector.isa, Aarch32.Vector.exec, Cpu.exec, pushed, Function.update_apply, shape, saved,
        sp, four, five]
      grind
  | wst =>
      have four : p.word 13 20 = argument cpu 4 := word 4 (by decide)
      have five : p.word 13 24 = argument cpu 5 := word 5 (by decide)
      have six : p.word 13 28 = argument cpu 6 := word 6 (by decide)
      have seven : p.word 13 32 = argument cpu 7 := word 7 (by decide)
      simp [prologue, Aarch32.Vector.isa, Aarch32.Vector.exec, Cpu.exec, pushed, Function.update_apply, shape, saved,
        sp, four, five, six, seven]
      grind
  | splitWst =>
      have four : p.word 13 16 = argument cpu 4 := word 4 (by decide)
      have five : p.word 13 20 = argument cpu 5 := word 5 (by decide)
      have six : p.word 13 24 = argument cpu 6 := word 6 (by decide)
      simp [prologue, Aarch32.Vector.isa, Aarch32.Vector.exec, Cpu.exec, pushed, Function.update_apply, shape, saved,
        sp, four, five, six, argument]
      grind

/-- The constants of the loop are computed from the arguments. -/
theorem entered_constants : k.Constants cpu (k.entered cpu).q := by
  have word (r : Fin 16) (stacked : 4 ≤ r) := k.word_argument cpu stacked
  have pushed : (Aarch32.isa.exec (.push k.saved) cpu).r =
      Function.update cpu.r sp (cpu.r sp - BitVec.ofNat 32 (4 * k.saved.length)) := Aarch32.push_r _ _
  rw [entered_eq]
  generalize Aarch32.isa.exec (.push k.saved) cpu = p at *
  cases k with
  | threshold | thresholdBinary =>
      simp [Constants, prologue, Aarch32.Vector.isa, Aarch32.Vector.exec, Cpu.exec, pushed, sp, byteArgument32,
        argument]
  | wst =>
      have five : p.word 13 24 = argument cpu 5 := word 5 (by decide)
      have six : p.word 13 28 = argument cpu 6 := word 6 (by decide)
      have seven : p.word 13 32 = argument cpu 7 := word 7 (by decide)
      simp [Constants, prologue, Aarch32.Vector.isa, Aarch32.Vector.exec, Cpu.exec, five, six, seven, byteArgument32]
  | splitWst =>
      have four : p.word 13 16 = argument cpu 4 := word 4 (by decide)
      have five : p.word 13 20 = argument cpu 5 := word 5 (by decide)
      have six : p.word 13 24 = argument cpu 6 := word 6 (by decide)
      simp [Constants, prologue, Aarch32.Vector.isa, Aarch32.Vector.exec, Cpu.exec, four, five, six, byteArgument32]
  | compare3Add | bitwiseOr | subtract => trivial

theorem falls (single : k ≠ .splitWst) :
    afterBlock (codeAt k.entry neon32) = .label (k.loop cpu) :: codeAt (k.loop cpu) neon32 := by
  cases k with
  | splitWst => exact absurd rfl single
  | _ => rfl

/-- The split kernel chooses its loop by the signed order of its offset. -/
theorem split_chooses (final : Cpu) :
    Returns Aarch32.Vector.isa neon32 (afterBlock (codeAt Kernel32.splitWst.entry neon32))
        (Kernel32.splitWst.entered cpu) final ↔
      Returns Aarch32.Vector.isa neon32 (codeAt (splitLoop32 (splitOffset cpu)) neon32)
        (Kernel32.splitWst.entered cpu) final := by
  have compared : ∃ s : Cpu, Kernel32.splitWst.entered cpu = Aarch32.Vector.isa.exec (.plain (.cmp 3 1)) s ∧
      s.r 3 = argument cpu 3 := by
    refine ⟨execAll Aarch32.Vector.isa (Kernel32.splitWst.prologue.dropLast)
      (Aarch32.isa.exec (.push Kernel32.splitWst.saved) cpu), ?_, ?_⟩
    · rw [entered_eq]
      rfl
    · have register := Kernel32.splitWst.entered_r cpu 3
      rw [entered_eq] at register
      exact register
  obtain ⟨s, entered, offset⟩ := compared
  have less : Aarch32.Vector.isa.holds .lt (Kernel32.splitWst.entered cpu) = (argument cpu 3).slt 1 := by
    rw [entered, ← offset]
    exact Aarch32.Vector.holds_lt_cmp 3 1 s
  have same : Aarch32.Vector.isa.holds .eq (Kernel32.splitWst.entered cpu) = decide (argument cpu 3 = 1) := by
    rw [entered, ← offset]
    exact Aarch32.Vector.holds_eq_cmp 3 1 s
  have greater : Aarch32.Vector.isa.holds .gt (Kernel32.splitWst.entered cpu) = (1 : Word).slt (argument cpu 3) := by
    rw [entered, ← offset]
    exact Aarch32.Vector.holds_gt_cmp 3 1 s
  change Returns Aarch32.Vector.isa neon32 (.branch .lt .c0SplitWstLoop :: .branch .eq .c1SplitWstLoop ::
    .branch .gt .c2SplitWstLoop :: .label .c0SplitWstLoop :: codeAt .c0SplitWstLoop neon32) _ final ↔ _
  rw [returns_branch, less, splitOffset]
  by_cases below : (argument cpu 3).slt 1
  · rw [if_pos below, if_pos below]
    rfl
  · rw [if_neg below, if_neg below, returns_branch, same]
    by_cases one : argument cpu 3 = 1
    · rw [if_pos (decide_eq_true one), if_pos one]
      rfl
    · have above : (1 : Word).slt (argument cpu 3) = true := by
        have apart : (argument cpu 3).toInt ≠ (1 : Word).toInt := fun equal => one (BitVec.eq_of_toInt_eq equal)
        simp only [BitVec.slt, decide_eq_true_eq] at below ⊢
        omega
      rw [if_neg (by rw [decide_eq_true_eq]; exact one), if_neg one, returns_branch, greater, if_pos above]
      rfl

/-- The prologue ends before the loop of the call. -/
theorem ends_iff_loop (final : Cpu) : k.Ends cpu final ↔
    Returns Aarch32.Vector.isa neon32 (codeAt (k.loop cpu) neon32) (k.entered cpu) final := by
  unfold Ends
  rw [returns_block]
  by_cases split : k = .splitWst
  · rw [split]
    exact split_chooses cpu final
  · rw [k.falls cpu split, returns_label]
    exact Iff.rfl

/-- The blocks of an image start at its argument. -/
def image (r : Fin 16) : Set Word := span (argument cpu r) (k.blocks cpu * (16 * k.shape.channels r))

def written : Set Word := span (k.dest cpu) (k.blocks cpu * 16)

/-- The channels of a pixel in the images of a call. -/
def channelsAt (i : Nat) : Fin 16 → Nat → Byte :=
  fun r c => cpu.mem (argument cpu r + BitVec.ofNat 32 (k.shape.channels r * i + c))

theorem count_lt : k.count cpu < 2 ^ 32 := (argument cpu k.shape.counter).isLt

theorem blocks_le : k.blocks cpu ≤ 2 ^ 28 := by
  have bound := k.count_lt cpu
  unfold blocks
  omega

/-- The counter of a loop is the number of whole blocks. -/
theorem toNat_counter : ((k.entered cpu).r k.shape.counter).toNat = k.count cpu / 16 := by
  rw [entered_r, if_pos rfl, BitVec.toNat_ushiftRight, Nat.shiftRight_eq_div_pow]
  rfl

theorem turns_entered : turns ((k.entered cpu).r k.shape.counter) = k.blocks cpu := by
  rw [turns, toNat_counter, blocks]

/-- The images and the destination are loaded before the loop. -/
theorem entered_pointer {r : Fin 16} (pointer : k.shape.channels r ≠ 0 ∨ r = k.shape.dest) :
    (k.entered cpu).r r = argument cpu r := by
  have places : ∀ k : Kernel32, ∀ r, k.shape.channels r ≠ 0 ∨ r = k.shape.dest →
      r ≠ k.shape.counter ∧ ¬ (r = 11 ∨ r = sp) ∧ (r ∈ k.saved ∨ r < 4) := by
    intro k
    cases k <;> decide
  obtain ⟨apart, other, loaded⟩ := places k r pointer
  rw [entered_r, if_neg apart, if_neg other]
  rcases loaded with saved | early
  · rw [if_pos saved]
  · rw [argument, if_pos early]
    exact ite_self _

/-- The frame pointer is saved, and no turn moves it. -/
theorem saved_places : k.saved.Nodup ∧ k.saved.length ≤ 16 ∧ 11 ∈ k.saved ∧ k.shape.counter ≠ 11 ∧
    k.shape.stride 11 = 0 := by
  cases k <;> decide

/-- A register of the caller that is not saved is not used. -/
theorem unsaved_places : ∀ r, 4 ≤ r ∧ r ≤ 11 → r ∉ k.saved → r ≠ k.shape.counter ∧ k.shape.stride r = 0 := by
  cases k <;> decide

end Kernel32

/-- A byte of an image is found at a distance from its argument. -/
def imageByte (cpu : Cpu) (r : Fin 16) (i : Nat) : Byte := cpu.mem (argument cpu r + BitVec.ofNat 32 i)

/-- The images of a call are apart from the stack frame of its kernel, and each of them is apart from the destination
or starts there. -/
structure PlacedCall (k : Kernel32) where
  cpu : Cpu
  placed : ∀ r, Disjoint (k.image cpu r) (k.written cpu) ∨
    argument cpu r = k.dest cpu ∧ k.blocks cpu * (16 * k.shape.channels r) ≤ 2 ^ 32
  framed : ∀ r, Disjoint (k.image cpu r) (frame k.saved cpu)

namespace PlacedCall

variable {k : Kernel32} (c : PlacedCall k)

/-- A call leaves its pixels and keeps the rest of the memory outside of its frame. -/
structure Leaves (t : Cpu) : Prop where
  dest : ∀ i < k.blocks c.cpu * 16, t.mem (k.dest c.cpu + BitVec.ofNat 32 i) = k.pixel c.cpu (k.channelsAt c.cpu i)
  rest : ∀ a ∉ k.written c.cpu, a ∉ frame k.saved c.cpu → t.mem a = c.cpu.mem a

/-- A single channel of a call is a byte of its image. -/
theorem channelsAt_single {r : Fin 16} (single : k.shape.channels r = 1) (i : Nat) :
    k.channelsAt c.cpu i r 0 = imageByte c.cpu r i := by
  rw [Kernel32.channelsAt, single, Nat.one_mul]
  rfl

theorem blocks_of_enough (enough : 16 ≤ k.count c.cpu) : k.blocks c.cpu = k.count c.cpu / 16 :=
  Nat.max_eq_right (Nat.div_pos enough (by decide))

theorem unread : k.shape.Unread (k.blocks c.cpu) (k.entered c.cpu) := by
  apply Shape.Placed.unread
  intro r
  by_cases none : k.shape.channels r = 0
  · rw [none, Nat.mul_zero, span_zero]
    exact Or.inl (Set.empty_disjoint _)
  · rw [k.entered_pointer c.cpu (Or.inl none), k.entered_pointer c.cpu (Or.inr rfl)]
    exact c.placed r

/-- The images are found at the loop as they are in the call. -/
theorem channelsAt_entered {i : Nat} (inside : i < k.blocks c.cpu * 16) {r : Fin 16} {channel : Nat}
    (below : channel < k.shape.channels r) :
    k.shape.channelsAt (k.entered c.cpu) i r channel = k.channelsAt c.cpu i r channel := by
  have some : k.shape.channels r ≠ 0 := Nat.ne_zero_of_lt below
  have place : k.shape.channels r * i + channel < k.blocks c.cpu * (16 * k.shape.channels r) := by
    have last := Nat.mul_le_mul_left (k.shape.channels r) (Nat.succ_le_of_lt inside)
    rw [Nat.mul_succ, Nat.mul_comm _ (_ * 16), Nat.mul_assoc] at last
    omega
  rw [Shape.channelsAt, Kernel32.channelsAt, Cpu.byteAt, k.entered_pointer c.cpu (Or.inl some), k.entered_mem]
  exact Aarch32.push_mem k.saved c.cpu (Set.disjoint_left.mp (c.framed r) (add_mem_of_lt _ place))

/-- The code behind a loop pops the registers and returns. -/
def Leave (k : Kernel32) (head : Label32) : Prop :=
  ∃ leave : Text32, afterBlock (codeAt head neon32) = .branch .gt head :: leave ∧
    ∀ t : Cpu, Aarch32.Vector.isa.holds .gt t = false → ∀ final, Returns Aarch32.Vector.isa neon32 leave t final ↔
      final = Aarch32.isa.exec (.pop k.saved) (Aarch32.isa.exec (.sub 13 11 0) t)

theorem leave_of_text {k : Kernel32} {head : Label32} {rest : Text32} (text : afterBlock (codeAt head neon32) =
    .branch .gt head :: .op (.plain (.sub 13 11 0)) :: .op (.plain (.pop k.saved)) :: .ret :: rest) :
    Leave k head := by
  refine ⟨_, text, fun t _ final => ?_⟩
  rw [returns_op, returns_op, returns_ret]
  exact Iff.rfl

/-- The loops of the split kernel go to its end. -/
theorem leave_of_split {head : Label32} {rest : Text32} (text : afterBlock (codeAt head neon32) =
    .branch .gt head :: .branch .le .splitWstEnd :: rest) : Leave .splitWst head := by
  refine ⟨_, text, fun t zero final => ?_⟩
  have last : Aarch32.Vector.isa.holds .le t = true := by
    rw [Aarch32.Vector.holds_le, zero]
    rfl
  rw [returns_branch, last, if_pos rfl]
  change Returns Aarch32.Vector.isa neon32
    (.op (.plain (.sub 13 11 0)) :: .op (.plain (.pop [4, 5, 6, 11])) :: .ret :: _) t final ↔ _
  rw [returns_op, returns_op, returns_ret]
  exact Iff.rfl

theorem leave_loop (k : Kernel32) (cpu : Cpu) : Leave k (k.loop cpu) := by
  cases k with
  | splitWst =>
      exact splitLoop32_cases (leave_of_split rfl) (leave_of_split rfl) (leave_of_split rfl) (splitOffset cpu)
  | _ => exact leave_of_text rfl

theorem body_loop (k : Kernel32) (cpu : Cpu) :
    block (codeAt (k.loop cpu) neon32) = turnOf (k.loop cpu) ++ counted k.shape.counter := by
  cases k with
  | splitWst =>
      exact splitLoop32_cases (motive := fun head =>
        block (codeAt head neon32) = turnOf head ++ counted Kernel32.splitWst.shape.counter) rfl rfl rfl
          (splitOffset cpu)
  | _ => rfl

/-- The loop of a call stores its pixels. -/
theorem exists_swept : ∃ t, Swept k.shape (k.Constants c.cpu) (k.pixel c.cpu) (k.blocks c.cpu) (k.entered c.cpu) t ∧
    ∀ final, k.Ends c.cpu final ↔ final = Aarch32.isa.exec (.pop k.saved) (Aarch32.isa.exec (.sub 13 11 0) t) := by
  obtain ⟨leave, back, pops⟩ := leave_loop k c.cpu
  have blocks := k.turns_entered c.cpu
  have few := k.blocks_le c.cpu
  have small : ((k.entered c.cpu).r k.shape.counter).toNat < 2 ^ 31 := by
    have bound := k.count_lt c.cpu
    rw [k.toNat_counter]
    omega
  obtain ⟨t, swept, zero, left⟩ := Aarch32.Vector.exists_swept (k.turn c.cpu) (body_loop k c.cpu) back small
    (k.entered_constants c.cpu) (blocks.symm ▸ c.unread) (by rw [blocks]; omega)
  rw [blocks] at swept
  refine ⟨t, swept, fun final => ?_⟩
  rw [k.ends_iff_loop, left, pops t zero]

/-- Outside of the destination the loop leaves what has been pushed. -/
theorem swept_outside {t : Cpu}
    (swept : Swept k.shape (k.Constants c.cpu) (k.pixel c.cpu) (k.blocks c.cpu) (k.entered c.cpu) t) {a : Word}
    (apart : a ∉ k.written c.cpu) : t.mem a = (Aarch32.isa.exec (.push k.saved) c.cpu).mem a := by
  rw [swept.mem, k.entered_pointer c.cpu (Or.inr rfl), ← k.entered_mem]
  exact overwritten_of_notMem apart

/-- What the loop has stored remains when the registers are popped. -/
theorem leaves_of_swept {t : Cpu}
    (swept : Swept k.shape (k.Constants c.cpu) (k.pixel c.cpu) (k.blocks c.cpu) (k.entered c.cpu) t) :
    c.Leaves (Aarch32.isa.exec (.pop k.saved) (Aarch32.isa.exec (.sub 13 11 0) t)) := by
  have few := k.blocks_le c.cpu
  have mem : (Aarch32.isa.exec (.pop k.saved) (Aarch32.isa.exec (.sub 13 11 0) t)).mem = t.mem :=
    (Aarch32.Vector.exec_pop_keeps k.saved _).1
  constructor
  · intro i inside
    rw [mem, swept.mem, k.entered_pointer c.cpu (Or.inr rfl)]
    refine (overwritten_add inside (by omega)).trans ?_
    exact (k.turn c.cpu).loads _ _ fun r channel below => c.channelsAt_entered inside below
  · intro a apart unframed
    rw [mem, c.swept_outside swept apart]
    exact Aarch32.push_mem k.saved c.cpu unframed

/-- Each call returns in one state, which holds its pixels. -/
theorem exists_end : ∃ t, (∀ final, k.Ends c.cpu final ↔ final = t) ∧ c.Leaves t := by
  obtain ⟨t, swept, ends⟩ := c.exists_swept
  exact ⟨_, ends, c.leaves_of_swept swept⟩

end PlacedCall

/-- The destination of a call is apart from the stack frame of its kernel as well. -/
structure FamilyCall (k : Kernel32) extends PlacedCall k where
  apart : Disjoint (k.written cpu) (frame k.saved cpu)

namespace FamilyCall

variable {k : Kernel32} (c : FamilyCall k)

/-- A call restores the registers that belong to its caller. -/
structure Leaves (t : Cpu) : Prop extends c.toPlacedCall.Leaves t where
  registers : ∀ r, 4 ≤ r ∧ r ≤ 11 ∨ r = sp → t.r r = c.cpu.r r
  vectors : ∀ q, 4 ≤ q ∧ q ≤ 7 → t.q q = c.cpu.q q

theorem leaves_of_swept {t final : Cpu}
    (swept : Swept k.shape (k.Constants c.cpu) (k.pixel c.cpu) (k.blocks c.cpu) (k.entered c.cpu) t)
    (ends : k.Ends c.cpu final)
    (popped : final = Aarch32.isa.exec (.pop k.saved) (Aarch32.isa.exec (.sub 13 11 0) t)) : c.Leaves final := by
  refine ⟨popped ▸ c.toPlacedCall.leaves_of_swept swept, ?_, ?_⟩
  · intro r callee
    obtain ⟨distinct, short, eleven, uncounted, unmoved⟩ := k.saved_places
    have others := k.unsaved_places
    have pointer : t.r 11 = c.cpu.r sp - BitVec.ofNat 32 (4 * k.saved.length) := by
      rw [swept.pointers 11 uncounted.symm, unmoved, k.entered_r, if_neg uncounted.symm, if_pos (Or.inl rfl),
        Nat.mul_zero]
      exact BitVec.add_zero _
    rw [popped, Aarch32.Vector.exec_pop_restores distinct short pointer
      fun a framed => c.swept_outside swept (Set.disjoint_right.mp c.apart framed)]
    by_cases saved : r ∈ k.saved ∨ r = sp
    · rw [if_pos saved]
    · obtain ⟨unsaved, plain⟩ := not_or.mp saved
      obtain ⟨apart, still⟩ := others r (callee.resolve_right plain) unsaved
      have other : r ≠ 11 := fun same => unsaved (same ▸ eleven)
      rw [if_neg saved, swept.pointers r apart, still, k.entered_r, if_neg apart,
        if_neg (not_or.mpr ⟨other, plain⟩), if_neg unsaved, Nat.mul_zero]
      exact BitVec.add_zero _
  · intro q callee
    have four : ∀ op ∈ ops neon32, ∀ q, 4 ≤ q ∧ q ≤ 7 → q ∉ op.quads := by decide +kernel
    exact Aarch32.Vector.returns_q (fun op member => four op member q callee) ends

/-- Each call returns in one state, which is as its caller expects it. -/
theorem exists_end : ∃ t, (∀ final, k.Ends c.cpu final ↔ final = t) ∧ c.Leaves t := by
  obtain ⟨t, swept, ends⟩ := c.exists_swept
  exact ⟨_, ends, c.leaves_of_swept swept ((ends _).mpr rfl) rfl⟩

end FamilyCall

section Far

/-- The arguments of a call with a count of sixteen whose images and destination are far from each other. -/
def farArgument (k : Kernel32) (rest : Fin 16 → Word) (r : Fin 16) : Word :=
  if r = k.shape.counter then 16
  else if k.shape.channels r ≠ 0 ∨ r = k.shape.dest then 0x1000 * (BitVec.ofNat 32 r + 1) else rest r

/-- A processor with these arguments, where those behind the fourth are on the stack, and with other bytes in the rest
of its memory. -/
def farImages (k : Kernel32) (rest : Fin 16 → Word) (bytes : Word → Byte) : Cpu where
  r r := if r = sp then 0xE000 else farArgument k rest r
  q _ _ := 0
  flags := ⟨false, false, false⟩
  mem a :=
    let offset := (a - 0xE000).toNat
    if a ∈ span 0xE000 48 then
      (farArgument k rest (.ofNat 16 (4 + offset / 4))).extractLsb' (8 * (offset % 4)) 8
    else bytes a

variable (k : Kernel32) (rest : Fin 16 → Word) (bytes : Word → Byte)

theorem argument_farImages (r : Fin 16) : argument (farImages k rest bytes) r = farArgument k rest r := by
  by_cases early : r < 4
  · have general : r ≠ sp := by
      unfold sp
      omega
    rw [argument, if_pos early]
    exact if_neg general
  · have byte {j : Nat} (below : j < 4) : (farImages k rest bytes).byteAt sp (4 * (r.val - 4) + j) =
        (farArgument k rest r).extractLsb' (8 * j) 8 := by
      have register := r.isLt
      have inside : (0xE000 : Word) + BitVec.ofNat 32 (4 * (r.val - 4) + j) ∈ span 0xE000 48 :=
        add_mem_of_lt _ (by omega)
      have offset : ((0xE000 : Word) + BitVec.ofNat 32 (4 * (r.val - 4) + j) - 0xE000).toNat =
          4 * (r.val - 4) + j := toNat_add_ofNat_sub _ (by omega)
      have place : (Fin.ofNat 16 (4 + (4 * (r.val - 4) + j) / 4)) = r := by
        apply Fin.ext
        rw [Fin.val_ofNat]
        omega
      have lane : (4 * (r.val - 4) + j) % 4 = j := by omega
      change (farImages k rest bytes).mem (0xE000 + BitVec.ofNat 32 (4 * (r.val - 4) + j)) = _
      simp only [farImages]
      rw [if_pos inside, offset, place, lane]
    have low := byte (j := 0) (by decide)
    rw [Nat.add_zero] at low
    rw [argument, if_neg early, Cpu.word, byte (by decide), byte (by decide), byte (by decide), low]
    exact Aarch32.Vector.bytes_append _

theorem blocks_farImages : k.blocks (farImages k rest bytes) = 1 := by
  rw [Kernel32.blocks, Kernel32.count, argument_farImages, farArgument, if_pos rfl]
  rfl

/-- The images of the far call are behind each other, and its stack is behind them. -/
theorem farArgument_far (k : Kernel32) (rest : Fin 16 → Word) (r : Fin 16) : k.shape.channels r = 0 ∨
    (16 ≤ (farArgument k rest r - farArgument k rest k.shape.dest).toNat ∧
      16 * k.shape.channels r ≤ (farArgument k rest k.shape.dest - farArgument k rest r).toNat) ∧
    4 * k.saved.length ≤ (farArgument k rest r - (0xE000 - BitVec.ofNat 32 (4 * k.saved.length))).toNat ∧
      16 * k.shape.channels r ≤ (0xE000 - BitVec.ofNat 32 (4 * k.saved.length) - farArgument k rest r).toNat := by
  by_cases image : k.shape.channels r = 0
  · exact Or.inl image
  · have counter : r ≠ k.shape.counter := fun same => image (same ▸ k.shape.counter_channels)
    rw [farArgument, if_neg counter, if_pos (Or.inl image), farArgument, if_neg k.shape.apart, if_pos (Or.inr rfl)]
    revert r
    cases k <;> decide +kernel

/-- One block of each image is passed. -/
def farCall : FamilyCall k where
  cpu := farImages k rest bytes
  placed r := by
    rw [Kernel32.image, Kernel32.written, blocks_farImages, Kernel32.dest, argument_farImages, argument_farImages,
      Nat.one_mul, Nat.one_mul]
    rcases farArgument_far k rest r with none | ⟨⟨before, after⟩, _⟩
    · rw [none, Nat.mul_zero, span_zero]
      exact Or.inl (Set.empty_disjoint _)
    · exact Or.inl (disjoint_of_far before after)
  framed r := by
    rw [Kernel32.image, blocks_farImages, argument_farImages, Nat.one_mul]
    rcases farArgument_far k rest r with none | ⟨_, before, after⟩
    · rw [none, Nat.mul_zero, span_zero]
      exact Set.empty_disjoint _
    · exact disjoint_of_far before after
  apart := by
    rw [Kernel32.written, blocks_farImages, Kernel32.dest, argument_farImages, farArgument, if_neg k.shape.apart,
      if_pos (Or.inr rfl), Nat.one_mul]
    change Disjoint _ (span (0xE000 - BitVec.ofNat 32 (4 * k.saved.length)) _)
    cases k <;> exact disjoint_of_far (by decide +kernel) (by decide +kernel)

end Far

end VisionServer.Neon
