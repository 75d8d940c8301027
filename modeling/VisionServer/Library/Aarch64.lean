/-
This file gives the AArch64 instructions for byte vectors with the memory accesses of their runs.
-/

import VisionServer.Library.Assembly
import VisionServer.Library.Overwrite

namespace VisionServer.Library.Aarch64

/-- The numerals of registers, lanes and channels share these instances. -/
instance registers_neZero : NeZero 31 := ⟨by decide⟩

instance vectors_neZero : NeZero 32 := ⟨by decide⟩

instance lanes_neZero : NeZero 16 := ⟨by decide⟩

instance channels_neZero : NeZero 3 := ⟨by decide⟩

abbrev Word := BitVec 64

abbrev Byte := BitVec 8

/-- A vector register holds sixteen bytes. -/
abbrev Lanes := Fin 16 → Byte

inductive Direction where
  | load
  | store
deriving DecidableEq

/-- A run accesses a range of addresses. -/
structure Event where
  direction : Direction
  address : Word
  bytes : Nat
deriving DecidableEq

structure Flags where
  n : Bool
  z : Bool
  c : Bool
  v : Bool
deriving DecidableEq

/-- The processor has its registers, its memory and the accesses of the run. -/
structure Cpu where
  x : Fin 31 → Word
  v : Fin 32 → Lanes
  flags : Flags
  mem : Word → Byte
  trace : List Event

inductive Arrangement where
  | b8
  | b16
deriving DecidableEq

inductive Width where
  | w
  | x
deriving DecidableEq

/-- Each instruction has its registers and its immediate operands in the order of the assembler.
The loads and stores are post-indexed. -/
inductive Op where
  | lsr (width : Width) (d n : Fin 31) (shift : Nat)
  | subs (d n : Fin 31) (imm : Nat)
  | cmp (n : Fin 31) (imm : Nat)
  | dup (arrangement : Arrangement) (d : Fin 32) (n : Fin 31)
  | ldr (t : Fin 32) (n : Fin 31) (post : Nat)
  | str (t : Fin 32) (n : Fin 31) (post : Nat)
  | ld3 (t : Fin 32) (n : Fin 31) (post : Nat)
  | st3 (t : Fin 32) (n : Fin 31) (post : Nat)
  | ld3Lane (t : Fin 32) (lane : Fin 16) (n : Fin 31) (post : Nat)
  | st1Lane (t : Fin 32) (lane : Fin 16) (n : Fin 31) (post : Nat)
  | clz (d n : Fin 32)
  | neg (d n : Fin 32)
  | ushrImm (d n : Fin 32) (shift : Nat)
  | uqshlImm (d n : Fin 32) (shift : Nat)
  | cmhi (d n m : Fin 32)
  | and (d n m : Fin 32)
  | orr (d n m : Fin 32)
  | ushl (d n m : Fin 32)
  | uqshl (d n m : Fin 32)
  | uqadd (d n m : Fin 32)
  | uqsub (d n m : Fin 32)
deriving DecidableEq

inductive Cond where
  | eq
  | ne
  | lo
  | hs
  | lt
  | gt
deriving DecidableEq

section Bytes

def cmhi (a b : Byte) : Byte := if b < a then .allOnes 8 else 0

def uqadd (a b : Byte) : Byte := if 255 < a.toNat + b.toNat then 255 else a + b

def uqsub (a b : Byte) : Byte := if a < b then 0 else a - b

/-- A shift to the left saturates. -/
def uqshlImm (a : Byte) (shift : Nat) : Byte := if 255 < a.toNat * 2 ^ shift then 255 else a <<< shift

/-- A negative amount shifts to the right. -/
def ushl (a amount : Byte) : Byte :=
  if 0 ≤ amount.toInt then a <<< amount.toNat else a >>> (-amount).toNat

def uqshl (a amount : Byte) : Byte :=
  if 0 ≤ amount.toInt then uqshlImm a amount.toNat else a >>> (-amount).toNat

theorem toNat_uqadd (a b : Byte) : (uqadd a b).toNat = min 255 (a.toNat + b.toNat) := by
  unfold uqadd
  split
  · have most : (255 : Byte).toNat = 255 := rfl
    omega
  · rw [BitVec.toNat_add]
    omega

theorem toNat_uqsub (a b : Byte) : (uqsub a b).toNat = a.toNat - b.toNat := by
  unfold uqsub
  split
  · rename_i less
    have below : a.toNat < b.toNat := less
    have none : (0 : Byte).toNat = 0 := rfl
    omega
  · rename_i least
    have above : b.toNat ≤ a.toNat := Nat.not_lt.mp least
    bv_omega

theorem toNat_cmhi (a b : Byte) : (cmhi a b).toNat = if b.toNat < a.toNat then 255 else 0 := by
  unfold cmhi
  rw [apply_ite BitVec.toNat]
  rfl

/-- A mask keeps the bytes that pass its comparison. -/
theorem toNat_cmhi_and (a b : Byte) :
    (cmhi a b &&& a).toNat = if b.toNat < a.toNat then a.toNat else 0 := by
  unfold cmhi
  by_cases above : b < a
  · rw [if_pos above, if_pos (show b.toNat < a.toNat from above), BitVec.allOnes_and]
  · rw [if_neg above, if_neg (show ¬ b.toNat < a.toNat from above)]
    exact congrArg BitVec.toNat BitVec.zero_and

/-- A shift by the negated leading zeros of a weight goes to the right. -/
theorem toNat_ushl_neg_clz (a weight : Byte) :
    (ushl a (-weight.clz)).toNat = a.toNat >>> weight.clz.toNat := by
  have few : weight.clz.toNat ≤ 8 := BitVec.clz_le
  unfold ushl
  rw [neg_neg]
  by_cases full : weight.clz = 0
  · rw [full, if_pos (by decide)]
    simp
  · have negative : ¬ 0 ≤ (-weight.clz).toInt := by
      have some : weight.clz.toNat ≠ 0 := fun none => full (BitVec.eq_of_toNat_eq none)
      rw [BitVec.toInt_eq_toNat_cond, BitVec.toNat_neg]
      split <;> omega
    rw [if_neg negative, BitVec.toNat_ushiftRight]

theorem toNat_uqshlImm (a : Byte) (shift : Nat) : (uqshlImm a shift).toNat = min 255 (a.toNat * 2 ^ shift) := by
  unfold uqshlImm
  split
  · have most : (255 : Byte).toNat = 255 := rfl
    omega
  · rw [BitVec.toNat_shiftLeft, Nat.shiftLeft_eq]
    omega

end Bytes

namespace Cpu

/-- A subtraction sets the flags from its operands. -/
def compare (a b : Word) (s : Cpu) : Cpu :=
  { s with flags := ⟨(a - b).msb, a - b == 0, decide (b ≤ a), a.ssubOverflow b⟩ }

def setX (d : Fin 31) (value : Word) (s : Cpu) : Cpu := { s with x := Function.update s.x d value }

def setV (d : Fin 32) (value : Lanes) (s : Cpu) : Cpu := { s with v := Function.update s.v d value }

/-- An access of memory is recorded and moves its base register. -/
def access (direction : Direction) (n : Fin 31) (bytes post : Nat) (s : Cpu) : Cpu :=
  { s with
    x := Function.update s.x n (s.x n + BitVec.ofNat 64 post)
    trace := s.trace ++ [⟨direction, s.x n, bytes⟩] }

/-- The byte at a distance from a base register. -/
def byteAt (s : Cpu) (n : Fin 31) (distance : Nat) : Byte := s.mem (s.x n + BitVec.ofNat 64 distance)

/-- A store replaces a range of bytes. -/
def storeBytes (n : Fin 31) (bytes : Nat) (value : Nat → Byte) (s : Cpu) : Cpu :=
  { s with mem := overwritten (s.x n) bytes value s.mem }

def exec : Op → Cpu → Cpu
  | .lsr .w d n shift, s => s.setX d (((s.x n).setWidth 32 >>> shift).setWidth 64)
  | .lsr .x d n shift, s => s.setX d (s.x n >>> shift)
  | .subs d n imm, s =>
      (s.compare (s.x n) (.ofNat 64 imm)).setX d (s.x n - .ofNat 64 imm)
  | .cmp n imm, s => s.compare (s.x n) (.ofNat 64 imm)
  | .dup .b8 d n, s => s.setV d fun i => if i.val < 8 then (s.x n).setWidth 8 else 0
  | .dup .b16 d n, s => s.setV d fun _ => (s.x n).setWidth 8
  | .ldr t n post, s => (s.access .load n 16 post).setV t fun i => s.byteAt n i
  | .str t n post, s => (s.storeBytes n 16 fun k => s.v t (.ofNat 16 k)).access .store n 16 post
  | .ld3 t n post, s =>
      (s.access .load n 48 post)
        |>.setV t (fun i => s.byteAt n (3 * i))
        |>.setV (t + 1) (fun i => s.byteAt n (3 * i + 1))
        |>.setV (t + 2) (fun i => s.byteAt n (3 * i + 2))
  | .st3 t n post, s =>
      (s.storeBytes n 48 fun k => s.v (t + .ofNat 32 (k % 3)) (.ofNat 16 (k / 3))).access .store n 48 post
  | .ld3Lane t lane n post, s =>
      (s.access .load n 3 post)
        |>.setV t (Function.update (s.v t) lane (s.byteAt n 0))
        |>.setV (t + 1) (Function.update (s.v (t + 1)) lane (s.byteAt n 1))
        |>.setV (t + 2) (Function.update (s.v (t + 2)) lane (s.byteAt n 2))
  | .st1Lane t lane n post, s => (s.storeBytes n 1 fun _ => s.v t lane).access .store n 1 post
  | .clz d n, s => s.setV d fun i => (s.v n i).clz
  | .neg d n, s => s.setV d fun i => -s.v n i
  | .ushrImm d n shift, s => s.setV d fun i => s.v n i >>> shift
  | .uqshlImm d n shift, s => s.setV d fun i => uqshlImm (s.v n i) shift
  | .cmhi d n m, s => s.setV d fun i => cmhi (s.v n i) (s.v m i)
  | .and d n m, s => s.setV d fun i => s.v n i &&& s.v m i
  | .orr d n m, s => s.setV d fun i => s.v n i ||| s.v m i
  | .ushl d n m, s => s.setV d fun i => ushl (s.v n i) (s.v m i)
  | .uqshl d n m, s => s.setV d fun i => uqshl (s.v n i) (s.v m i)
  | .uqadd d n m, s => s.setV d fun i => uqadd (s.v n i) (s.v m i)
  | .uqsub d n m, s => s.setV d fun i => uqsub (s.v n i) (s.v m i)

def holds : Cond → Cpu → Bool
  | .eq, s => s.flags.z
  | .ne, s => !s.flags.z
  | .lo, s => !s.flags.c
  | .hs, s => s.flags.c
  | .lt, s => s.flags.n != s.flags.v
  | .gt, s => !s.flags.z && s.flags.n == s.flags.v

/-- The addresses that a run accesses in one direction. -/
def touched (direction : Direction) (s : Cpu) : Set Word :=
  {a | ∃ event ∈ s.trace, event.direction = direction ∧ a ∈ span event.address event.bytes}

end Cpu

def isa : InstructionSet Cpu Op Cond := ⟨Cpu.exec, Cpu.holds⟩

section Compared

variable (a b : Word) (s : Cpu)

/-- After a comparison the condition `lt` is the signed order. -/
theorem holds_lt_compare : isa.holds .lt (s.compare a b) = a.slt b := by
  have first := a.toInt_lt
  have second := b.toInt_lt
  have third := a.le_toInt
  have fourth := b.le_toInt
  have difference : (a - b).toInt = (a.toInt - b.toInt).bmod (2 ^ 64) := BitVec.toInt_sub
  rw [Int.bmod_def] at difference
  change ((a - b).msb != a.ssubOverflow b) = _
  rw [BitVec.msb_eq_toInt, BitVec.ssubOverflow, BitVec.slt]
  by_cases above : a.toInt - b.toInt ≥ 2 ^ 63
  · simp only [above, decide_true, Bool.true_or]
    rw [decide_eq_true (by omega), decide_eq_false (by omega)]
    rfl
  · by_cases below : a.toInt - b.toInt < -2 ^ 63
    · simp only [above, below, decide_true, decide_false, Bool.false_or]
      rw [decide_eq_false (by omega), decide_eq_true (by omega)]
      rfl
    · simp only [above, below, decide_false, Bool.false_or, Bool.bne_false]
      exact decide_eq_decide.mpr (by omega)

theorem holds_eq_compare : isa.holds .eq (s.compare a b) = decide (a = b) := by
  change (a - b == 0) = _
  rw [beq_eq_decide]
  exact decide_eq_decide.mpr sub_eq_zero

/-- A comparison that finds neither less nor equal finds greater. -/
theorem holds_gt_compare (less : a.slt b = false) (apart : a ≠ b) : isa.holds .gt (s.compare a b) = true := by
  have first := holds_lt_compare a b s
  have second := holds_eq_compare a b s
  rw [less] at first
  rw [decide_eq_false apart] at second
  change ((a - b).msb != a.ssubOverflow b) = false at first
  change (a - b == 0) = false at second
  change (!(a - b == 0) && (a - b).msb == a.ssubOverflow b) = true
  rw [second, Bool.not_false, Bool.true_and]
  rw [bne_eq_false_iff_eq] at first
  rw [first, beq_self_eq_true]

end Compared

end VisionServer.Library.Aarch64
