/-
This file gives the 32-bit ARM instructions of a byte kernel with its stack frame.
-/

import VisionServer.Library.Aarch64

namespace VisionServer.Library.Aarch32
open Library.Aarch64 (Byte Lanes cmhi uqadd)

abbrev Word := BitVec 32

structure Flags where
  n : Bool
  z : Bool
  v : Bool

/-- The stack pointer is the register 13, and two doubleword registers are one quadword register. -/
structure Cpu where
  r : Fin 16 → Word
  q : Fin 16 → Lanes
  flags : Flags
  mem : Word → Byte

/-- Each instruction has its registers and its immediate operands in the order of the assembler. The vector loads
and stores move their base register by the eight bytes of a doubleword register. -/
inductive Op where
  | push (registers : List (Fin 16))
  | pop (registers : List (Fin 16))
  | add (d n : Fin 16) (imm : Nat)
  | sub (d n : Fin 16) (imm : Nat)
  | lsr (d : Fin 16) (shift : Nat)
  | ldr (t n : Fin 16) (offset : Nat)
  | cmp (n : Fin 16) (imm : Nat)
  | vld1 (d : Fin 32) (n : Fin 16)
  | vst1 (d : Fin 32) (n : Fin 16)
  | vcgtU8 (d n m : Fin 16)
  | vand (d n m : Fin 16)
  | vshrU8 (d n : Fin 16) (shift : Nat)
  | vnegS8 (d n : Fin 16)
  | vshlS8 (d m n : Fin 16)
  | vshlImm (d n : Fin 16) (shift : Nat)
  | vqaddU8 (d n m : Fin 16)
deriving DecidableEq

inductive Cond where
  | lt
  | eq
  | gt
  | le
deriving DecidableEq

def sp : Fin 16 := 13

/-- This is the quadword register around a doubleword register. -/
def quad (d : Fin 32) : Fin 16 := .ofNat 16 (d.val / 2)

/-- A negative amount shifts a signed byte to the right. -/
def vshlS8 (a amount : Byte) : Byte :=
  if 0 ≤ amount.toInt then a <<< amount.toNat else a.sshiftRight (-amount).toNat

namespace Cpu

def setR (d : Fin 16) (value : Word) (s : Cpu) : Cpu := { s with r := Function.update s.r d value }

def setQ (d : Fin 16) (value : Lanes) (s : Cpu) : Cpu := { s with q := Function.update s.q d value }

@[simp] theorem setR_r (d : Fin 16) (value : Word) (s : Cpu) : (s.setR d value).r = Function.update s.r d value := rfl

@[simp] theorem setR_setR (d : Fin 16) (value other : Word) (s : Cpu) :
    (s.setR d value).setR d other = s.setR d other := by
  simp only [setR, Function.update_idem]

@[simp] theorem setR_q (d : Fin 16) (value : Word) (s : Cpu) : (s.setR d value).q = s.q := rfl

@[simp] theorem setR_mem (d : Fin 16) (value : Word) (s : Cpu) : (s.setR d value).mem = s.mem := rfl

@[simp] theorem setQ_r (d : Fin 16) (value : Lanes) (s : Cpu) : (s.setQ d value).r = s.r := rfl

@[simp] theorem setQ_q (d : Fin 16) (value : Lanes) (s : Cpu) :
    (s.setQ d value).q = Function.update s.q d value := rfl

@[simp] theorem setQ_mem (d : Fin 16) (value : Lanes) (s : Cpu) : (s.setQ d value).mem = s.mem := rfl

/-- The byte at a distance from a base register. -/
def byteAt (s : Cpu) (n : Fin 16) (distance : Nat) : Byte := s.mem (s.r n + BitVec.ofNat 32 distance)

/-- A word has its least significant byte at its address. -/
def word (s : Cpu) (n : Fin 16) (offset : Nat) : Word :=
  s.byteAt n (offset + 3) ++ s.byteAt n (offset + 2) ++ s.byteAt n (offset + 1) ++ s.byteAt n offset

@[simp] theorem word_setR {d n : Fin 16} (apart : n ≠ d) (value : Word) (s : Cpu) (offset : Nat) :
    (s.setR d value).word n offset = s.word n offset := by
  simp only [word, byteAt, setR_mem, setR_r, Function.update_of_ne apart]

/-- A store replaces a range of bytes. -/
def storeBytes (base : Word) (bytes : Nat) (value : Nat → Byte) (s : Cpu) : Cpu :=
  { s with mem := overwritten base bytes value s.mem }

@[simp] theorem storeBytes_r (base : Word) (bytes : Nat) (value : Nat → Byte) (s : Cpu) :
    (s.storeBytes base bytes value).r = s.r := rfl

@[simp] theorem storeBytes_mem (base : Word) (bytes : Nat) (value : Nat → Byte) (s : Cpu) :
    (s.storeBytes base bytes value).mem = overwritten base bytes value s.mem := rfl

def exec : Op → Cpu → Cpu
  | .push registers, s =>
      let base := s.r sp - .ofNat 32 (4 * registers.length)
      (s.storeBytes base (4 * registers.length) fun k =>
        (s.r (registers.getD (k / 4) 0)).extractLsb' (8 * (k % 4)) 8).setR sp base
  | .pop registers, s =>
      (registers.zipIdx.foldl (fun t (d, index) => t.setR d (s.word sp (4 * index))) s).setR sp
        (s.r sp + .ofNat 32 (4 * registers.length))
  | .add d n imm, s => s.setR d (s.r n + .ofNat 32 imm)
  | .sub d n imm, s => s.setR d (s.r n - .ofNat 32 imm)
  | .lsr d shift, s => s.setR d (s.r d >>> shift)
  | .ldr t n offset, s => s.setR t (s.word n offset)
  | .cmp n imm, s =>
      let b := BitVec.ofNat 32 imm
      { s with flags := ⟨(s.r n - b).msb, s.r n - b == 0, (s.r n).ssubOverflow b⟩ }
  | .vld1 d n, s =>
      (s.setQ (quad d) fun i =>
        if i.val / 8 = d.val % 2 then s.byteAt n (i.val % 8) else s.q (quad d) i).setR n (s.r n + 8)
  | .vst1 d n, s =>
      (s.storeBytes (s.r n) 8 fun k => s.q (quad d) (.ofNat 16 (d.val % 2 * 8 + k))).setR n (s.r n + 8)
  | .vcgtU8 d n m, s => s.setQ d fun i => cmhi (s.q n i) (s.q m i)
  | .vand d n m, s => s.setQ d fun i => s.q n i &&& s.q m i
  | .vshrU8 d n shift, s => s.setQ d fun i => s.q n i >>> shift
  | .vnegS8 d n, s => s.setQ d fun i => -s.q n i
  | .vshlS8 d m n, s => s.setQ d fun i => vshlS8 (s.q m i) (s.q n i)
  | .vshlImm d n shift, s => s.setQ d fun i => s.q n i <<< shift
  | .vqaddU8 d n m, s => s.setQ d fun i => uqadd (s.q n i) (s.q m i)

def holds : Cond → Cpu → Bool
  | .lt, s => s.flags.n != s.flags.v
  | .eq, s => s.flags.z
  | .gt, s => !s.flags.z && s.flags.n == s.flags.v
  | .le, s => s.flags.z || s.flags.n != s.flags.v

end Cpu

def isa : InstructionSet Cpu Op Cond := ⟨Cpu.exec, Cpu.holds⟩

section Pairs

variable {d e : Fin 32} {k n : Fin 16}

theorem quad_low (low : d.val = 2 * k.val) : quad d = k := by
  apply Fin.ext
  change d.val / 2 % 16 = k.val
  omega

theorem quad_high (high : e.val = 2 * k.val + 1) : quad e = k := by
  apply Fin.ext
  change e.val / 2 % 16 = k.val
  omega

theorem add_eight_add_eight (a : Word) : a + 8 + 8 = a + 16 := BitVec.add_assoc a 8 8

theorem add_eight_add (a : Word) {i : Nat} (late : 8 ≤ i) :
    a + 8 + BitVec.ofNat 32 (i - 8) = a + BitVec.ofNat 32 i := by
  have whole : BitVec.ofNat 32 i = BitVec.ofNat 32 8 + BitVec.ofNat 32 (i - 8) := by
    rw [← BitVec.ofNat_add, Nat.add_sub_cancel' late]
  rw [whole, ← BitVec.add_assoc]
  rfl

/-- Both halves of a quadword register are loaded from sixteen bytes. -/
theorem exec_vld1_pair (low : d.val = 2 * k.val) (high : e.val = 2 * k.val + 1) (s : Cpu) :
    isa.exec (.vld1 e n) (isa.exec (.vld1 d n) s) = (s.setQ k fun i => s.byteAt n i).setR n (s.r n + 16) := by
  have lowParity : d.val % 2 = 0 := by omega
  have highParity : e.val % 2 = 1 := by omega
  simp only [isa, Cpu.exec, quad_low low, quad_high high, lowParity, highParity, Cpu.setR, Cpu.setQ, Cpu.byteAt,
    Function.update_self, Function.update_idem, add_eight_add_eight]
  congr 2
  funext i
  have lanes := i.isLt
  by_cases late : 8 ≤ i.val
  · have place : i.val % 8 = i.val - 8 := by omega
    rw [if_pos (by omega), place, add_eight_add _ late]
  · have place : i.val % 8 = i.val := by omega
    rw [if_neg (by omega), if_pos (by omega), place]

/-- Both halves of a quadword register are stored to sixteen bytes. -/
theorem exec_vst1_pair (low : d.val = 2 * k.val) (high : e.val = 2 * k.val + 1) (s : Cpu) :
    isa.exec (.vst1 e n) (isa.exec (.vst1 d n) s) =
      (s.storeBytes (s.r n) 16 fun i => s.q k (.ofNat 16 i)).setR n (s.r n + 16) := by
  have lowParity : d.val % 2 = 0 := by omega
  have highParity : e.val % 2 = 1 := by omega
  simp only [isa, Cpu.exec, quad_low low, quad_high high, lowParity, highParity, Cpu.setR, Cpu.storeBytes,
    Function.update_self, Function.update_idem, add_eight_add_eight]
  congr 1
  simp only [Nat.zero_mul, Nat.zero_add, Nat.one_mul]
  exact overwritten_append (show 8 + 8 ≤ 2 ^ 32 by decide) fun _ _ => rfl

end Pairs

theorem push_mem (registers : List (Fin 16)) (s : Cpu) {a : Word}
    (outside : a ∉ span (s.r sp - BitVec.ofNat 32 (4 * registers.length)) (4 * registers.length)) :
    (isa.exec (.push registers) s).mem a = s.mem a := by
  simp only [isa, Cpu.exec, Cpu.setR_mem, Cpu.storeBytes_mem]
  exact overwritten_of_notMem outside

theorem push_r (registers : List (Fin 16)) (s : Cpu) : (isa.exec (.push registers) s).r =
    Function.update s.r sp (s.r sp - BitVec.ofNat 32 (4 * registers.length)) := rfl

/-- What is above the pushed registers is found behind them. -/
theorem byteAt_push (registers : List (Fin 16)) (s : Cpu) (offset : Nat)
    (small : 4 * registers.length + offset < 2 ^ 32) :
    (isa.exec (.push registers) s).byteAt sp (4 * registers.length + offset) = s.byteAt sp offset := by
  have address : s.r sp - BitVec.ofNat 32 (4 * registers.length) +
      BitVec.ofNat 32 (4 * registers.length + offset) = s.r sp + BitVec.ofNat 32 offset := by
    rw [BitVec.ofNat_add, ← BitVec.add_assoc, BitVec.sub_add_cancel]
  have outside : s.r sp - BitVec.ofNat 32 (4 * registers.length) +
      BitVec.ofNat 32 (4 * registers.length + offset) ∉
        span (s.r sp - BitVec.ofNat 32 (4 * registers.length)) (4 * registers.length) := by
    rw [add_mem_span _ small]
    omega
  simp only [isa, Cpu.exec, Cpu.byteAt, Cpu.setR_r, Cpu.setR_mem, Cpu.storeBytes_mem, Function.update_self]
  rw [overwritten_of_notMem outside, address]

theorem word_push (registers : List (Fin 16)) (s : Cpu) (offset : Nat)
    (small : 4 * registers.length + offset + 3 < 2 ^ 32) :
    (isa.exec (.push registers) s).word sp (4 * registers.length + offset) = s.word sp offset := by
  simp only [Cpu.word, Nat.add_assoc]
  rw [byteAt_push registers s _ (by omega), byteAt_push registers s _ (by omega),
    byteAt_push registers s _ (by omega), byteAt_push registers s _ (by omega)]

end VisionServer.Library.Aarch32
