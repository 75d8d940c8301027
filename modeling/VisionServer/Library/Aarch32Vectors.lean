/-
This file gives more of the 32-bit ARM vector instructions and what straight code with them keeps.
-/

import VisionServer.Library.Aarch32

namespace VisionServer.Library.Aarch32.Vector
open Library.Assembly
open Library.Aarch64 (Byte Lanes uqsub ushl)

/-- The plain instructions are extended by duplications, counts, unsigned shifts and differences and by the
loads and stores of several doubleword registers. -/
inductive Op where
  | plain (op : Aarch32.Op)
  | vdup (d t : Fin 16)
  | vclz (d m : Fin 16)
  | vshlU8 (d m n : Fin 16)
  | vqsubU8 (d n m : Fin 16)
  | vorr (d n m : Fin 16)
  | vld3 (first second third : Fin 32) (n : Fin 16)
  | vst1Two (first second : Fin 32) (n : Fin 16)
deriving DecidableEq

/-- A doubleword register is one half of its quadword register. -/
def setD (d : Fin 32) (value : Nat → Byte) (s : Cpu) : Cpu :=
  s.setQ (quad d) fun i => if i.val / 8 = d.val % 2 then value (i.val % 8) else s.q (quad d) i

def exec : Op → Cpu → Cpu
  | .plain op, s => s.exec op
  | .vdup d t, s => s.setQ d fun _ => (s.r t).setWidth 8
  | .vclz d m, s => s.setQ d fun i => (s.q m i).clz
  | .vshlU8 d m n, s => s.setQ d fun i => ushl (s.q m i) (s.q n i)
  | .vqsubU8 d n m, s => s.setQ d fun i => uqsub (s.q n i) (s.q m i)
  | .vorr d n m, s => s.setQ d fun i => s.q n i ||| s.q m i
  | .vld3 first second third n, s =>
      (setD third (fun j => s.byteAt n (3 * j + 2))
        (setD second (fun j => s.byteAt n (3 * j + 1)) (setD first (fun j => s.byteAt n (3 * j)) s))).setR n
          (s.r n + 24)
  | .vst1Two first second n, s => (s.exec (.vst1 first n)).exec (.vst1 second n)

def isa : InstructionSet Cpu Op Cond := ⟨exec, Cpu.holds⟩

@[simp] theorem exec_plain (op : Aarch32.Op) (s : Cpu) : isa.exec (.plain op) s = Aarch32.isa.exec op s := rfl

section Blocks

variable {n : Fin 16} {s : Cpu}

/-- Two halves fill a quadword register. -/
theorem setD_setD {k : Fin 16} {d e : Fin 32} (low : d.val = 2 * k.val) (high : e.val = 2 * k.val + 1)
    (value : Nat → Byte) (s : Cpu) : setD e (fun j => value (8 + j)) (setD d value s) = s.setQ k fun i => value i := by
  have lowParity : d.val % 2 = 0 := by omega
  have highParity : e.val % 2 = 1 := by omega
  simp only [setD, quad_low low, quad_high high, lowParity, highParity, Cpu.setQ, Function.update_self,
    Function.update_idem]
  congr 2
  funext i
  have lanes := i.isLt
  by_cases late : 8 ≤ i.val
  · rw [if_pos (by omega), show 8 + i.val % 8 = i.val by omega]
  · rw [if_neg (by omega), if_pos (by omega), show i.val % 8 = i.val by omega]

/-- Halves of different quadword registers are written in any order. -/
theorem setD_comm {d e : Fin 32} (apart : quad d ≠ quad e) (value other : Nat → Byte) (s : Cpu) :
    setD d value (setD e other s) = setD e other (setD d value s) := by
  simp only [setD, Cpu.setQ, Function.update_of_ne apart, Function.update_of_ne apart.symm]
  rw [Function.update_comm apart]

theorem setD_setR (d : Fin 32) (value : Nat → Byte) (a : Word) (s : Cpu) :
    setD d value (s.setR n a) = (setD d value s).setR n a := rfl

theorem add_twentyFour (s : Cpu) (n : Fin 16) (j c : Nat) :
    s.mem (s.r n + 24 + BitVec.ofNat 32 (3 * j + c)) = s.byteAt n (3 * (8 + j) + c) := by
  rw [Cpu.byteAt, show 3 * (8 + j) + c = 24 + (3 * j + c) by omega, BitVec.ofNat_add 24, ← BitVec.add_assoc]
  rfl

/-- Two loads of three doubleword registers separate the channels of sixteen pixels. -/
theorem exec_vld3_pair (s : Cpu) : isa.exec (.vld3 1 3 5 n) (isa.exec (.vld3 0 2 4 n) s) =
    (((s.setQ 0 fun i => s.byteAt n (3 * i)).setQ 1 fun i => s.byteAt n (3 * i + 1)).setQ 2 fun i =>
      s.byteAt n (3 * i + 2)).setR n (s.r n + 48) := by
  have base : s.r n + 24 + 24 = s.r n + 48 := BitVec.add_assoc (s.r n) 24 24
  have behind (c j : Nat) : (isa.exec (.vld3 0 2 4 n) s).byteAt n (3 * j + c) = s.byteAt n (3 * (8 + j) + c) := by
    rw [← add_twentyFour]
    simp only [isa, exec, Cpu.byteAt, Cpu.setR_r, Function.update_self]
    rfl
  have first : (fun j => (isa.exec (.vld3 0 2 4 n) s).byteAt n (3 * j)) = fun j => s.byteAt n (3 * (8 + j)) :=
    funext (behind 0)
  change (setD 5 (fun j => (isa.exec (.vld3 0 2 4 n) s).byteAt n (3 * j + 2))
    (setD 3 (fun j => (isa.exec (.vld3 0 2 4 n) s).byteAt n (3 * j + 1))
      (setD 1 (fun j => (isa.exec (.vld3 0 2 4 n) s).byteAt n (3 * j)) (isa.exec (.vld3 0 2 4 n) s)))).setR n
        ((isa.exec (.vld3 0 2 4 n) s).r n + 24) = _
  rw [first, funext (behind 1), funext (behind 2)]
  have moved : (isa.exec (.vld3 0 2 4 n) s).r n = s.r n + 24 := Function.update_self _ _ _
  rw [moved, base]
  have loaded : isa.exec (.vld3 0 2 4 n) s = (setD 4 (fun j => s.byteAt n (3 * j + 2))
      (setD 2 (fun j => s.byteAt n (3 * j + 1)) (setD 0 (fun j => s.byteAt n (3 * j)) s))).setR n (s.r n + 24) := rfl
  rw [loaded, setD_setR, setD_setR, setD_setR, Cpu.setR_setR,
    setD_comm (d := 1) (e := 4) (by decide), setD_comm (d := 1) (e := 2) (by decide),
    setD_setD (k := 0) rfl rfl (fun i => s.byteAt n (3 * i)), setD_comm (d := 3) (e := 4) (by decide),
    setD_setD (k := 1) rfl rfl (fun i => s.byteAt n (3 * i + 1)),
    setD_setD (k := 2) rfl rfl (fun i => s.byteAt n (3 * i + 2))]

end Blocks

section Compared

variable (a b : Word)

/-- After a comparison the flags `n` and `v` differ in the signed order. -/
theorem msb_bne_ssubOverflow : ((a - b).msb != a.ssubOverflow b) = a.slt b := by
  have first := a.toInt_lt
  have second := b.toInt_lt
  have third := a.le_toInt
  have fourth := b.le_toInt
  have difference : (a - b).toInt = (a.toInt - b.toInt).bmod (2 ^ 32) := BitVec.toInt_sub
  rw [Int.bmod_def] at difference
  rw [BitVec.msb_eq_toInt, BitVec.ssubOverflow, BitVec.slt]
  by_cases above : a.toInt - b.toInt ≥ 2 ^ 31
  · simp only [above, decide_true, Bool.true_or]
    rw [decide_eq_true (by omega), decide_eq_false (by omega)]
    rfl
  · by_cases below : a.toInt - b.toInt < -2 ^ 31
    · simp only [above, below, decide_true, decide_false, Bool.false_or]
      rw [decide_eq_false (by omega), decide_eq_true (by omega)]
      rfl
    · simp only [above, below, decide_false, Bool.false_or, Bool.bne_false]
      exact decide_eq_decide.mpr (by omega)

variable (n : Fin 16) (imm : Nat) (s : Cpu)

theorem holds_lt_cmp : isa.holds .lt (isa.exec (.plain (.cmp n imm)) s) = (s.r n).slt (BitVec.ofNat 32 imm) :=
  msb_bne_ssubOverflow _ _

theorem holds_eq_cmp :
    isa.holds .eq (isa.exec (.plain (.cmp n imm)) s) = decide (s.r n = BitVec.ofNat 32 imm) := by
  change (s.r n - BitVec.ofNat 32 imm == 0) = _
  rw [beq_eq_decide]
  exact decide_eq_decide.mpr sub_eq_zero

theorem holds_gt_cmp : isa.holds .gt (isa.exec (.plain (.cmp n imm)) s) = (BitVec.ofNat 32 imm).slt (s.r n) := by
  have less := holds_lt_cmp n imm s
  have same := holds_eq_cmp n imm s
  generalize isa.exec (.plain (.cmp n imm)) s = compared at less same ⊢
  change (compared.flags.n != compared.flags.v) = _ at less
  change compared.flags.z = _ at same
  have equal : (compared.flags.n == compared.flags.v) = !(s.r n).slt (BitVec.ofNat 32 imm) := by
    rw [← less]
    exact (Bool.not_not _).symm
  change (!compared.flags.z && compared.flags.n == compared.flags.v) = _
  rw [same, equal]
  simp only [BitVec.slt, ← BitVec.toInt_inj]
  by_cases below : (s.r n).toInt < (BitVec.ofNat 32 imm).toInt
  · have above : ¬ (BitVec.ofNat 32 imm).toInt < (s.r n).toInt := by omega
    rw [decide_eq_true below, decide_eq_false above, Bool.not_true, Bool.and_false]
  · rw [decide_eq_false below]
    by_cases equal : (s.r n).toInt = (BitVec.ofNat 32 imm).toInt
    · rw [decide_eq_true equal, decide_eq_false (by omega)]
      rfl
    · rw [decide_eq_false equal, decide_eq_true (by omega)]
      rfl

/-- The conditions `gt` and `le` are opposite. -/
theorem holds_le (s : Cpu) : isa.holds .le s = !isa.holds .gt s := by
  change (s.flags.z || s.flags.n != s.flags.v) = !(!s.flags.z && s.flags.n == s.flags.v)
  cases s.flags.z <;> cases s.flags.n <;> cases s.flags.v <;> rfl

end Compared

section Frames

/-- A word consists of its four bytes. -/
theorem bytes_append (x : Word) :
    x.extractLsb' 24 8 ++ x.extractLsb' 16 8 ++ x.extractLsb' 8 8 ++ x.extractLsb' 0 8 = x := by
  apply BitVec.eq_of_getLsbD_eq
  intro i inside
  simp only [BitVec.getLsbD_append, BitVec.getLsbD_extractLsb']
  by_cases first : i < 8
  · simp [first]
  · by_cases second : i - 8 < 8
    · simp [first, second, show 8 + (i - 8) = i by omega]
    · by_cases third : i - 8 - 8 < 8
      · simp [first, second, third, show 16 + (i - 8 - 8) = i by omega]
      · have last : i - 8 - 8 - 8 < 8 := by omega
        simp [first, second, third, last, show 24 + (i - 8 - 8 - 8) = i by omega]

/-- The frame of the pushed registers lies below the stack pointer. -/
def frame (registers : List (Fin 16)) (s : Cpu) : Set Word :=
  span (s.r sp - BitVec.ofNat 32 (4 * registers.length)) (4 * registers.length)

variable {registers : List (Fin 16)} {s t : Cpu} {k : Fin 16}

/-- A pushed register is found at its place in the frame. -/
theorem word_pushed (few : registers.length ≤ 16) {index : Nat} (inside : index < registers.length) :
    (Aarch32.isa.exec (.push registers) s).word sp (4 * index) = s.r registers[index] := by
  have byte {j : Nat} (below : j < 4) : (Aarch32.isa.exec (.push registers) s).byteAt sp (4 * index + j) =
      (s.r registers[index]).extractLsb' (8 * j) 8 := by
    have place : registers.getD ((4 * index + j) / 4) 0 = registers[index] := by
      rw [show (4 * index + j) / 4 = index by omega, List.getD_eq_getElem?_getD, List.getElem?_eq_getElem inside]
      rfl
    rw [Cpu.byteAt, push_r, Function.update_self]
    simp only [Aarch32.isa, Cpu.exec, Cpu.setR_mem, Cpu.storeBytes_mem]
    rw [overwritten_add (by omega) (by omega), place, show (4 * index + j) % 4 = j by omega]
  rw [Cpu.word, byte (by decide), byte (by decide), byte (by decide)]
  have last := byte (j := 0) (by decide)
  rw [Nat.add_zero] at last
  rw [last]
  exact bytes_append _

/-- Registers without repetitions take the values at their places. -/
theorem foldl_setR (value : Nat → Word) (distinct : registers.Nodup) (start : Nat) (s : Cpu) (k : Fin 16) :
    ((registers.zipIdx start).foldl (fun t (d, index) => t.setR d (value index)) s).r k =
      if k ∈ registers then value (start + registers.idxOf k) else s.r k := by
  induction registers generalizing start s with
  | nil => rfl
  | cons d rest ih =>
      obtain ⟨absent, distinct⟩ := List.nodup_cons.mp distinct
      rw [List.zipIdx_cons, List.foldl_cons, ih distinct]
      by_cases here : k = d
      · subst here
        rw [if_neg absent, if_pos List.mem_cons_self, List.idxOf_cons_self, Cpu.setR_r, Function.update_self]
        rfl
      · by_cases later : k ∈ rest
        · rw [if_pos later, if_pos (List.mem_cons_of_mem _ later), List.idxOf_cons_ne _ (Ne.symm here)]
          congr 1
          omega
        · rw [if_neg later, if_neg fun given => (List.mem_cons.mp given).elim here later, Cpu.setR_r,
            Function.update_of_ne here]

theorem foldl_setR_keeps (value : Nat → Word) (pairs : List (Fin 16 × Nat)) (s : Cpu) :
    (pairs.foldl (fun t (d, index) => t.setR d (value index)) s).mem = s.mem ∧
      (pairs.foldl (fun t (d, index) => t.setR d (value index)) s).q = s.q := by
  induction pairs generalizing s with
  | nil => exact ⟨rfl, rfl⟩
  | cons pair rest ih => exact ih _

/-- Only the frame is popped, so the memory and the vectors are kept. -/
theorem exec_pop_keeps (registers : List (Fin 16)) (s : Cpu) :
    (Aarch32.isa.exec (.pop registers) s).mem = s.mem ∧ (Aarch32.isa.exec (.pop registers) s).q = s.q :=
  foldl_setR_keeps (fun index => s.word sp (4 * index)) registers.zipIdx s

/-- The registers are pushed at the start of a function and popped at its end, while its code has the frame pointer
at the frame. -/
theorem exec_pop_restores (distinct : registers.Nodup) (few : registers.length ≤ 16)
    (pointer : t.r 11 = s.r sp - BitVec.ofNat 32 (4 * registers.length))
    (kept : ∀ a ∈ frame registers s, t.mem a = (Aarch32.isa.exec (.push registers) s).mem a) (k : Fin 16) :
    (Aarch32.isa.exec (.pop registers) (Aarch32.isa.exec (.sub 13 11 0) t)).r k =
      if k ∈ registers ∨ k = sp then s.r k else t.r k := by
  have base : Aarch32.isa.exec (.sub 13 11 0) t =
      t.setR sp (s.r sp - BitVec.ofNat 32 (4 * registers.length)) := by
    change t.setR 13 (t.r 11 - 0#32) = _
    rw [pointer, BitVec.sub_zero]
    rfl
  have word {index : Nat} (inside : index < registers.length) :
      (Aarch32.isa.exec (.sub 13 11 0) t).word sp (4 * index) = s.r registers[index] := by
    have byte {j : Nat} (below : j < 4) : (Aarch32.isa.exec (.sub 13 11 0) t).byteAt sp (4 * index + j) =
        (Aarch32.isa.exec (.push registers) s).byteAt sp (4 * index + j) := by
      rw [base, Cpu.byteAt, Cpu.byteAt, push_r, Cpu.setR_r, Cpu.setR_mem, Function.update_self,
        Function.update_self]
      exact kept _ (add_mem_of_lt _ (by omega))
    rw [← word_pushed few inside, Cpu.word, Cpu.word, byte (by decide), byte (by decide), byte (by decide)]
    have last := byte (j := 0) (by decide)
    rw [Nat.add_zero] at last
    rw [last]
  have popped : (Aarch32.isa.exec (.pop registers) (Aarch32.isa.exec (.sub 13 11 0) t)).r k =
      Function.update (registers.zipIdx.foldl (fun u (d, index) => u.setR d
        ((Aarch32.isa.exec (.sub 13 11 0) t).word sp (4 * index))) (Aarch32.isa.exec (.sub 13 11 0) t)).r sp
          (s.r sp) k := by
    have top : (Aarch32.isa.exec (.sub 13 11 0) t).r sp + BitVec.ofNat 32 (4 * registers.length) = s.r sp := by
      rw [base, Cpu.setR_r, Function.update_self, BitVec.sub_add_cancel]
    rw [← top]
    rfl
  rw [popped]
  by_cases top : k = sp
  · rw [top, Function.update_self, if_pos (Or.inr rfl)]
  · rw [Function.update_of_ne top, foldl_setR (fun index => Cpu.word _ sp (4 * index)) distinct]
    by_cases saved : k ∈ registers
    · have inside := List.idxOf_lt_length_of_mem saved
      rw [if_pos saved, if_pos (Or.inl saved), Nat.zero_add, word inside, List.getElem_idxOf]
    · rw [if_neg saved, if_neg (not_or.mpr ⟨saved, top⟩), base, Cpu.setR_r, Function.update_of_ne top]

end Frames

section Straight

/-- The quadword registers that an instruction writes. -/
def Op.quads : Op → List (Fin 16)
  | .plain (.vld1 d _) => [quad d]
  | .plain (.vcgtU8 d _ _) => [d]
  | .plain (.vand d _ _) => [d]
  | .plain (.vshrU8 d _ _) => [d]
  | .plain (.vnegS8 d _) => [d]
  | .plain (.vshlS8 d _ _) => [d]
  | .plain (.vshlImm d _ _) => [d]
  | .plain (.vqaddU8 d _ _) => [d]
  | .plain _ => []
  | .vdup d _ => [d]
  | .vclz d _ => [d]
  | .vshlU8 d _ _ => [d]
  | .vqsubU8 d _ _ => [d]
  | .vorr d _ _ => [d]
  | .vld3 first second third _ => [quad first, quad second, quad third]
  | .vst1Two _ _ _ => []

/-- A load or a store moves its base register. -/
def Op.moves : Op → Option (Fin 16 × Nat)
  | .plain (.vld1 _ n) => some (n, 8)
  | .plain (.vst1 _ n) => some (n, 8)
  | .vld3 _ _ _ n => some (n, 24)
  | .vst1Two _ _ n => some (n, 16)
  | _ => none

/-- A vector instruction changes no general register except by its access. -/
def Op.isVector : Op → Bool
  | .plain (.push _) => false
  | .plain (.pop _) => false
  | .plain (.add _ _ _) => false
  | .plain (.sub _ _ _) => false
  | .plain (.lsr _ _) => false
  | .plain (.ldr _ _ _) => false
  | .plain (.cmp _ _) => false
  | _ => true

/-- A vector instruction without a store keeps the memory. -/
def Op.isLoad : Op → Bool
  | .plain (.vst1 _ _) => false
  | .vst1Two _ _ _ => false
  | op => op.isVector

/-- The bytes by which straight code moves a base register. -/
def advance (k : Fin 16) : List Op → Nat
  | [] => 0
  | op :: rest =>
      match op.moves with
      | none => advance k rest
      | some (n, bytes) => (if k = n then bytes else 0) + advance k rest

variable {op : Op} {ops : List Op} {k : Fin 16}

theorem exec_q (outside : k ∉ op.quads) (s : Cpu) : (isa.exec op s).q k = s.q k := by
  cases op with
  | plain op =>
      cases op with
      | vld1 | vcgtU8 | vand | vshrU8 | vnegS8 | vshlS8 | vshlImm | vqaddU8 =>
          exact Function.update_of_ne (List.ne_of_not_mem_cons outside) _ _
      | pop registers => exact congrFun (exec_pop_keeps registers s).2 k
      | push | add | sub | lsr | ldr | cmp | vst1 => rfl
  | vdup | vclz | vshlU8 | vqsubU8 | vorr => exact Function.update_of_ne (List.ne_of_not_mem_cons outside) _ _
  | vld3 first second third n =>
      simp only [Op.quads, List.mem_cons, List.not_mem_nil, or_false, not_or] at outside
      obtain ⟨one, two, three⟩ := outside
      change Function.update _ (quad third) _ k = _
      rw [Function.update_of_ne three]
      change Function.update _ (quad second) _ k = _
      rw [Function.update_of_ne two]
      exact Function.update_of_ne one _ _
  | vst1Two => rfl

/-- Straight code keeps the registers that none of its instructions writes. -/
theorem execAll_q (outside : ∀ op ∈ ops, k ∉ op.quads) (s : Cpu) : (execAll isa ops s).q k = s.q k := by
  induction ops generalizing s with
  | nil => rfl
  | cons op rest ih =>
      refine (ih (fun later member => outside later (List.mem_cons_of_mem _ member)) _).trans ?_
      exact exec_q (outside op List.mem_cons_self) s

theorem update_add (s : Cpu) (n : Fin 16) (bytes : Nat) : Function.update s.r n (s.r n + BitVec.ofNat 32 bytes) k =
    s.r k + BitVec.ofNat 32 (if k = n then bytes else 0) := by
  by_cases here : k = n
  · rw [here, Function.update_self, if_pos rfl]
  · rw [Function.update_of_ne here, if_neg here]
    exact (BitVec.add_zero _).symm

theorem exec_moves (vector : op.isVector) {n : Fin 16} {bytes : Nat} (moves : op.moves = some (n, bytes)) (s : Cpu) :
    (isa.exec op s).r = Function.update s.r n (s.r n + BitVec.ofNat 32 bytes) := by
  cases op with
  | plain op => cases op <;> cases moves <;> rfl
  | vld3 => cases moves; rfl
  | vst1Two first second n =>
      cases moves
      change Function.update (Function.update s.r n _) n (Function.update s.r n _ n + 8) = _
      rw [Function.update_self, Function.update_idem, add_eight_add_eight]
      rfl
  | vdup | vclz | vshlU8 | vqsubU8 | vorr => cases moves

theorem exec_stays (vector : op.isVector) (moves : op.moves = none) (s : Cpu) : (isa.exec op s).r = s.r := by
  cases op with
  | plain op =>
      cases op with
      | push | pop | add | sub | lsr | ldr | cmp => cases vector
      | vld1 | vst1 => cases moves
      | vcgtU8 | vand | vshrU8 | vnegS8 | vshlS8 | vshlImm | vqaddU8 => rfl
  | vld3 | vst1Two => cases moves
  | vdup | vclz | vshlU8 | vqsubU8 | vorr => rfl

/-- Straight vector code moves its base registers. -/
theorem execAll_r (vector : ∀ op ∈ ops, op.isVector) (s : Cpu) (k : Fin 16) :
    (execAll isa ops s).r k = s.r k + BitVec.ofNat 32 (advance k ops) := by
  induction ops generalizing s with
  | nil => exact (BitVec.add_zero _).symm
  | cons op rest ih =>
      have here := vector op List.mem_cons_self
      have later := ih (fun later member => vector later (List.mem_cons_of_mem _ member)) (isa.exec op s)
      cases moves : op.moves with
      | none =>
          rw [execAll_cons, later, exec_stays here moves, advance, moves]
      | some move =>
          obtain ⟨n, bytes⟩ := move
          rw [execAll_cons, later, exec_moves here moves, update_add, advance, moves, BitVec.add_assoc,
            ← BitVec.ofNat_add]

/-- Code that only loads keeps the memory. -/
theorem execAll_mem (loads : ∀ op ∈ ops, op.isLoad) (s : Cpu) : (execAll isa ops s).mem = s.mem := by
  induction ops generalizing s with
  | nil => rfl
  | cons op rest ih =>
      have here : (isa.exec op s).mem = s.mem := by
        have load := loads op List.mem_cons_self
        cases op with
        | plain op =>
            cases op with
            | push | pop | add | sub | lsr | ldr | cmp | vst1 => cases load
            | vld1 | vcgtU8 | vand | vshrU8 | vnegS8 | vshlS8 | vshlImm | vqaddU8 => rfl
        | vst1Two => cases load
        | vdup | vclz | vshlU8 | vqsubU8 | vorr | vld3 => rfl
      exact (ih (fun later member => loads later (List.mem_cons_of_mem _ member)) _).trans here

/-- A final store of a quadword register overwrites a block. -/
theorem mem_of_vst1 (front : List Op) {d e : Fin 32} {q n : Fin 16} {value : Nat → Byte}
    (loads : ∀ op ∈ front, op.isLoad) (vector : ∀ op ∈ front, op.isVector) (stays : advance n front = 0)
    (low : d.val = 2 * q.val) (high : e.val = 2 * q.val + 1) (s : Cpu)
    (lanes : ∀ i : Fin 16, (execAll isa front s).q q i = value i) :
    (isa.exec (.vst1Two d e n) (execAll isa front s)).mem = overwritten (s.r n) 16 value s.mem := by
  have base : (execAll isa front s).r n = s.r n := by
    rw [execAll_r vector, stays]
    exact BitVec.add_zero _
  have stored : isa.exec (.vst1Two d e n) (execAll isa front s) = _ := exec_vst1_pair low high _
  rw [stored, Cpu.setR_mem, Cpu.storeBytes_mem, base, execAll_mem loads]
  apply overwritten_congr
  intro i inside
  rw [lanes, Fin.val_ofNat, Nat.mod_eq_of_lt inside]

end Straight

end VisionServer.Library.Aarch32.Vector
