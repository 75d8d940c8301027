/-
This file decides for which register files the runs of a kernel depend only on what its prototype defines.
-/

import VisionServer.Library.Agreement
import VisionServer.Neon.Continued
import VisionServer.Neon.Gray
import VisionServer.Neon.Marks
import VisionServer.Neon.Passes
import VisionServer.Neon.Streams
import VisionServer.Neon.Weights

namespace VisionServer.Neon
open Library Library.Aarch64 Library.Assembly

/-- The bits of its register that a parameter defines. -/
def Parameter.bits : Parameter → Nat
  | .source _ => 64
  | .dest _ => 64
  | .size => 32
  | .byte => 8

/-- Two register files agree on the bits that the prototype defines. -/
structure Files (k : Kernel) where
  first : Cpu
  second : Cpu
  agree : ∀ index parameter, k.parameters[index]? = some parameter →
    (first.x (.ofNat 31 index)).setWidth parameter.bits = (second.x (.ofNat 31 index)).setWidth parameter.bits

/-- A run starts from a register file and a memory. -/
def start (mem : Word → Byte) (cpu : Cpu) : Cpu := { cpu with mem := mem, trace := [] }

namespace Files

variable {k : Kernel} (files : Files k)

/-- Both runs return with the same accesses and the same memory. -/
def Alike (mem : Word → Byte) : Prop :=
  ∃ s t, k.Ends (start mem files.first) s ∧ k.Ends (start mem files.second) t ∧
    s.trace = t.trace ∧ s.mem = t.mem

/-- The kernel reads the lower half of its size register, or both upper halves are the same. The splitting
kernel selects the same loop, or no byte is above its threshold. -/
def Settled : Prop :=
  (k.narrow = true ∨ k.upper files.first = k.upper files.second) ∧
    (k = .deinterlaceWstb →
      selected (files.first.x 3) = selected (files.second.x 3) ∨ (files.first.x 6).setWidth 8 = (255 : Byte))

end Files

section Rounds

/-- The turns that a kernel makes, where a loop with no pixel counts through all words. -/
def Kernel.rounds (k : Kernel) (cpu : Cpu) : Nat :=
  match k with
  | .deinterlaceTogray =>
      if k.count cpu = 0 then 2 ^ 64 else k.count cpu / 16 + k.count cpu % 16
  | _ => if k.blocks cpu = 0 then 2 ^ 64 else k.blocks cpu

/-- The images of a kernel are accessed once in each turn. -/
def Kernel.accesses (k : Kernel) : Nat := k.sources.length + k.dests.length

theorem Kernel.rounds_gray (cpu : Cpu) : Kernel.deinterlaceTogray.rounds cpu =
    if Kernel.deinterlaceTogray.count cpu = 0 then 2 ^ 64
    else Kernel.deinterlaceTogray.count cpu / 16 + Kernel.deinterlaceTogray.count cpu % 16 := by
  rw [Kernel.rounds]

theorem Kernel.rounds_blocks {k : Kernel} (blockwise : k ≠ .deinterlaceTogray) (cpu : Cpu) :
    k.rounds cpu = if k.blocks cpu = 0 then 2 ^ 64 else k.blocks cpu := by
  cases k with
  | deinterlaceTogray => exact absurd rfl blockwise
  | _ => rfl

/-- The blocks are turned one by one, or the counter wraps around. -/
theorem Kernel.rounds_shape {k : Kernel} (blockwise : k ≠ .deinterlaceTogray) (cpu : Cpu) :
    k.rounds cpu = 2 ^ 64 ∨ 0 < k.rounds cpu ∧ k.rounds cpu ≤ 2 ^ 60 := by
  have small := k.pixels_lt cpu
  unfold pixels at small
  rw [rounds_blocks blockwise]
  split
  · exact Or.inl rfl
  · exact Or.inr (by omega)

theorem Kernel.turns_eq_rounds {k : Kernel} (blockwise : k ≠ .deinterlaceTogray) (cpu : Cpu) :
    turns ((k.prepared cpu).x k.counter) = k.rounds cpu := by
  rw [turns_eq, prepared_counter blockwise, rounds_blocks blockwise]

/-- A streamed kernel records its accesses in each turn. -/
theorem Streams.exists_end {k : Kernel} {loop : Label} {cpu : Cpu} (streams : Streams k loop cpu)
    (touched : (touches (turnOps loop)).length = k.accesses) :
    ∃ t, k.Ends cpu t ∧ t.trace.length = cpu.trace.length + k.rounds cpu * k.accesses := by
  refine ⟨_, (streams.enters _).mpr ((streams.shape.returns_iff _ _).mpr rfl), ?_⟩
  rw [iterate_trace_length streams.shape.turn, Kernel.prepared_trace, touched,
    Kernel.turns_eq_rounds streams.blockwise]

/-- A kernel that goes on in the loop of another kernel records as many accesses there. -/
theorem Continues.exists_end {k : Kernel} {own other : Label} (continues : Continues k own other) (cpu : Cpu)
    (first : (touches (turnOps own)).length = k.accesses)
    (further : (touches (turnOps other)).length = k.accesses) :
    ∃ t, k.Ends cpu t ∧ t.trace.length = cpu.trace.length + k.rounds cpu * k.accesses := by
  obtain ⟨rest, goes⟩ := continues.goes
  have ends (final : Cpu) := returns_shared continues.turn continues.body goes continues.shape
    (k.prepared cpu) final
  have taken : Returns isa neon64 (.label own :: codeAt own neon64) (k.prepared cpu) _ :=
    returns_label.mpr ((ends _).mpr rfl)
  rw [← continues.falls] at taken
  refine ⟨_, returns_block.mpr taken, ?_⟩
  have one := iterate_trace_length continues.turn 1 (k.prepared cpu)
  rw [Function.iterate_one, first, Nat.one_mul, Kernel.prepared_trace] at one
  have positive : 0 < turns ((k.prepared cpu).x k.counter) := Nat.succ_pos _
  rw [iterate_trace_length continues.shape.turn, one, further]
  rw [Kernel.turns_eq_rounds continues.blockwise] at positive ⊢
  obtain ⟨later, rounds⟩ := Nat.exists_eq_add_one_of_ne_zero positive.ne'
  rw [rounds, Nat.succ_mul, Nat.add_sub_cancel]
  omega

/-- The upper half of a size counts whole blocks only. -/
theorem blocks_of_halves (n : Nat) : n / 16 = 2 ^ 28 * (n / 2 ^ 32) + n % 2 ^ 32 / 16 := by
  omega

/-- The blocks and the pixels after them are counted together. -/
theorem upper_of_blocks_and_rest {a b : Nat} (first : a < 2 ^ 64) (second : b < 2 ^ 64)
    (sizes : a % 2 ^ 32 = b % 2 ^ 32) (rounds : (if a = 0 then 2 ^ 64 else a / 16 + a % 16) =
      if b = 0 then 2 ^ 64 else b / 16 + b % 16) : a / 2 ^ 32 = b / 2 ^ 32 := by
  have rest (n : Nat) : n % 16 = n % 2 ^ 32 % 16 := by omega
  have few {n : Nat} (below : n < 2 ^ 64) : n / 16 + n % 16 < 2 ^ 64 := by omega
  by_cases empty : a = 0
  · rw [if_pos empty] at rounds
    split at rounds
    · next other => rw [empty, other]
    · exact absurd rounds.symm (few second).ne
  · rw [if_neg empty] at rounds
    split at rounds
    · exact absurd rounds (few first).ne
    · rw [blocks_of_halves a, blocks_of_halves b, rest a, rest b, sizes] at rounds
      exact Nat.eq_of_mul_eq_mul_left (Nat.two_pow_pos 28) (Nat.add_right_cancel (Nat.add_right_cancel rounds))

theorem upper_of_blocks {a b : Nat} (first : a < 2 ^ 64) (second : b < 2 ^ 64)
    (sizes : a % 2 ^ 32 = b % 2 ^ 32)
    (rounds : (if a / 16 = 0 then 2 ^ 64 else a / 16) = if b / 16 = 0 then 2 ^ 64 else b / 16) :
    a / 2 ^ 32 = b / 2 ^ 32 := by
  have few {n : Nat} (below : n < 2 ^ 64) : n / 16 < 2 ^ 64 := Nat.lt_of_le_of_lt (Nat.div_le_self n 16) below
  have same : a / 16 = b / 16 := by
    split at rounds <;> split at rounds
    · next none other => rw [none, other]
    · exact absurd rounds.symm (few second).ne
    · exact absurd rounds (few first).ne
    · exact rounds
  rw [blocks_of_halves a, blocks_of_halves b, sizes] at same
  exact Nat.eq_of_mul_eq_mul_left (Nat.two_pow_pos 28) (Nat.add_right_cancel same)

/-- The rounds of a kernel that reads the whole size register tell its upper half. -/
theorem Kernel.upper_of_rounds {k : Kernel} (wide : k.narrow ≠ true) {s t : Cpu} (sizes : k.size s = k.size t)
    (rounds : k.rounds s = k.rounds t) : k.upper s = k.upper t := by
  have count (cpu : Cpu) : k.count cpu = (cpu.x k.counter).toNat := if_neg wide
  have first := (s.x k.counter).isLt
  have second := (t.x k.counter).isLt
  by_cases gray : k = .deinterlaceTogray
  · subst gray
    rw [rounds_gray, rounds_gray, count, count] at rounds
    exact upper_of_blocks_and_rest first second sizes rounds
  · rw [rounds_blocks gray, rounds_blocks gray, blocks, blocks, count, count] at rounds
    exact upper_of_blocks first second sizes rounds

/-- The gray kernel records its accesses for each block and for each single pixel. -/
theorem gray_exists_end (cpu : Cpu) : ∃ t, Kernel.deinterlaceTogray.Ends cpu t ∧
    t.trace.length = cpu.trace.length + Kernel.deinterlaceTogray.rounds cpu * 2 := by
  have step (n : Nat) (t : Cpu) (recorded : t.trace.length = cpu.trace.length + n * 2) :
      (execAll isa (turnOps .tograyLoop ++ [.subs 2 2 16]) t).trace.length =
        cpu.trace.length + (n + 1) * 2 := by
    have next := iterate_trace_length tograyLoop_turn 1 t
    rw [Function.iterate_one, recorded] at next
    rw [next, show (touches (turnOps .tograyLoop)).length = 2 from rfl]
    omega
  obtain ⟨t, _, recorded, ends⟩ := exists_gray_stages cpu
    (fun n t => t.trace.length = cpu.trace.length + n * 2) (fun n t _ _ recorded => step n t recorded)
    (fun _ _ recorded => recorded) (Nat.add_zero _).symm
  refine ⟨_, (ends _).mpr rfl, ?_⟩
  have count : Kernel.deinterlaceTogray.count cpu = (cpu.x 2).toNat := rfl
  rw [iterate_trace_length tograySingle_shape.turn, recorded, Kernel.rounds_gray, count,
    show (touches (turnOps .tograySingle)).length = 2 from rfl]
  split <;> omega

/-- Each kernel returns and records its accesses in each turn. -/
theorem Kernel.exists_end (k : Kernel) (cpu : Cpu) :
    ∃ t, k.Ends cpu t ∧ t.trace.length = cpu.trace.length + k.rounds cpu * k.accesses := by
  cases k with
  | threshold => exact (Streamed.threshold.streams cpu).exists_end rfl
  | thresholdBinary => exact (thresholdBinary_streams cpu).exists_end rfl
  | compare3Add => exact (compare3Add_streams cpu).exists_end rfl
  | wst => exact (wst_streams cpu).exists_end rfl
  | deinterlaceWstb =>
      exact (selected_streams cpu).exists_end (by rw [(splitLoop_touches _).1]; rfl)
  | deinterlaceTogray => exact gray_exists_end cpu
  | bitwiseOr => exact (Streamed.bitwiseOr.streams cpu).exists_end rfl
  | bitwiseOr3c => exact bitwiseOr3c_continues.exists_end cpu rfl rfl
  | add => exact (Streamed.add.streams cpu).exists_end rfl
  | add3c => exact (Streamed.add3c.streams cpu).exists_end rfl
  | add3c2 => exact add3c2_continues.exists_end cpu rfl rfl
  | subtract => exact (Streamed.subtract.streams cpu).exists_end rfl

end Rounds

section Agreement

/-- Whole registers and whole vectors are known. -/
def registers (whole : List (Fin 31)) (vectors : List (Fin 32)) : Known where
  x r := if r ∈ whole then 64 else 0
  v r := if r ∈ vectors then 16 else 0
  flags := false

/-- The loops need their pointers, their counters and their constants. -/
def entries : Label → Option Known
  | .threshLoop => some (registers [0, 1, 2] [3])
  | .threshBinLoop => some (registers [0, 1, 2] [3])
  | .cmp3AddLoop => some (registers [0, 1, 2, 3, 4, 5] [])
  | .wstLoop => some (registers [0, 1, 2, 4] [4, 5, 6])
  | .c0SplitWstbLoop => some (registers [0, 1, 2] [4, 5, 6])
  | .c1SplitWstbLoop => some (registers [0, 1, 2] [4, 5, 6])
  | .c2SplitWstbLoop => some (registers [0, 1, 2] [4, 5, 6])
  | .splitWstbEnd => some (registers [] [])
  | .tograyLoop => some (registers [0, 1, 2] [])
  | .tograySingle => some (registers [0, 1, 2] [])
  | .tograyEnd => some (registers [] [])
  | .bitwiseOrLoop => some (registers [0, 1, 2, 3] [])
  | .bitwiseOr3cLoop => some (registers [0, 1, 2, 3] [])
  | .addLoop => some (registers [0, 1, 2, 3] [])
  | .add3cLoop => some (registers [0, 1, 2, 3] [])
  | .add3c2Loop => some (registers [0, 1, 2, 3] [])
  | .subtractLoop => some (registers [0, 1, 2, 3] [])
  | _ => none

theorem entries_checked (name : Label) (entry : Known) (found : entries name = some entry) :
    entry.check entries (codeAt name neon64) = true := by
  cases name <;> cases found <;> decide

/-- The bits that a kernel needs of its arguments. -/
def Kernel.known (k : Kernel) : Known where
  x r :=
    match k.parameters[r.val]? with
    | some .size => if k.narrow then 32 else 64
    | some parameter => parameter.bits
    | none => 0
  v _ := 0
  flags := false

/-- All kernels but the splitting one go the same way when they know these bits. -/
theorem known_checked {k : Kernel} (other : k ≠ .deinterlaceWstb) :
    k.known.check entries (codeAt k.entry neon64) = true := by
  cases k with
  | deinterlaceWstb => exact absurd rfl other
  | _ => decide

theorem size_index : ∀ (k : Kernel) (r : Fin 31), k.parameters[r.val]? = some .size → r = k.counter := by
  intro k
  cases k <;> decide

namespace Files

variable {k : Kernel} (files : Files k)

/-- Files whose upper halves do not matter or agree share the bits that the kernel needs. -/
theorem shares (upper : k.narrow = true ∨ k.upper files.first = k.upper files.second) (mem : Word → Byte) :
    Shares k.known (start mem files.first) (start mem files.second) where
  x r := by
    have agree := files.agree r
    rw [show Fin.ofNat 31 r.val = r from Fin.ofNat_val_eq_self r] at agree
    have low (parameter : Parameter) (found : k.parameters[r.val]? = some parameter) :
        (files.first.x r).toNat % 2 ^ parameter.bits = (files.second.x r).toNat % 2 ^ parameter.bits := by
      have same := congrArg BitVec.toNat (agree parameter found)
      rw [BitVec.toNat_setWidth, BitVec.toNat_setWidth] at same
      exact same
    change (files.first.x r).toNat % 2 ^ k.known.x r = (files.second.x r).toNat % 2 ^ k.known.x r
    cases found : k.parameters[r.val]? with
    | none => simp only [Kernel.known, found, Nat.pow_zero, Nat.mod_one]
    | some parameter =>
        have same := low parameter found
        cases parameter with
        | source | dest | byte =>
            simp only [Kernel.known, found]
            exact same
        | size =>
            simp only [Kernel.known, found]
            by_cases narrow : k.narrow = true
            · rw [if_pos narrow]
              exact same
            · have high := upper.resolve_left narrow
              rw [Kernel.upper, Kernel.upper, ← size_index k r found] at high
              rw [if_neg narrow]
              change _ % 2 ^ 32 = _ % 2 ^ 32 at same
              omega
  v r lane below := absurd below (Nat.not_lt_zero _)
  flags := fun needed => absurd needed Bool.false_ne_true
  mem := rfl
  trace := rfl

/-- The runs of checked code are alike. -/
theorem alike_of_shares {mem : Word → Byte} {code : Text} {known : Known} {s t : Cpu}
    (enters : ∀ final, k.Ends (start mem files.first) final ↔ Returns isa neon64 code s final)
    (again : ∀ final, k.Ends (start mem files.second) final ↔ Returns isa neon64 code t final)
    (needs : known.check entries code = true) (shares : Shares known s t) : files.Alike mem := by
  obtain ⟨final, ended, _⟩ := k.exists_end (start mem files.first)
  obtain ⟨other, taken, sameMem, sameTrace⟩ := shares.returns entries_checked needs ((enters final).mp ended)
  exact ⟨final, other, ended, (again other).mpr taken, sameTrace, sameMem⟩

end Files

end Agreement

section Split

/-- No byte is above a full threshold. -/
theorem cmhi_full (a : Byte) : cmhi a 255 = 0 := by
  unfold cmhi
  apply if_neg
  bv_omega

theorem splitLoop_advance : ∀ (first second : Fin 3) (r : Fin 31),
    advance r (turnOps (splitLoop first)) = advance r (turnOps (splitLoop second)) := by
  decide

/-- The loops mark no pixel with a full threshold. -/
theorem splitLoop_unmarked (alpha beta : Byte) (offset : Fin 3) :
    Stores (turnOps (splitLoop offset)) (Weighs alpha beta 255) 1 0 16 fun _ _ => 0 := by
  have pixelwise := splitLoop_pixelwise alpha beta 255 offset
  refine ⟨pixelwise.kept, fun s kept => ?_, fun _ _ _ _ _ => rfl⟩
  rw [pixelwise.mem s kept]
  apply overwritten_congr
  intro q _
  exact cmhi_full _

/-- A call of the splitting kernel runs the selected loop. -/
def splitRun (cpu : Cpu) : SplitRun where
  offset := selected (cpu.x 3)
  alpha := (cpu.x 4).setWidth 8
  beta := (cpu.x 5).setWidth 8
  threshold := (cpu.x 6).setWidth 8
  cpu := Kernel.deinterlaceWstb.prepared cpu
  weighs := ⟨rfl, rfl, rfl⟩

theorem split_ends {cpu final : Cpu} (ends : Kernel.deinterlaceWstb.Ends cpu final) :
    final = (splitRun cpu).passed (Kernel.deinterlaceWstb.rounds cpu) := by
  have streams := selected_streams cpu
  have finished := (streams.shape.returns_iff _ _).mp ((streams.enters _).mp ends)
  rw [Kernel.turns_eq_rounds (by decide)] at finished
  exact finished

namespace Files

variable (files : Files .deinterlaceWstb)
  (upper : Kernel.deinterlaceWstb.upper files.first = Kernel.deinterlaceWstb.upper files.second)
include upper

/-- The splitting kernel enters its loops with the same pointers, counters and constants. -/
theorem split_shares (mem : Word → Byte) : Shares (registers [0, 1, 2] [4, 5, 6])
    (Kernel.deinterlaceWstb.prepared (start mem files.first))
    (Kernel.deinterlaceWstb.prepared (start mem files.second)) := by
  have known : ∃ next,
      Kernel.deinterlaceWstb.known.afterAll (block (codeAt .memcpyDeinterlaceWstbAsm neon64)) = some next ∧
        (registers [0, 1, 2] [4, 5, 6]).within next = true := ⟨_, rfl, by decide⟩
  obtain ⟨next, after, within⟩ := known
  exact ((files.shares (Or.inr upper) mem).execAll after).mono within

/-- Files that select the same loop go through it in the same way. -/
theorem split_same (same : selected (files.first.x 3) = selected (files.second.x 3)) (mem : Word → Byte) :
    files.Alike mem := by
  have checked (offset : Fin 3) : entries (splitLoop offset) = some (registers [0, 1, 2] [4, 5, 6]) :=
    match offset with
    | 0 => rfl
    | 1 => rfl
    | 2 => rfl
  have second (final : Cpu) : Kernel.deinterlaceWstb.Ends (start mem files.second) final ↔
      Returns isa neon64 (codeAt (splitLoop (selected (files.first.x 3))) neon64)
        (Kernel.deinterlaceWstb.prepared (start mem files.second)) final := by
    rw [same]
    exact selected_enters _ final
  exact files.alike_of_shares (selected_enters _) second (entries_checked _ _ (checked _))
    (files.split_shares upper mem)

omit upper in
/-- The constants of the second file are those of the first one. -/
theorem weighs_second (mem : Word → Byte) :
    Weighs ((files.first.x 4).setWidth 8) ((files.first.x 5).setWidth 8) ((files.first.x 6).setWidth 8)
      (Kernel.deinterlaceWstb.prepared (start mem files.second)).v := by
  have alpha : (files.first.x 4).setWidth 8 = (files.second.x 4).setWidth 8 := files.agree 4 .byte rfl
  have beta : (files.first.x 5).setWidth 8 = (files.second.x 5).setWidth 8 := files.agree 5 .byte rfl
  have threshold : (files.first.x 6).setWidth 8 = (files.second.x 6).setWidth 8 := files.agree 6 .byte rfl
  rw [alpha, beta, threshold]
  exact ⟨rfl, rfl, rfl⟩

/-- Files with a full threshold clear the same blocks in all loops. -/
theorem split_full (full : (files.first.x 6).setWidth 8 = (255 : Byte)) (mem : Word → Byte) :
    files.Alike mem := by
  have shares := files.split_shares upper mem
  have first := selected_streams (start mem files.first)
  have second := selected_streams (start mem files.second)
  have touched := splitLoop_touches (selected (files.first.x 3))
  have others := splitLoop_touches (selected (files.second.x 3))
  have kept : Weighs ((files.first.x 4).setWidth 8) ((files.first.x 5).setWidth 8)
      ((files.first.x 6).setWidth 8) (Kernel.deinterlaceWstb.prepared (start mem files.first)).v :=
    ⟨rfl, rfl, rfl⟩
  have again := files.weighs_second mem
  rw [full] at kept again
  have pointers : ∀ touch ∈ touches (turnOps (splitLoop (selected (files.first.x 3)))),
      (Kernel.deinterlaceWstb.prepared (start mem files.first)).x touch.n =
        (Kernel.deinterlaceWstb.prepared (start mem files.second)).x touch.n := by
    intro touch member
    rw [touched.1, List.mem_cons, List.mem_singleton] at member
    rcases member with rfl | rfl
    · exact shares.same_x (by decide)
    · exact shares.same_x (by decide)
  have counts : (Kernel.deinterlaceWstb.prepared (start mem files.first)).x Kernel.deinterlaceWstb.counter =
      (Kernel.deinterlaceWstb.prepared (start mem files.second)).x Kernel.deinterlaceWstb.counter :=
    shares.same_x (by decide)
  obtain ⟨sameMem, sameTrace⟩ := (splitLoop_unmarked _ _ (selected (files.first.x 3))).iterate_alike
    (splitLoop_unmarked _ _ (selected (files.second.x 3))) first.shape.turn second.shape.turn
    (others.1.trans touched.1.symm) (splitLoop_advance _ _) (by decide) kept again
    (shares.same_x (by decide)) pointers shares.mem shares.trace
    (turns ((Kernel.deinterlaceWstb.prepared (start mem files.first)).x Kernel.deinterlaceWstb.counter))
  refine ⟨_, _, (first.enters _).mpr ((first.shape.returns_iff _ _).mpr rfl),
    (second.enters _).mpr ((second.shape.returns_iff _ _).mpr rfl), ?_, ?_⟩
  · rw [← counts]
    exact sameTrace
  · rw [← counts]
    exact sameMem

end Files

end Split

namespace Files

variable {k : Kernel} (files : Files k)

theorem alike_of_settled (settled : files.Settled) (mem : Word → Byte) : files.Alike mem := by
  obtain ⟨upper, branch⟩ := settled
  by_cases splits : k = .deinterlaceWstb
  · subst splits
    have halves := upper.resolve_left (by decide)
    rcases branch rfl with same | full
    · exact files.split_same halves same mem
    · exact files.split_full halves full mem
  · exact files.alike_of_shares (fun _ => Iff.rfl) (fun _ => Iff.rfl) (known_checked splits)
      (files.shares upper mem)

theorem size_eq : k.size files.first = k.size files.second := by
  have listed : k.parameters[k.counter.val]? = some .size := by
    cases k <;> rfl
  have agree := congrArg BitVec.toNat (files.agree _ _ listed)
  rw [BitVec.toNat_setWidth, BitVec.toNat_setWidth, Fin.ofNat_val_eq_self] at agree
  exact agree

/-- Alike runs make as many rounds. -/
theorem rounds_eq {mem : Word → Byte} (alike : files.Alike mem) :
    k.rounds files.first = k.rounds files.second := by
  obtain ⟨s, t, first, second, trace, _⟩ := alike
  obtain ⟨u, one, long⟩ := k.exists_end (start mem files.first)
  obtain ⟨v, other, longer⟩ := k.exists_end (start mem files.second)
  obtain rfl := one.unique first
  obtain rfl := other.unique second
  have accesses : 0 < k.accesses := by
    cases k <;> decide
  rw [trace] at long
  have same : k.rounds files.first * k.accesses = k.rounds files.second * k.accesses :=
    Nat.add_left_cancel (long.symm.trans longer)
  exact Nat.eq_of_mul_eq_mul_right accesses same

/-- The kernel reads no upper half, or both are the same. -/
theorem upper_of_alike {mem : Word → Byte} (alike : files.Alike mem) :
    k.narrow = true ∨ k.upper files.first = k.upper files.second := by
  by_cases narrow : k.narrow = true
  · exact Or.inl narrow
  · exact Or.inr (Kernel.upper_of_rounds narrow files.size_eq (files.rounds_eq alike))

/-- A telltale memory for the loop of the first file tells the loops from each other. -/
theorem selected_of_alike {files : Files .deinterlaceWstb} (alike : ∀ mem, files.Alike mem)
    (below : (files.first.x 6).setWidth 8 ≠ (255 : Byte)) :
    selected (files.first.x 3) = selected (files.second.x 3) := by
  have source : files.first.x 0 = files.second.x 0 := files.agree 0 (.source 3) rfl
  have dest : files.first.x 1 = files.second.x 1 := files.agree 1 (.dest 1) rfl
  have threshold : (files.first.x 6).setWidth 8 = (files.second.x 6).setWidth 8 := files.agree 6 .byte rfl
  have other : (files.second.x 6).setWidth 8 ≠ (255 : Byte) := threshold ▸ below
  have rounds := files.rounds_eq (alike fun _ => 0)
  obtain ⟨mem, place, telltale⟩ := exists_telltale (files.first.x 0) (files.first.x 1)
    (Kernel.rounds_shape (k := .deinterlaceWstb) (by decide) files.first) (selected (files.first.x 3))
  obtain ⟨s, t, first, second, _, same⟩ := alike mem
  have marked := telltale (splitRun (start mem files.first)) below rfl rfl rfl
  have unmarked := telltale (splitRun (start mem files.second)) other source.symm dest.symm rfl
  rw [split_ends first, split_ends second] at same
  change ((splitRun (start mem files.first)).passed (Kernel.deinterlaceWstb.rounds files.first)).mem =
    ((splitRun (start mem files.second)).passed (Kernel.deinterlaceWstb.rounds files.second)).mem at same
  rw [← rounds] at same
  by_contra apart
  rw [if_neg (show (splitRun (start mem files.second)).offset ≠ selected (files.first.x 3) from
    fun equal => apart equal.symm)] at unmarked
  rw [if_pos (show (splitRun (start mem files.first)).offset = selected (files.first.x 3) from rfl), same,
    unmarked] at marked
  cases marked

theorem settled_of_alike (alike : ∀ mem, files.Alike mem) : files.Settled := by
  refine ⟨files.upper_of_alike (alike fun _ => 0), fun splits => ?_⟩
  subst splits
  by_cases full : (files.first.x 6).setWidth 8 = (255 : Byte)
  · exact Or.inr full
  · exact Or.inl (selected_of_alike alike full)

end Files

/-- The runs of two register files are alike in every memory if and only if the files are settled. -/
theorem alike_iff_settled {k : Kernel} (files : Files k) : (∀ mem, files.Alike mem) ↔ files.Settled :=
  ⟨files.settled_of_alike, files.alike_of_settled⟩

/-- One block is passed with different upper halves of the size register. -/
def blockFiles (k : Kernel) : Files k where
  first := farPlanes k 16 0 fun _ => 0
  second := farPlanes k (2 ^ 32 + 16) 0 fun _ => 0
  agree := by
    intro index parameter found
    have few : k.parameters.length ≤ 8 := by
      cases k <;> decide
    have listed := (List.getElem?_eq_some_iff.mp found).1
    have each : ∀ index : Fin 8, ∀ parameter ∈ k.parameters[index.val]?,
        ((farPlanes k 16 0 fun _ => 0).x (.ofNat 31 index)).setWidth parameter.bits =
          ((farPlanes k (2 ^ 32 + 16) 0 fun _ => 0).x (.ofNat 31 index)).setWidth parameter.bits := by
      cases k <;> decide
    exact each ⟨index, Nat.lt_of_lt_of_le listed few⟩ parameter found

/-- The thresholding kernel reads the lower halves alone. -/
theorem blockFiles_threshold_alike :
    (blockFiles .threshold).Settled ∧ (blockFiles .threshold).Alike fun _ => 0 := by
  have settled : (blockFiles .threshold).Settled := ⟨Or.inl rfl, fun other => nomatch other⟩
  exact ⟨settled, (alike_iff_settled (blockFiles .threshold)).mpr settled _⟩

/-- The subtracting kernel counts the upper halves as pixels. -/
theorem blockFiles_subtract_not_alike : ¬ (blockFiles .subtract).Alike fun _ => 0 := by
  intro given
  rcases (blockFiles .subtract).upper_of_alike given with narrow | same
  · cases narrow
  · exact absurd same (by decide)

end VisionServer.Neon
