/-
This file decides which calls are exact for the kernels that go from one loop to another.
-/

import VisionServer.Neon.Extent

namespace VisionServer.Neon
open Library Library.Aarch64 Library.Assembly

section Deinterlace

theorem splitWstbEnd_leaves (rest : Text) (t final : Cpu) (zero : t.flags.z = true) :
    Returns isa neon64 (.branch .eq .splitWstbEnd :: rest) t final ↔ final = t := by
  rw [returns_branch, show isa.holds .eq t = true from zero]
  exact returns_ret

theorem c0SplitWstbLoop_shape : Loop 2 .c0SplitWstbLoop :=
  ⟨⟨by decide, by decide, by decide⟩, rfl, _, rfl, splitWstbEnd_leaves _⟩

theorem c1SplitWstbLoop_shape : Loop 2 .c1SplitWstbLoop :=
  ⟨⟨by decide, by decide, by decide⟩, rfl, _, rfl, splitWstbEnd_leaves _⟩

theorem c2SplitWstbLoop_shape : Loop 2 .c2SplitWstbLoop :=
  ⟨⟨by decide, by decide, by decide⟩, rfl, _, rfl, splitWstbEnd_leaves _⟩

/-- The three loops have the same footprint. -/
theorem deinterlaceWstb_regular {loop : Label}
    (member : loop ∈ [Label.c0SplitWstbLoop, .c1SplitWstbLoop, .c2SplitWstbLoop]) :
    Regular .deinterlaceWstb (turnOps loop) := by
  simp only [List.mem_cons, List.not_mem_nil, or_false] at member
  rcases member with rfl | rfl | rfl
  · exact ⟨by decide, by decide, by decide, by decide, 1, 1, rfl, by decide, by decide⟩
  · exact ⟨by decide, by decide, by decide, by decide, 1, 1, rfl, by decide, by decide⟩
  · exact ⟨by decide, by decide, by decide, by decide, 1, 1, rfl, by decide, by decide⟩

/-- The offset selects one of the three loops. -/
theorem deinterlaceWstb_enters (c : Call .deinterlaceWstb) :
    ∃ loop ∈ [Label.c0SplitWstbLoop, .c1SplitWstbLoop, .c2SplitWstbLoop],
      ∀ final, c.Ends final ↔ Returns isa neon64 (codeAt loop neon64) c.prepared final := by
  have branches (final : Cpu) : c.Ends final ↔ Returns isa neon64
      (afterBlock (codeAt .memcpyDeinterlaceWstbAsm neon64)) c.prepared final := returns_block
  have three : ∃ rest, afterBlock (codeAt .memcpyDeinterlaceWstbAsm neon64) =
      .branch .lt .c0SplitWstbLoop :: .branch .eq .c1SplitWstbLoop ::
        .branch .gt .c2SplitWstbLoop :: .label .c0SplitWstbLoop :: rest ∧
          rest = codeAt .c0SplitWstbLoop neon64 := ⟨_, rfl, rfl⟩
  obtain ⟨rest, text, rfl⟩ := three
  simp only [text, returns_branch] at branches
  by_cases lt : isa.holds .lt c.prepared = true
  · refine ⟨_, List.mem_cons_self, fun final => (branches final).trans ?_⟩
    rw [if_pos lt]
  · by_cases eq : isa.holds .eq c.prepared = true
    · refine ⟨.c1SplitWstbLoop, by decide, fun final => (branches final).trans ?_⟩
      rw [if_neg lt, returns_branch, if_pos eq]
    · by_cases gt : isa.holds .gt c.prepared = true
      · refine ⟨.c2SplitWstbLoop, by decide, fun final => (branches final).trans ?_⟩
        rw [if_neg lt, returns_branch, if_neg eq, returns_branch, if_pos gt]
      · refine ⟨_, List.mem_cons_self, fun final => (branches final).trans ?_⟩
        rw [if_neg lt, returns_branch, if_neg eq, returns_branch, if_neg gt, returns_label]

theorem deinterlaceWstb_exact_iff (c : Call .deinterlaceWstb) : c.Exact ↔ c.Fits := by
  obtain ⟨loop, member, enters⟩ := deinterlaceWstb_enters c
  have regular := deinterlaceWstb_regular member
  have shape : Loop Kernel.deinterlaceWstb.counter loop := by
    simp only [List.mem_cons, List.not_mem_nil, or_false] at member
    rcases member with rfl | rfl | rfl
    · exact c0SplitWstbLoop_shape
    · exact c1SplitWstbLoop_shape
    · exact c2SplitWstbLoop_shape
  have prepares : c.Prepares (c.cpu.x 2 >>> 4) := ⟨rfl, rfl⟩
  obtain ⟨t, ends, touched⟩ := shape.exists_ends prepares enters
  rw [regular.exact_iff ends touched]
  exact turns_whole c (lsr_x_toNat _)

end Deinterlace

section Shared

/-- A loop that goes on in the loop of another kernel makes one turn of its own. -/
theorem returns_shared {counter : Fin 31} {own other : Label} {rest : Text}
    (turn : Turn counter 1 (turnOps own))
    (body : block (codeAt own neon64) = turnOps own ++ [.subs counter counter 1])
    (goes : afterBlock (codeAt own neon64) = .branch .ne other :: .ret :: rest)
    (shape : Loop counter other) (s final : Cpu) :
    Returns isa neon64 (codeAt own neon64) s final ↔
      final = (execAll isa (turnOps other ++ [.subs counter counter 1]))^[turns (s.x counter) - 1]
        (execAll isa (turnOps own ++ [.subs counter counter 1]) s) := by
  have walked := (Walked.zero (turnOps own) counter 1 s).turn turn
  have zero := turn_z (turnOps own) counter 1 s
  rw [returns_block, body, goes, returns_branch]
  generalize execAll isa (turnOps own ++ [.subs counter counter 1]) s = u at walked zero
  have left : u.x counter = s.x counter - 1 := walked.count
  rw [left] at zero
  rw [show isa.holds .ne u = !(s.x counter - 1 == 0) from congrArg (!·) zero]
  by_cases last : s.x counter - 1 = 0
  · have none : turns (s.x counter) - 1 = 0 := by
      unfold turns
      rw [last]
      rfl
    rw [last, none]
    exact returns_ret
  · have turnsLeft : turns (s.x counter) - 1 = turns (u.x counter) := by
      rw [left]
      unfold turns
      bv_omega
    rw [if_pos (by rw [Bool.not_eq_true', beq_eq_false_iff_ne]; exact last), shape.returns_iff, turnsLeft]

/-- A kernel that goes on in the loop of another kernel has the footprints of both. -/
theorem exists_ends_of_shared {k : Kernel} {c : Call k} {own other : Label} {count : Word} {rest : Text}
    (prepares : c.Prepares count)
    (falls : afterBlock (codeAt k.entry neon64) = .label own :: codeAt own neon64)
    (turn : Turn k.counter 1 (turnOps own))
    (body : block (codeAt own neon64) = turnOps own ++ [.subs k.counter k.counter 1])
    (goes : afterBlock (codeAt own neon64) = .branch .ne other :: .ret :: rest)
    (shape : Loop k.counter other) :
    ∃ t, (∀ final, c.Ends final ↔ final = t) ∧ ∀ direction, t.touched direction =
      c.cpu.touched direction ∪ (loopFootprint direction (turnOps own) 1 c.cpu.x ∪
        loopFootprint direction (turnOps other) (turns count - 1)
          fun r => c.cpu.x r + BitVec.ofNat 64 (advance r (turnOps own))) := by
  have counted : c.prepared.x k.counter = count := by rw [prepares.registers, Function.update_self]
  have walked := (Walked.zero (turnOps own) k.counter 1 c.prepared).turn turn
  have first := prepares.touched turn walked
  have ends (final : Cpu) : c.Ends final ↔ _ :=
    (c.ends_iff_of_falls falls final).trans (returns_shared turn body goes shape c.prepared final)
  generalize execAll isa (turnOps own ++ [.subs k.counter k.counter 1]) c.prepared = u at walked first ends
  rw [counted] at ends
  refine ⟨_, ends, fun direction => ?_⟩
  rw [(walked_iterate shape.turn (turns count - 1) u).touched direction, first direction, Set.union_assoc]
  congr 2
  apply loopFootprint_congr
  intro touch member
  have apart := shape.turn.apart touch member
  rw [walked.pointers touch.n apart, prepares.registers, Function.update_of_ne apart, Nat.zero_add,
    Nat.one_mul]

/-- The own turn is regular, and the other loop writes one channel of each further block. -/
theorem bitwiseOr3c_exact_iff (c : Call .bitwiseOr3c) : c.Exact ↔ c.Fits := by
  have prepares : c.Prepares (c.cpu.x 3 >>> 4) := ⟨rfl, rfl⟩
  obtain ⟨t, ends, touched⟩ := exists_ends_of_shared prepares rfl
    ⟨by decide, by decide, by decide⟩ rfl rfl bitwiseOrLoop_shape
  have regular : Regular .bitwiseOr3c (turnOps .bitwiseOr3cLoop) :=
    ⟨by decide, by decide, by decide, by decide, 2, 3, rfl, by decide, by decide⟩
  have count := turns_eq (c.cpu.x 3 >>> 4)
  rw [lsr_x_toNat] at count
  have small : c.size < 2 ^ 31 := c.size_lt
  have parts : (c.cpu.x 3).toNat = c.upper * 2 ^ 32 + c.size := c.toNat_counter
  have dest : Kernel.bitwiseOr3c.dests = [(2, 3)] := rfl
  rw [Call.exact_iff_of_ends ends, touched, touched, c.touched_fresh, c.touched_fresh,
    Set.empty_union, Set.empty_union, regular.stores_eq, imageBytes_single dest, Call.destBytes,
    imageBytes_single dest]
  constructor
  · intro given
    obtain ⟨_, writes⟩ := given
    rw [bitwiseOr_regular.stores_eq, imageBytes_single (show Kernel.bitwiseOr.dests = [(2, 1)] from rfl),
      show advance 2 (turnOps .bitwiseOr3cLoop) = 1 * 16 * 3 from rfl, ← span_append,
      span_eq_iff (by omega)] at writes
    rw [parts] at count
    split at count <;> refine ⟨?_, ?_⟩ <;> omega
  · intro given
    obtain ⟨size, upper⟩ := given
    have one : turns (c.cpu.x 3 >>> 4) - 1 = 0 := by
      rw [parts, size, upper] at count
      rw [count]
      rfl
    have nothing (direction : Direction) (x : Fin 31 → Word) :
        loopFootprint direction (turnOps .bitwiseOrLoop) 0 x = ∅ := by simp [loopFootprint]
    rw [one, nothing, nothing, Set.union_empty, Set.union_empty, size]
    refine ⟨?_, rfl⟩
    rw [Call.sourceBytes, size]
    exact regular.loads_subset

/-- The other loop reads less of the second source and writes the same blocks. -/
theorem add3c2_exact_iff (c : Call .add3c2) : c.Exact ↔ c.Fits := by
  have prepares : c.Prepares (c.cpu.x 3 >>> 4) := ⟨rfl, rfl⟩
  obtain ⟨t, ends, touched⟩ := exists_ends_of_shared prepares rfl
    ⟨by decide, by decide, by decide⟩ rfl rfl add3cLoop_shape
  have regular : Regular .add3c2 (turnOps .add3c2Loop) :=
    ⟨by decide, by decide, by decide, by decide, 2, 3, rfl, by decide, by decide⟩
  have count := turns_whole c (lsr_x_toNat (c.cpu.x 3))
  have positive : 0 < turns (c.cpu.x 3 >>> 4) := Nat.succ_pos _
  have small : c.size < 2 ^ 31 := c.size_lt
  generalize turns (c.cpu.x 3 >>> 4) = n at touched count positive
  have dest : Kernel.add3c2.dests = [(2, 3)] := rfl
  have others : Kernel.add3c.dests = [(2, 3)] := rfl
  rw [Call.exact_iff_of_ends ends, touched, touched, c.touched_fresh, c.touched_fresh,
    Set.empty_union, Set.empty_union, regular.stores_eq, add3c_regular.stores_eq,
    imageBytes_single dest, imageBytes_single others, Call.destBytes, imageBytes_single dest,
    show advance 2 (turnOps .add3c2Loop) = 1 * 16 * 3 from rfl, ← span_append, span_eq_iff (by omega)]
  refine Iff.trans ?_ count
  constructor
  · intro given
    obtain ⟨_, writes⟩ := given
    omega
  · intro same
    refine ⟨?_, by omega⟩
    rw [Call.sourceBytes, ← same]
    apply Set.union_subset
    · apply regular.loads_subset.trans
      exact imageBytes_mono (by omega) c.cpu.x
    · apply add3c_regular.loads_subset.trans
      intro a given
      obtain ⟨image, member, found⟩ := given
      rw [show Kernel.add3c.sources = [(0, 3), (1, 1)] from rfl, List.mem_cons, List.mem_singleton] at member
      rcases member with rfl | rfl
      · exact ⟨(0, 3), by decide, span_mono (by simp only; omega) (span_add_subset _ (1 * 16 * 3) _ found)⟩
      · exact ⟨(1, 3), by decide, span_mono (by simp only; omega) (span_add_subset _ (1 * 16 * 3) _ found)⟩

end Shared

section Gray

theorem tograyLoop_turn : Turn 2 16 (turnOps .tograyLoop) := ⟨by decide, by decide, by decide⟩

/-- A turn over sixteen gray pixels decides where the kernel goes from the pixels that are left. -/
theorem tograyLoop_step {s t : Cpu} {n : Nat} (inside : n < (s.x 2).toNat / 16)
    (walked : Walked (turnOps .tograyLoop) 2 16 n s t) :
    ∃ u, Walked (turnOps .tograyLoop) 2 16 (n + 1) s u ∧
      (u = execAll isa (turnOps .tograyLoop ++ [.subs 2 2 16]) t ∨
        u = (execAll isa (turnOps .tograyLoop ++ [.subs 2 2 16]) t).exec (.cmp 2 16)) ∧ ∀ final,
      Returns isa neon64 (codeAt .tograyLoop neon64) t final ↔ Returns isa neon64
        (if n + 1 = (s.x 2).toNat / 16 then
          if (s.x 2).toNat % 16 = 0 then codeAt .tograyEnd neon64 else codeAt .tograySingle neon64
        else codeAt .tograyLoop neon64) u final := by
  have text : ∃ rest, afterBlock (codeAt .tograyLoop neon64) = .branch .eq .tograyEnd :: .op (.cmp 2 16) ::
      .branch .hs .tograyLoop :: .label .tograySingle :: rest ∧ rest = codeAt .tograySingle neon64 :=
    ⟨_, rfl, rfl⟩
  obtain ⟨rest, text, rfl⟩ := text
  have next := walked.turn tograyLoop_turn
  have zero := turn_z (turnOps .tograyLoop) 2 16 t
  rw [show turnOps .tograyLoop ++ [.subs 2 2 16] = block (codeAt .tograyLoop neon64) from rfl] at next zero ⊢
  generalize continued : execAll isa (block (codeAt .tograyLoop neon64)) t = u at next zero
  have left : (u.x 2).toNat = (s.x 2).toNat - 16 * (n + 1) := by
    rw [next.count]
    have bound := (s.x 2).isLt
    bv_omega
  have ends (final : Cpu) : Returns isa neon64 (codeAt .tograyLoop neon64) t final ↔
      Returns isa neon64 (.branch .eq .tograyEnd :: .op (.cmp 2 16) :: .branch .hs .tograyLoop ::
        .label .tograySingle :: codeAt .tograySingle neon64) u final := by
    rw [returns_block, text, continued]
  have zeroFlag : isa.holds .eq u = decide (u.x 2 = 0) := zero.trans (beq_eq_decide ..)
  by_cases done : u.x 2 = 0
  · refine ⟨u, next, Or.inl rfl, fun final => ?_⟩
    have none : (u.x 2).toNat = 0 := congrArg BitVec.toNat done
    rw [left] at none
    rw [ends, returns_branch, zeroFlag, if_pos (decide_eq_true done), if_pos (by omega),
      if_pos (by omega)]
  · refine ⟨u.exec (.cmp 2 16), next.cmp 2 16, Or.inr rfl, fun final => ?_⟩
    have some : (u.x 2).toNat ≠ 0 := fun none => done (BitVec.eq_of_toNat_eq none)
    have compared : isa.holds .hs (u.exec (.cmp 2 16)) = decide (16 ≤ (u.x 2).toNat) := rfl
    rw [ends, returns_branch, zeroFlag, if_neg (by rw [decide_eq_true_iff]; exact done), returns_op,
      returns_branch]
    change Returns isa neon64 (if isa.holds .hs (u.exec (.cmp 2 16)) = true then _ else _) _ _ ↔ _
    rw [compared, left]
    by_cases more : n + 1 = (s.x 2).toNat / 16
    · rw [if_pos more, if_neg (by rw [decide_eq_true_iff]; omega), if_neg (by omega), returns_label]
      exact Iff.rfl
    · rw [if_neg more, if_pos (by rw [decide_eq_true_iff]; omega)]
      exact Iff.rfl

/-- The blocks of gray pixels are followed by the single pixels that are left. An invariant of the blocks
does not depend on the flags of the last comparison. -/
theorem exists_tograyLoop_leave {s : Cpu} (enough : 16 ≤ (s.x 2).toNat) (Inv : Nat → Cpu → Prop)
    (turn : ∀ n t, n < (s.x 2).toNat / 16 → Walked (turnOps .tograyLoop) 2 16 n s t → Inv n t →
      Inv (n + 1) (execAll isa (turnOps .tograyLoop ++ [.subs 2 2 16]) t))
    (compare : ∀ n t, Inv n t → Inv n (t.exec (.cmp 2 16))) (start : Inv 0 s) :
    ∃ t, (Walked (turnOps .tograyLoop) 2 16 ((s.x 2).toNat / 16) s t ∧ Inv ((s.x 2).toNat / 16) t) ∧
      ∀ final, Returns isa neon64 (codeAt .tograyLoop neon64) s final ↔ Returns isa neon64
        (if (s.x 2).toNat % 16 = 0 then codeAt .tograyEnd neon64 else codeAt .tograySingle neon64) t final := by
  apply exists_leave (fun n t => Walked (turnOps .tograyLoop) 2 16 n s t ∧ Inv n t) _
    (Nat.div_pos enough (by decide)) ⟨Walked.zero .., start⟩
  intro n t inside holds
  obtain ⟨walked, invariant⟩ := holds
  obtain ⟨u, next, same, goes⟩ := tograyLoop_step inside walked
  have kept := turn n t inside walked invariant
  refine ⟨u, ⟨next, ?_⟩, goes⟩
  rcases same with rfl | rfl
  · exact kept
  · exact compare _ _ kept

theorem tograySingle_shape : Loop 2 .tograySingle :=
  ⟨⟨by decide, by decide, by decide⟩, rfl, _, rfl, fun _ _ _ => returns_label.trans returns_ret⟩

/-- The count decides whether a call begins with blocks or with single pixels. -/
theorem togray_enters (cpu final : Cpu) :
    Returns isa neon64 (codeAt .memcpyDeinterlaceTograyAsm neon64) cpu final ↔ Returns isa neon64
      (if 16 ≤ (cpu.x 2).toNat then codeAt .tograyLoop neon64 else codeAt .tograySingle neon64)
      (cpu.exec (.cmp 2 16)) final := by
  have enters : Returns isa neon64 (codeAt .memcpyDeinterlaceTograyAsm neon64) cpu final ↔ Returns isa neon64
      (if isa.holds .lo (cpu.exec (.cmp 2 16)) then codeAt .tograySingle neon64
        else .label .tograyLoop :: codeAt .tograyLoop neon64) (cpu.exec (.cmp 2 16)) final :=
    returns_block.trans returns_branch
  have compared : isa.holds .lo (cpu.exec (.cmp 2 16)) = !decide (16 ≤ (cpu.x 2).toNat) := rfl
  by_cases enough : 16 ≤ (cpu.x 2).toNat
  · simp only [enters, compared, enough, decide_true, Bool.not_true, Bool.false_eq_true, if_false, if_true,
      returns_label]
  · simp only [enters, compared, enough, decide_false, Bool.not_false, if_true, if_false]

/-- A call makes its blocks and then one turn for each single pixel that is left. Without any pixel the
single turns count through all words. -/
theorem exists_gray_stages (cpu : Cpu) (Inv : Nat → Cpu → Prop)
    (turn : ∀ n t, n < (cpu.x 2).toNat / 16 → Walked (turnOps .tograyLoop) 2 16 n cpu t → Inv n t →
      Inv (n + 1) (execAll isa (turnOps .tograyLoop ++ [.subs 2 2 16]) t))
    (compare : ∀ n t, Inv n t → Inv n (t.exec (.cmp 2 16))) (start : Inv 0 cpu) :
    ∃ t, Walked (turnOps .tograyLoop) 2 16 ((cpu.x 2).toNat / 16) cpu t ∧ Inv ((cpu.x 2).toNat / 16) t ∧
      ∀ final, Returns isa neon64 (codeAt .memcpyDeinterlaceTograyAsm neon64) cpu final ↔
        final = (execAll isa (turnOps .tograySingle ++ [.subs 2 2 1]))^[if (cpu.x 2).toNat = 0 then 2 ^ 64
          else (cpu.x 2).toNat % 16] t := by
  have enters := togray_enters cpu
  by_cases enough : 16 ≤ (cpu.x 2).toNat
  · simp only [enough, if_true] at enters
    obtain ⟨t, ⟨walked, invariant⟩, same⟩ := exists_tograyLoop_leave (s := cpu.exec (.cmp 2 16)) enough Inv
      (fun n t inside walked => turn n t inside ⟨walked.pointers, walked.count, walked.touched⟩) compare
      (compare 0 cpu start)
    refine ⟨t, ⟨walked.pointers, walked.count, walked.touched⟩, invariant, fun final => ?_⟩
    change ∀ final, _ ↔ Returns isa neon64 (if (cpu.x 2).toNat % 16 = 0 then _ else _) t final at same
    rw [enters, same, if_neg (show (cpu.x 2).toNat ≠ 0 by omega)]
    by_cases done : (cpu.x 2).toNat % 16 = 0
    · rw [if_pos done, done, Function.iterate_zero]
      exact returns_ret
    · have left : (t.x 2).toNat = (cpu.x 2).toNat % 16 := by
        rw [walked.count]
        change (cpu.x 2 - BitVec.ofNat 64 ((cpu.x 2).toNat / 16 * 16)).toNat = _
        bv_omega
      rw [if_neg done, tograySingle_shape.returns_iff, turns_eq, left, if_neg done]
  · simp only [enough, if_false] at enters
    have none : (cpu.x 2).toNat / 16 = 0 := Nat.div_eq_of_lt (by omega)
    rw [none]
    refine ⟨cpu.exec (.cmp 2 16), (Walked.zero ..).cmp 2 16, compare 0 cpu start, fun final => ?_⟩
    rw [enters, tograySingle_shape.returns_iff, turns_eq, Nat.mod_eq_of_lt (by omega)]
    exact Iff.rfl

/-- Both loops access one image with a number of bytes for each pixel. -/
structure GrayImage (direction : Direction) (r : Fin 31) (channels : Nat) : Prop where
  apart : r ≠ 2
  blocks : ∀ n x, loopFootprint direction (turnOps .tograyLoop) n x = span (x r) (n * (16 * channels))
  stride : advance r (turnOps .tograyLoop) = 16 * channels
  singles : ∀ n x, loopFootprint direction (turnOps .tograySingle) n x = span (x r) (n * channels)

theorem gray_source : GrayImage .load 0 3 :=
  ⟨by decide, loopFootprint_single rfl rfl, rfl, loopFootprint_single rfl rfl⟩

theorem gray_dest : GrayImage .store 1 1 :=
  ⟨by decide, loopFootprint_single rfl rfl, rfl, loopFootprint_single rfl rfl⟩

/-- The kernel ends after as many pixels as its whole counter gives. -/
theorem togray_exists_ends (c : Call .deinterlaceTogray) :
    ∃ t, (∀ final, c.Ends final ↔ final = t) ∧
      ∀ direction r channels, GrayImage direction r channels →
        t.touched direction = span (c.cpu.x r) (turns (c.cpu.x 2) * channels) := by
  obtain ⟨t, walked, _, ends⟩ := exists_gray_stages c.cpu (fun _ _ => True) (fun _ _ _ _ _ => trivial)
    (fun _ _ _ => trivial) trivial
  refine ⟨_, ends, fun direction r channels image => ?_⟩
  have singles := walked_iterate tograySingle_shape.turn
    (if (c.cpu.x 2).toNat = 0 then 2 ^ 64 else (c.cpu.x 2).toNat % 16) t
  have count : (c.cpu.x 2).toNat / 16 * 16 +
      (if (c.cpu.x 2).toNat = 0 then 2 ^ 64 else (c.cpu.x 2).toNat % 16) = turns (c.cpu.x 2) := by
    rw [turns_eq]
    split <;> omega
  have silent : c.cpu.touched direction = ∅ := c.touched_fresh direction
  rw [singles.touched, walked.touched, silent, Set.empty_union, image.blocks, image.singles,
    walked.pointers r image.apart, image.stride, ← count, Nat.add_mul, span_append, ← Nat.mul_assoc]

theorem deinterlaceTogray_exact_iff (c : Call .deinterlaceTogray) : c.Exact ↔ c.Fits := by
  obtain ⟨t, ends, touched⟩ := togray_exists_ends c
  have small : c.size < 2 ^ 31 := c.size_lt
  have parts : (c.cpu.x 2).toNat = c.upper * 2 ^ 32 + c.size := c.toNat_counter
  have count := turns_eq (c.cpu.x 2)
  rw [parts] at count
  rw [Call.exact_iff_of_ends ends, touched _ _ _ gray_source, touched _ _ _ gray_dest, Call.sourceBytes,
    Call.destBytes, imageBytes_single (show Kernel.deinterlaceTogray.sources = [(0, 3)] from rfl),
    imageBytes_single (show Kernel.deinterlaceTogray.dests = [(1, 1)] from rfl), span_eq_iff (by omega)]
  constructor
  · intro given
    obtain ⟨_, writes⟩ := given
    split at count <;> refine ⟨?_, ?_⟩ <;> omega
  · intro given
    obtain ⟨positive, upper⟩ := given
    rw [if_neg (by omega), upper, Nat.zero_mul, Nat.zero_add] at count
    rw [count]
    exact ⟨subset_rfl, rfl⟩

end Gray

end VisionServer.Neon
