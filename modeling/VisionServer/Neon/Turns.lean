/-
This file gives the bytes that one turn of each loop computes from the bytes that it loads.
-/

import VisionServer.Library.Blockwise
import VisionServer.Neon.Extent

namespace VisionServer.Neon
open Library Library.Aarch64 Library.Assembly

section Values

/-- A byte above the threshold is kept. -/
def keepAbove (threshold : Byte) (f : Reads) (q : Nat) : Byte := cmhi (f 0 q) threshold &&& f 0 q

/-- A byte above the threshold of its lane is marked. -/
def markAbove (threshold : Lanes) (f : Reads) (q : Nat) : Byte := cmhi (f 1 q) (threshold (.ofNat 16 q))

/-- The primary byte is scaled by the part of it that passes both comparisons. -/
def compareAdd (primary first second addition : Byte) : Byte :=
  uqadd (uqshlImm (uqshl primary (-((primary &&& (cmhi primary first &&& cmhi primary second)) >>> 6))) 4)
    addition

/-- The weighted bytes and gamma are subtracted from the primary byte. -/
def weighSubtract (alpha beta gamma primary second third : Byte) : Byte :=
  uqsub primary (uqadd (uqadd (ushl second (-alpha.clz)) (ushl third (-beta.clz))) gamma)

/-- The channels of a pixel take their roles from the offset of the primary one. -/
def splitMark (offset : Nat) (alpha beta threshold : Byte) (f : Reads) (q : Nat) : Byte :=
  cmhi (uqsub (f 0 (3 * q + offset)) (uqadd (ushl (f 0 (3 * q + (offset + 1) % 3)) (-alpha.clz))
    (ushl (f 0 (3 * q + (offset + 2) % 3)) (-beta.clz)))) threshold

def mixGray (f : Reads) (q : Nat) : Byte :=
  uqadd (f 0 (3 * q + 2) >>> 2) (uqadd (f 0 (3 * q) >>> 2) (f 0 (3 * q + 1) >>> 1))

/-- The single pixel is taken from the shifted third channel alone. -/
def lastChannel (f : Reads) (q : Nat) : Byte := f 0 (3 * q + 2) >>> 2

/-- Both bytes have the same distance. -/
def zipBytes (g : Byte → Byte → Byte) (f : Reads) (q : Nat) : Byte := g (f 0 q) (f 1 q)

/-- The second byte belongs to the whole pixel. -/
def zipChannels (g : Byte → Byte → Byte) (f : Reads) (q : Nat) : Byte := g (f 0 q) (f 1 (q / 3))

end Values

section Single

theorem threshLoop_pixelwise (threshold : Byte) :
    Pixelwise (turnOps .threshLoop) (fun v => v 3 = fun _ => threshold) 1 16 (keepAbove threshold) where
  kept _ constant := constant
  mem s constant := by
    apply mem_of_str (show turnOps .threshLoop =
      [.ldr 0 0 16, .cmhi 1 0 3, .and 2 1 0] ++ [.str 2 1 16] from rfl) rfl (by decide) rfl
    intro i
    simp [isa, Cpu.exec, Cpu.setV, Cpu.access, constant, keepAbove]
  loads f g same q inside := by
    rw [keepAbove, keepAbove, same_of_load same (by decide) inside]
  contiguous := by decide
  stride := rfl
  shift _ _ _ _ := rfl

/-- The source is loaded through the second register and the marks are stored through the first. -/
theorem threshBinLoop_pixelwise (threshold : Lanes) :
    Pixelwise (turnOps .threshBinLoop) (fun v => v 3 = threshold) 0 16 (markAbove threshold) where
  kept _ constant := constant
  mem s constant := by
    apply mem_of_str (show turnOps .threshBinLoop = [.ldr 0 1 16, .cmhi 1 0 3] ++ [.str 1 0 16] from rfl)
      rfl (by decide) rfl
    intro i
    simp [isa, Cpu.exec, Cpu.setV, Cpu.access, constant, markAbove]
  loads f g same q inside := by
    rw [markAbove, markAbove, same_of_load same (by decide) inside]
  contiguous := by decide
  stride := rfl
  shift f k q _ := by
    have lane : Fin.ofNat 16 (k * 16 + q) = Fin.ofNat 16 q := Fin.ext (by simp)
    rw [markAbove, markAbove, lane]
    rfl

theorem cmp3AddLoop_pixelwise : Pixelwise (turnOps .cmp3AddLoop) (fun _ => True) 4 16
    fun f q => compareAdd (f 0 q) (f 1 q) (f 2 q) (f 3 q) where
  kept _ _ := trivial
  mem s _ := by
    apply mem_of_str (show turnOps .cmp3AddLoop =
      [.ldr 0 0 16, .ldr 1 1 16, .ldr 2 2 16, .ldr 3 3 16, .cmhi 1 0 1, .cmhi 2 0 2, .and 1 1 2, .and 2 0 1,
        .ushrImm 1 2 6, .neg 1 1, .uqshl 2 0 1, .uqshlImm 2 2 4, .uqadd 3 2 3] ++ [.str 3 4 16] from rfl)
      rfl (by decide) rfl
    intro i
    simp [isa, Cpu.exec, Cpu.setV, Cpu.access, Cpu.byteAt, compareAdd]
  loads f g same q inside := by
    rw [same_of_load same (by decide : ⟨.load, 0, 0, 16⟩ ∈ touches (turnOps .cmp3AddLoop)) inside,
      same_of_load same (by decide : ⟨.load, 1, 0, 16⟩ ∈ touches (turnOps .cmp3AddLoop)) inside,
      same_of_load same (by decide : ⟨.load, 2, 0, 16⟩ ∈ touches (turnOps .cmp3AddLoop)) inside,
      same_of_load same (by decide : ⟨.load, 3, 0, 16⟩ ∈ touches (turnOps .cmp3AddLoop)) inside]
  contiguous := by decide
  stride := rfl
  shift _ _ _ _ := rfl

end Single

section Weighted

/-- The weights and gamma are kept in three registers. -/
def Weighs (alpha beta gamma : Byte) (v : Fin 32 → Lanes) : Prop :=
  v 4 = (fun _ => -alpha.clz) ∧ v 5 = (fun _ => -beta.clz) ∧ v 6 = fun _ => gamma

variable (alpha beta gamma : Byte)

/-- The turn stores its block behind the block that it loads from the second source. -/
theorem wstLoop_block : Stores (turnOps .wstLoop) (Weighs alpha beta gamma) 1 16 16
    fun f q => weighSubtract alpha beta gamma (f 0 q) (f 1 q) (f 2 q) where
  kept _ constant := constant
  mem s constant := by
    obtain ⟨first, second, third⟩ := constant
    apply mem_of_str (show turnOps .wstLoop =
      [.ldr 0 0 16, .ldr 1 1 16, .ldr 2 2 16, .ushl 1 1 4, .ushl 2 2 5, .uqadd 3 1 2, .uqadd 3 3 6,
        .uqsub 3 0 3] ++ [.str 3 1 16] from rfl) rfl (by decide) rfl
    intro i
    simp only [execAll, List.foldl_cons, List.foldl_nil]
    simp [isa, Cpu.exec, Cpu.setV, Cpu.access, Cpu.byteAt, first, second, third, weighSubtract]
  loads f g same q inside := by
    rw [same_of_load same (by decide : ⟨.load, 0, 0, 16⟩ ∈ touches (turnOps .wstLoop)) inside,
      same_of_load same (by decide : ⟨.load, 1, 0, 16⟩ ∈ touches (turnOps .wstLoop)) inside,
      same_of_load same (by decide : ⟨.load, 2, 0, 16⟩ ∈ touches (turnOps .wstLoop)) inside]

/-- Each of the three loops takes one channel as the primary one. -/
def splitLoop : Fin 3 → Label
  | 0 => .c0SplitWstbLoop
  | 1 => .c1SplitWstbLoop
  | 2 => .c2SplitWstbLoop

theorem splitLoop_mem (offset : Fin 3) (s : Cpu) (constant : Weighs alpha beta gamma s.v) :
    (execAll isa (turnOps (splitLoop offset)) s).mem =
      overwritten (s.x 1 + BitVec.ofNat 64 0) 16 (splitMark offset alpha beta gamma s.byteAt) s.mem := by
  obtain ⟨first, second, third⟩ := constant
  match offset with
  | 0 =>
      apply mem_of_str (show turnOps .c0SplitWstbLoop = [.ld3 0 0 48, .ushl 1 1 4, .ushl 2 2 5,
        .uqadd 3 1 2, .uqsub 3 0 3, .cmhi 3 3 6] ++ [.str 3 1 16] from rfl) rfl (by decide) rfl
      intro i
      simp only [execAll, List.foldl_cons, List.foldl_nil]
      simp [isa, Cpu.exec, Cpu.setV, Cpu.access, Cpu.byteAt, first, second, third, splitMark]
  | 1 =>
      apply mem_of_str (show turnOps .c1SplitWstbLoop = [.ld3 0 0 48, .ushl 2 2 4, .ushl 0 0 5,
        .uqadd 3 2 0, .uqsub 3 1 3, .cmhi 3 3 6] ++ [.str 3 1 16] from rfl) rfl (by decide) rfl
      intro i
      simp only [execAll, List.foldl_cons, List.foldl_nil]
      simp [isa, Cpu.exec, Cpu.setV, Cpu.access, Cpu.byteAt, first, second, third, splitMark]
  | 2 =>
      apply mem_of_str (show turnOps .c2SplitWstbLoop = [.ld3 0 0 48, .ushl 0 0 4, .ushl 1 1 5,
        .uqadd 3 0 1, .uqsub 3 2 3, .cmhi 3 3 6] ++ [.str 3 1 16] from rfl) rfl (by decide) rfl
      intro i
      simp only [execAll, List.foldl_cons, List.foldl_nil]
      simp [isa, Cpu.exec, Cpu.setV, Cpu.access, Cpu.byteAt, first, second, third, splitMark]

theorem splitLoop_touches (offset : Fin 3) :
    touches (turnOps (splitLoop offset)) = [⟨.load, 0, 0, 48⟩, ⟨.store, 1, 0, 16⟩] ∧
      advance 0 (turnOps (splitLoop offset)) = 48 ∧ advance 1 (turnOps (splitLoop offset)) = 16 :=
  match offset with
  | 0 => ⟨rfl, rfl, rfl⟩
  | 1 => ⟨rfl, rfl, rfl⟩
  | 2 => ⟨rfl, rfl, rfl⟩

theorem splitLoop_pixelwise (offset : Fin 3) : Pixelwise (turnOps (splitLoop offset))
    (Weighs alpha beta gamma) 1 16 (splitMark offset alpha beta gamma) where
  kept s constant :=
    match offset with
    | 0 => constant
    | 1 => constant
    | 2 => constant
  mem := splitLoop_mem alpha beta gamma offset
  loads f g same q inside := by
    have member : ⟨.load, 0, 0, 48⟩ ∈ touches (turnOps (splitLoop offset)) := by
      rw [(splitLoop_touches offset).1]
      exact List.mem_cons_self
    have channel (c : Nat) (below : c < 3) : f 0 (3 * q + c) = g 0 (3 * q + c) :=
      same_of_load same member (by omega)
    rw [splitMark, splitMark, channel _ offset.isLt, channel _ (Nat.mod_lt _ (by decide)),
      channel _ (Nat.mod_lt _ (by decide))]
  contiguous t member := by
    obtain ⟨text, source, dest⟩ := splitLoop_touches offset
    rw [text, List.mem_cons, List.mem_singleton] at member
    rcases member with rfl | rfl
    · exact ⟨rfl, source.symm⟩
    · exact ⟨rfl, dest.symm⟩
  stride := (splitLoop_touches offset).2.2
  shift f k q _ := by
    have place (c : Nat) : k * 48 + (3 * q + c) = 3 * (k * 16 + q) + c := by omega
    simp only [splitMark, (splitLoop_touches offset).2.1, place]

end Weighted

section Gray

theorem tograyLoop_pixelwise : Pixelwise (turnOps .tograyLoop) (fun _ => True) 1 16 mixGray where
  kept _ _ := trivial
  mem s _ := by
    apply mem_of_str (show turnOps .tograyLoop = [.ld3 0 0 48, .ushrImm 0 0 2, .ushrImm 1 1 1,
      .ushrImm 2 2 2, .uqadd 3 0 1, .uqadd 3 2 3] ++ [.str 3 1 16] from rfl) rfl (by decide) rfl
    intro i
    simp [isa, Cpu.exec, Cpu.setV, Cpu.access, Cpu.byteAt, mixGray]
  loads f g same q inside := by
    have channel (c : Nat) (below : c < 3) : f 0 (3 * q + c) = g 0 (3 * q + c) :=
      same_of_load same (by decide : ⟨.load, 0, 0, 48⟩ ∈ touches (turnOps .tograyLoop)) (by omega)
    rw [mixGray, mixGray, channel 1 (by decide), channel 2 (by decide), ← Nat.add_zero (3 * q),
      channel 0 (by decide)]
  contiguous := by decide
  stride := rfl
  shift f k q _ := by
    have place (c : Nat) : k * 48 + (3 * q + c) = 3 * (k * 16 + q) + c := by omega
    rw [mixGray, mixGray]
    change uqadd (f 0 (k * 48 + (3 * q + 2)) >>> 2)
      (uqadd (f 0 (k * 48 + (3 * q + 0)) >>> 2) (f 0 (k * 48 + (3 * q + 1)) >>> 1)) = _
    rw [place, place, place]
    rfl

theorem tograySingle_pixelwise : Pixelwise (turnOps .tograySingle) (fun _ => True) 1 1 lastChannel where
  kept _ _ := trivial
  mem s _ := by
    have whole : (execAll isa (turnOps .tograySingle) s).mem =
        overwritten (s.x 1) 1 (fun _ => s.byteAt 0 2 >>> 2) s.mem := rfl
    rw [whole, BitVec.add_zero]
    apply overwritten_congr
    intro q inside
    obtain rfl : q = 0 := by omega
    rfl
  loads f g same q inside := by
    rw [lastChannel, lastChannel, same_of_load same
      (by decide : ⟨.load, 0, 0, 3⟩ ∈ touches (turnOps .tograySingle)) (by omega)]
  contiguous := by decide
  stride := rfl
  shift f k q _ := by
    rw [lastChannel, lastChannel]
    change f 0 (k * 3 + (3 * q + 2)) >>> 2 = _
    rw [show k * 3 + (3 * q + 2) = 3 * (k * 1 + q) + 2 by omega]

end Gray

section Pairs

variable {loop : Label} {g : Byte → Byte → Byte} {bytes : Nat}

/-- A turn that combines blocks of the same size works byte by byte. -/
theorem zipBytes_pixelwise (accesses : touches (turnOps loop) =
      [⟨.load, 0, 0, bytes⟩, ⟨.load, 1, 0, bytes⟩, ⟨.store, 2, 0, bytes⟩])
    (strides : advance 0 (turnOps loop) = bytes ∧ advance 1 (turnOps loop) = bytes ∧
      advance 2 (turnOps loop) = bytes)
    (mem : ∀ s : Cpu, (execAll isa (turnOps loop) s).mem =
      overwritten (s.x 2 + BitVec.ofNat 64 0) bytes (zipBytes g s.byteAt) s.mem) :
    Pixelwise (turnOps loop) (fun _ => True) 2 bytes (zipBytes g) where
  kept _ _ := trivial
  mem s _ := mem s
  loads f h same q inside := by
    have first : f 0 q = h 0 q := same_of_load same (by rw [accesses]; simp) inside
    have second : f 1 q = h 1 q := same_of_load same (by rw [accesses]; simp) inside
    rw [zipBytes, zipBytes, first, second]
  contiguous t member := by
    obtain ⟨first, second, third⟩ := strides
    simp only [accesses, List.mem_cons, List.not_mem_nil, or_false] at member
    rcases member with rfl | rfl | rfl
    · exact ⟨rfl, first.symm⟩
    · exact ⟨rfl, second.symm⟩
    · exact ⟨rfl, third.symm⟩
  stride := strides.2.2
  shift f k q _ := by rw [zipBytes, zipBytes, strides.1, strides.2.1]

/-- A turn that combines three channels with one block works byte by byte. -/
theorem zipChannels_pixelwise (accesses : touches (turnOps loop) =
      [⟨.load, 0, 0, 48⟩, ⟨.load, 1, 0, 16⟩, ⟨.store, 2, 0, 48⟩])
    (strides : advance 0 (turnOps loop) = 48 ∧ advance 1 (turnOps loop) = 16 ∧
      advance 2 (turnOps loop) = 48)
    (mem : ∀ s : Cpu, (execAll isa (turnOps loop) s).mem =
      overwritten (s.x 2 + BitVec.ofNat 64 0) 48 (zipChannels g s.byteAt) s.mem) :
    Pixelwise (turnOps loop) (fun _ => True) 2 48 (zipChannels g) where
  kept _ _ := trivial
  mem s _ := mem s
  loads f h same q inside := by
    have first : f 0 q = h 0 q := same_of_load same (by rw [accesses]; simp) inside
    have member : ⟨.load, 1, 0, 16⟩ ∈ touches (turnOps loop) := by
      rw [accesses]
      simp
    have second : f 1 (q / 3) = h 1 (q / 3) := same_of_load same member (by omega)
    rw [zipChannels, zipChannels, first, second]
  contiguous t member := by
    obtain ⟨first, second, third⟩ := strides
    simp only [accesses, List.mem_cons, List.not_mem_nil, or_false] at member
    rcases member with rfl | rfl | rfl
    · exact ⟨rfl, first.symm⟩
    · exact ⟨rfl, second.symm⟩
    · exact ⟨rfl, third.symm⟩
  stride := strides.2.2
  shift f k q _ := by
    rw [zipChannels, zipChannels, strides.1, strides.2.1, show (k * 48 + q) / 3 = k * 16 + q / 3 by omega]

theorem bitwiseOrLoop_pixelwise :
    Pixelwise (turnOps .bitwiseOrLoop) (fun _ => True) 2 16 (zipBytes (· ||| ·)) := by
  apply zipBytes_pixelwise rfl ⟨rfl, rfl, rfl⟩
  intro s
  apply mem_of_str (show turnOps .bitwiseOrLoop =
    [.ldr 0 0 16, .ldr 1 1 16, .orr 2 0 1] ++ [.str 2 2 16] from rfl) rfl (by decide) rfl
  intro i
  simp [isa, Cpu.exec, Cpu.setV, Cpu.access, Cpu.byteAt, zipBytes]

theorem addLoop_pixelwise : Pixelwise (turnOps .addLoop) (fun _ => True) 2 16 (zipBytes uqadd) := by
  apply zipBytes_pixelwise rfl ⟨rfl, rfl, rfl⟩
  intro s
  apply mem_of_str (show turnOps .addLoop =
    [.ldr 0 0 16, .ldr 1 1 16, .uqadd 2 0 1] ++ [.str 2 2 16] from rfl) rfl (by decide) rfl
  intro i
  simp [isa, Cpu.exec, Cpu.setV, Cpu.access, Cpu.byteAt, zipBytes]

theorem subtractLoop_pixelwise :
    Pixelwise (turnOps .subtractLoop) (fun _ => True) 2 16 (zipBytes uqsub) := by
  apply zipBytes_pixelwise rfl ⟨rfl, rfl, rfl⟩
  intro s
  apply mem_of_str (show turnOps .subtractLoop =
    [.ldr 0 0 16, .ldr 1 1 16, .uqsub 2 0 1] ++ [.str 2 2 16] from rfl) rfl (by decide) rfl
  intro i
  simp [isa, Cpu.exec, Cpu.setV, Cpu.access, Cpu.byteAt, zipBytes]

theorem bitwiseOr3cLoop_pixelwise :
    Pixelwise (turnOps .bitwiseOr3cLoop) (fun _ => True) 2 48 (zipChannels (· ||| ·)) := by
  apply zipChannels_pixelwise rfl ⟨rfl, rfl, rfl⟩
  intro s
  apply mem_of_st3 (show turnOps .bitwiseOr3cLoop =
    [.ld3 0 0 48, .ldr 3 1 16, .orr 0 0 3, .orr 1 1 3, .orr 2 2 3] ++ [.st3 0 2 48] from rfl) rfl
    (by decide) rfl
  · intro i
    simp [isa, Cpu.exec, Cpu.setV, Cpu.access, Cpu.byteAt, zipChannels]
  · intro i
    simp [isa, Cpu.exec, Cpu.setV, Cpu.access, Cpu.byteAt, zipChannels, Nat.mul_add_div]
  · intro i
    simp [isa, Cpu.exec, Cpu.setV, Cpu.access, Cpu.byteAt, zipChannels, Nat.mul_add_div]

theorem add3cLoop_pixelwise :
    Pixelwise (turnOps .add3cLoop) (fun _ => True) 2 48 (zipChannels uqadd) := by
  apply zipChannels_pixelwise rfl ⟨rfl, rfl, rfl⟩
  intro s
  apply mem_of_st3 (show turnOps .add3cLoop =
    [.ld3 0 0 48, .ldr 3 1 16, .uqadd 0 0 3, .uqadd 1 1 3, .uqadd 2 2 3] ++ [.st3 0 2 48] from rfl) rfl
    (by decide) rfl
  · intro i
    simp [isa, Cpu.exec, Cpu.setV, Cpu.access, Cpu.byteAt, zipChannels]
  · intro i
    simp [isa, Cpu.exec, Cpu.setV, Cpu.access, Cpu.byteAt, zipChannels, Nat.mul_add_div]
  · intro i
    simp [isa, Cpu.exec, Cpu.setV, Cpu.access, Cpu.byteAt, zipChannels, Nat.mul_add_div]

theorem add3c2Loop_pixelwise : Pixelwise (turnOps .add3c2Loop) (fun _ => True) 2 48 (zipBytes uqadd) := by
  apply zipBytes_pixelwise rfl ⟨rfl, rfl, rfl⟩
  intro s
  apply mem_of_st3 (show turnOps .add3c2Loop =
    [.ld3 0 0 48, .ld3 3 1 48, .uqadd 0 0 3, .uqadd 1 1 4, .uqadd 2 2 5] ++ [.st3 0 2 48] from rfl) rfl
    (by decide) rfl
  · intro i
    simp [isa, Cpu.exec, Cpu.setV, Cpu.access, Cpu.byteAt, zipBytes]
  · intro i
    simp [isa, Cpu.exec, Cpu.setV, Cpu.access, Cpu.byteAt, zipBytes]
  · intro i
    simp [isa, Cpu.exec, Cpu.setV, Cpu.access, Cpu.byteAt, zipBytes]

end Pairs

end VisionServer.Neon
