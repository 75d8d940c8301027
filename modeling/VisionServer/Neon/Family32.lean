/-
This file gives the texts of the 32-bit NEON kernels with their arguments and their pixels.
-/

import VisionServer.Library.Aarch32Loops
import VisionServer.Neon.Turns

namespace VisionServer.Neon
open Library Library.Assembly
open Library.Aarch64 (Byte Lanes cmhi uqadd uqsub)
open Library.Aarch32 (Word Cpu Cond sp vshlS8)
open Library.Aarch32.Vector (Op Pixel Shape)

/-- Most names are shared with the 64-bit kernels. -/
inductive Label32 where
  | shared (name : Label)
  | memcpySplitWstAsm
  | c0SplitWstLoop
  | c1SplitWstLoop
  | c2SplitWstLoop
  | splitWstEnd
deriving DecidableEq

abbrev Text32 := List (Line Op Cond Label32)

/-- The kernel loads from its second argument and stores to its first one. -/
def memcpyThresholdAsm32 : Text32 :=
  [.label (.shared .memcpyThresholdAsm),
    .op (.plain (.push [11])),
    .op (.plain (.add 11 13 0)),
    .op (.plain (.lsr 2 4)),
    .op (.vdup 3 3),
    .label (.shared .threshLoop),
    .op (.plain (.vld1 0 1)),
    .op (.plain (.vld1 1 1)),
    .op (.plain (.vcgtU8 1 0 3)),
    .op (.plain (.vand 2 1 0)),
    .op (.plain (.vst1 4 0)),
    .op (.plain (.vst1 5 0)),
    .op (.plain (.sub 2 2 1)),
    .op (.plain (.cmp 2 0)),
    .branch .gt (.shared .threshLoop),
    .op (.plain (.sub 13 11 0)),
    .op (.plain (.pop [11])),
    .ret]

/-- The kernel loads from its second argument and stores to its first one. -/
def memcpyThresholdBinaryAsm32 : Text32 :=
  [.label (.shared .memcpyThresholdBinaryAsm),
    .op (.plain (.push [11])),
    .op (.plain (.add 11 13 0)),
    .op (.plain (.lsr 2 4)),
    .op (.vdup 3 3),
    .label (.shared .threshBinLoop),
    .op (.plain (.vld1 0 1)),
    .op (.plain (.vld1 1 1)),
    .op (.plain (.vcgtU8 1 0 3)),
    .op (.plain (.vst1 2 0)),
    .op (.plain (.vst1 3 0)),
    .op (.plain (.sub 2 2 1)),
    .op (.plain (.cmp 2 0)),
    .branch .gt (.shared .threshBinLoop),
    .op (.plain (.sub 13 11 0)),
    .op (.plain (.pop [11])),
    .ret]

/-- The arguments behind the fourth are on the stack above the pushed registers. -/
def memcpyCompare3AddAsm32 : Text32 :=
  [.label (.shared .memcpyCompare3AddAsm),
    .op (.plain (.push [4, 5, 11])),
    .op (.plain (.add 11 13 0)),
    .op (.plain (.ldr 4 13 12)),
    .op (.plain (.ldr 5 13 16)),
    .op (.plain (.lsr 5 4)),
    .label (.shared .cmp3AddLoop),
    .op (.plain (.vld1 0 0)),
    .op (.plain (.vld1 1 0)),
    .op (.plain (.vld1 2 1)),
    .op (.plain (.vld1 3 1)),
    .op (.plain (.vld1 4 2)),
    .op (.plain (.vld1 5 2)),
    .op (.plain (.vld1 6 3)),
    .op (.plain (.vld1 7 3)),
    .op (.plain (.vcgtU8 1 0 1)),
    .op (.plain (.vcgtU8 2 0 2)),
    .op (.plain (.vand 1 1 2)),
    .op (.plain (.vand 2 0 1)),
    .op (.plain (.vshrU8 1 2 6)),
    .op (.plain (.vnegS8 1 1)),
    .op (.plain (.vshlS8 2 0 1)),
    .op (.plain (.vshlImm 2 2 4)),
    .op (.plain (.vqaddU8 3 2 3)),
    .op (.plain (.vst1 6 4)),
    .op (.plain (.vst1 7 4)),
    .op (.plain (.sub 5 5 1)),
    .op (.plain (.cmp 5 0)),
    .branch .gt (.shared .cmp3AddLoop),
    .op (.plain (.sub 13 11 0)),
    .op (.plain (.pop [4, 5, 11])),
    .ret]

def memcpyWstAsm32 : Text32 :=
  [.label (.shared .memcpyWstAsm),
    .op (.plain (.push [4, 5, 6, 7, 11])),
    .op (.plain (.add 11 13 0)),
    .op (.plain (.ldr 4 13 (0 + 20))),
    .op (.plain (.ldr 5 13 (4 + 20))),
    .op (.plain (.ldr 6 13 (8 + 20))),
    .op (.plain (.ldr 7 13 (12 + 20))),
    .op (.vdup 8 5),
    .op (.vclz 8 8),
    .op (.plain (.vnegS8 8 8)),
    .op (.vdup 9 6),
    .op (.vclz 9 9),
    .op (.plain (.vnegS8 9 9)),
    .op (.vdup 10 7),
    .op (.plain (.lsr 4 4)),
    .label (.shared .wstLoop),
    .op (.plain (.vld1 0 0)),
    .op (.plain (.vld1 1 0)),
    .op (.plain (.vld1 2 1)),
    .op (.plain (.vld1 3 1)),
    .op (.plain (.vld1 4 2)),
    .op (.plain (.vld1 5 2)),
    .op (.vshlU8 1 1 8),
    .op (.vshlU8 2 2 9),
    .op (.plain (.vqaddU8 3 1 2)),
    .op (.plain (.vqaddU8 3 3 10)),
    .op (.vqsubU8 3 0 3),
    .op (.plain (.vst1 6 3)),
    .op (.plain (.vst1 7 3)),
    .op (.plain (.sub 4 4 1)),
    .op (.plain (.cmp 4 0)),
    .branch .gt (.shared .wstLoop),
    .op (.plain (.sub 13 11 0)),
    .op (.plain (.pop [4, 5, 6, 7, 11])),
    .ret]

def memcpySplitWstAsm32 : Text32 :=
  [.label .memcpySplitWstAsm,
    .op (.plain (.push [4, 5, 6, 11])),
    .op (.plain (.add 11 13 0)),
    .op (.plain (.ldr 4 13 (0 + 16))),
    .op (.plain (.ldr 5 13 (4 + 16))),
    .op (.plain (.ldr 6 13 (8 + 16))),
    .op (.vdup 8 4),
    .op (.vclz 8 8),
    .op (.plain (.vnegS8 8 8)),
    .op (.vdup 9 5),
    .op (.vclz 9 9),
    .op (.plain (.vnegS8 9 9)),
    .op (.vdup 10 6),
    .op (.plain (.lsr 2 4)),
    .op (.plain (.cmp 3 1)),
    .branch .lt .c0SplitWstLoop,
    .branch .eq .c1SplitWstLoop,
    .branch .gt .c2SplitWstLoop,
    .label .c0SplitWstLoop,
    .op (.vld3 0 2 4 0),
    .op (.vld3 1 3 5 0),
    .op (.vshlU8 1 1 8),
    .op (.vshlU8 2 2 9),
    .op (.plain (.vqaddU8 3 1 2)),
    .op (.plain (.vqaddU8 3 3 10)),
    .op (.vqsubU8 3 0 3),
    .op (.vst1Two 6 7 1),
    .op (.plain (.sub 2 2 1)),
    .op (.plain (.cmp 2 0)),
    .branch .gt .c0SplitWstLoop,
    .branch .le .splitWstEnd,
    .label .c1SplitWstLoop,
    .op (.vld3 0 2 4 0),
    .op (.vld3 1 3 5 0),
    .op (.vshlU8 2 2 8),
    .op (.vshlU8 0 0 9),
    .op (.plain (.vqaddU8 3 2 0)),
    .op (.plain (.vqaddU8 3 3 10)),
    .op (.vqsubU8 3 1 3),
    .op (.vst1Two 6 7 1),
    .op (.plain (.sub 2 2 1)),
    .op (.plain (.cmp 2 0)),
    .branch .gt .c1SplitWstLoop,
    .branch .le .splitWstEnd,
    .label .c2SplitWstLoop,
    .op (.vld3 0 2 4 0),
    .op (.vld3 1 3 5 0),
    .op (.vshlU8 0 0 8),
    .op (.vshlU8 1 1 9),
    .op (.plain (.vqaddU8 3 0 1)),
    .op (.plain (.vqaddU8 3 3 10)),
    .op (.vqsubU8 3 2 3),
    .op (.vst1Two 6 7 1),
    .op (.plain (.sub 2 2 1)),
    .op (.plain (.cmp 2 0)),
    .branch .gt .c2SplitWstLoop,
    .branch .le .splitWstEnd,
    .label .splitWstEnd,
    .op (.plain (.sub 13 11 0)),
    .op (.plain (.pop [4, 5, 6, 11])),
    .ret]

def memcpyBitwiseOrAsm32 : Text32 :=
  [.label (.shared .memcpyBitwiseOrAsm),
    .op (.plain (.push [11])),
    .op (.plain (.add 11 13 0)),
    .op (.plain (.lsr 3 4)),
    .label (.shared .bitwiseOrLoop),
    .op (.plain (.vld1 0 0)),
    .op (.plain (.vld1 1 0)),
    .op (.plain (.vld1 2 1)),
    .op (.plain (.vld1 3 1)),
    .op (.vorr 2 0 1),
    .op (.plain (.vst1 4 2)),
    .op (.plain (.vst1 5 2)),
    .op (.plain (.sub 3 3 1)),
    .op (.plain (.cmp 3 0)),
    .branch .gt (.shared .bitwiseOrLoop),
    .op (.plain (.sub 13 11 0)),
    .op (.plain (.pop [11])),
    .ret]

def memcpySubtractAsm32 : Text32 :=
  [.label (.shared .memcpySubtractAsm),
    .op (.plain (.push [11])),
    .op (.plain (.add 11 13 0)),
    .op (.plain (.lsr 3 4)),
    .label (.shared .subtractLoop),
    .op (.plain (.vld1 0 0)),
    .op (.plain (.vld1 1 0)),
    .op (.plain (.vld1 2 1)),
    .op (.plain (.vld1 3 1)),
    .op (.vqsubU8 2 0 1),
    .op (.plain (.vst1 4 2)),
    .op (.plain (.vst1 5 2)),
    .op (.plain (.sub 3 3 1)),
    .op (.plain (.cmp 3 0)),
    .branch .gt (.shared .subtractLoop),
    .op (.plain (.sub 13 11 0)),
    .op (.plain (.pop [11])),
    .ret]

def neon32 : Text32 :=
  memcpyThresholdAsm32 ++ memcpyThresholdBinaryAsm32 ++ memcpyCompare3AddAsm32 ++ memcpyWstAsm32 ++
    memcpySplitWstAsm32 ++ memcpyBitwiseOrAsm32 ++ memcpySubtractAsm32

/-- The 32-bit kernels are the exported names of their file. -/
inductive Kernel32 where
  | threshold
  | thresholdBinary
  | compare3Add
  | wst
  | splitWst
  | bitwiseOr
  | subtract
deriving DecidableEq

/-- The first four arguments are passed in registers, and the others are above the stack pointer. The kernels have
each argument in the register of its number. -/
def argument (cpu : Cpu) (k : Fin 16) : Word := if k < 4 then cpu.r k else cpu.word sp (4 * (k.val - 4))

def byteArgument32 (cpu : Cpu) (k : Fin 16) : Byte := (argument cpu k).setWidth 8

namespace Kernel32

def entry : Kernel32 → Label32
  | .threshold => .shared .memcpyThresholdAsm
  | .thresholdBinary => .shared .memcpyThresholdBinaryAsm
  | .compare3Add => .shared .memcpyCompare3AddAsm
  | .wst => .shared .memcpyWstAsm
  | .splitWst => .memcpySplitWstAsm
  | .bitwiseOr => .shared .memcpyBitwiseOrAsm
  | .subtract => .shared .memcpySubtractAsm

/-- The registers that a kernel pushes. -/
def saved : Kernel32 → List (Fin 16)
  | .compare3Add => [4, 5, 11]
  | .wst => [4, 5, 6, 7, 11]
  | .splitWst => [4, 5, 6, 11]
  | _ => [11]

/-- The images of a kernel, its destination and its count are arguments. -/
def shape : Kernel32 → Shape
  | .threshold => ⟨fun k => if k = 1 then 1 else 0, 0, 2, rfl, rfl, by decide⟩
  | .thresholdBinary => ⟨fun k => if k = 1 then 1 else 0, 0, 2, rfl, rfl, by decide⟩
  | .compare3Add => ⟨fun k => if k < 4 then 1 else 0, 4, 5, rfl, rfl, by decide⟩
  | .wst => ⟨fun k => if k < 3 then 1 else 0, 3, 4, rfl, rfl, by decide⟩
  | .splitWst => ⟨fun k => if k = 0 then 3 else 0, 1, 2, rfl, rfl, by decide⟩
  | .bitwiseOr => ⟨fun k => if k < 2 then 1 else 0, 2, 3, rfl, rfl, by decide⟩
  | .subtract => ⟨fun k => if k < 2 then 1 else 0, 2, 3, rfl, rfl, by decide⟩

variable (k : Kernel32) (cpu : Cpu)

/-- The kernel returns in a state. -/
def Ends (final : Cpu) : Prop := Returns Aarch32.Vector.isa neon32 (codeAt k.entry neon32) cpu final

def dest : Word := argument cpu k.shape.dest

/-- The pixel count as the kernel finds it. -/
def count : Nat := (argument cpu k.shape.counter).toNat

/-- A kernel makes a turn for each whole block, and at least one. -/
def blocks : Nat := max 1 (k.count cpu / 16)

end Kernel32

/-- The split kernel compares its fourth argument with one, as a signed number. -/
def splitOffset (cpu : Cpu) : Fin 3 :=
  if (argument cpu 3).slt 1 then 0 else if argument cpu 3 = 1 then 1 else 2

/-- The primary byte is scaled by the part of it that passes both comparisons, and wraps around. -/
def compareAdd32 (primary first second addition : Byte) : Byte :=
  uqadd (vshlS8 primary (-((primary &&& (cmhi primary first &&& cmhi primary second)) >>> 6)) <<< 4) addition

/-- The pixel that each kernel stores. -/
def Kernel32.pixel (cpu : Cpu) : Kernel32 → Pixel
  | .threshold => fun f => cmhi (f 1 0) (byteArgument32 cpu 3) &&& f 1 0
  | .thresholdBinary => fun f => cmhi (f 1 0) (byteArgument32 cpu 3)
  | .compare3Add => fun f => compareAdd32 (f 0 0) (f 1 0) (f 2 0) (f 3 0)
  | .wst => fun f => weighSubtract (byteArgument32 cpu 5) (byteArgument32 cpu 6) (byteArgument32 cpu 7) (f 0 0)
      (f 1 0) (f 2 0)
  | .splitWst => fun f => weighSubtract (byteArgument32 cpu 4) (byteArgument32 cpu 5) (byteArgument32 cpu 6)
      (f 0 (splitOffset cpu)) (f 0 ((splitOffset cpu + 1) % 3)) (f 0 ((splitOffset cpu + 2) % 3))
  | .bitwiseOr => fun f => f 0 0 ||| f 1 0
  | .subtract => fun f => uqsub (f 0 0) (f 1 0)

end VisionServer.Neon
