/-
This file gives the text of the 64-bit NEON kernels and their prototypes.
-/

import VisionServer.Library.Aarch64

namespace VisionServer.Neon
open Library Library.Aarch64 Library.Assembly

inductive Label where
  | memcpyThresholdAsm
  | threshLoop
  | memcpyThresholdBinaryAsm
  | threshBinLoop
  | memcpyCompare3AddAsm
  | cmp3AddLoop
  | memcpyWstAsm
  | wstLoop
  | memcpyDeinterlaceWstbAsm
  | c0SplitWstbLoop
  | c1SplitWstbLoop
  | c2SplitWstbLoop
  | splitWstbEnd
  | memcpyDeinterlaceTograyAsm
  | tograyLoop
  | tograySingle
  | tograyEnd
  | memcpyBitwiseOrAsm
  | bitwiseOrLoop
  | memcpyBitwiseOr3cAsm
  | bitwiseOr3cLoop
  | memcpyAddAsm
  | addLoop
  | memcpyAdd3cAsm
  | add3cLoop
  | memcpyAdd3c2Asm
  | add3c2Loop
  | memcpySubtractAsm
  | subtractLoop
deriving DecidableEq

abbrev Text := List (Line Op Cond Label)

def memcpyThresholdAsm : Text :=
  [.label .memcpyThresholdAsm,
    .op (.lsr .w 2 2 4),
    .op (.dup .b16 3 3),
    .label .threshLoop,
    .op (.ldr 0 0 16),
    .op (.cmhi 1 0 3),
    .op (.and 2 1 0),
    .op (.str 2 1 16),
    .op (.subs 2 2 1),
    .branch .ne .threshLoop,
    .ret]

/-- The kernel loads from its second argument and stores to its first one. -/
def memcpyThresholdBinaryAsm : Text :=
  [.label .memcpyThresholdBinaryAsm,
    .op (.lsr .w 2 2 4),
    .op (.dup .b8 3 3),
    .label .threshBinLoop,
    .op (.ldr 0 1 16),
    .op (.cmhi 1 0 3),
    .op (.str 1 0 16),
    .op (.subs 2 2 1),
    .branch .ne .threshBinLoop,
    .ret]

def memcpyCompare3AddAsm : Text :=
  [.label .memcpyCompare3AddAsm,
    .op (.lsr .w 5 5 4),
    .label .cmp3AddLoop,
    .op (.ldr 0 0 16),
    .op (.ldr 1 1 16),
    .op (.ldr 2 2 16),
    .op (.ldr 3 3 16),
    .op (.cmhi 1 0 1),
    .op (.cmhi 2 0 2),
    .op (.and 1 1 2),
    .op (.and 2 0 1),
    .op (.ushrImm 1 2 6),
    .op (.neg 1 1),
    .op (.uqshl 2 0 1),
    .op (.uqshlImm 2 2 4),
    .op (.uqadd 3 2 3),
    .op (.str 3 4 16),
    .op (.subs 5 5 1),
    .branch .ne .cmp3AddLoop,
    .ret]

/-- The kernel stores through the pointer of its second source. -/
def memcpyWstAsm : Text :=
  [.label .memcpyWstAsm,
    .op (.dup .b16 4 5),
    .op (.clz 4 4),
    .op (.neg 4 4),
    .op (.dup .b16 5 6),
    .op (.clz 5 5),
    .op (.neg 5 5),
    .op (.dup .b16 6 7),
    .op (.lsr .x 4 4 4),
    .label .wstLoop,
    .op (.ldr 0 0 16),
    .op (.ldr 1 1 16),
    .op (.ldr 2 2 16),
    .op (.ushl 1 1 4),
    .op (.ushl 2 2 5),
    .op (.uqadd 3 1 2),
    .op (.uqadd 3 3 6),
    .op (.uqsub 3 0 3),
    .op (.str 3 1 16),
    .op (.subs 4 4 1),
    .branch .ne .wstLoop,
    .ret]

def memcpyDeinterlaceWstbAsm : Text :=
  [.label .memcpyDeinterlaceWstbAsm,
    .op (.dup .b16 4 4),
    .op (.clz 4 4),
    .op (.neg 4 4),
    .op (.dup .b16 5 5),
    .op (.clz 5 5),
    .op (.neg 5 5),
    .op (.dup .b16 6 6),
    .op (.lsr .x 2 2 4),
    .op (.cmp 3 1),
    .branch .lt .c0SplitWstbLoop,
    .branch .eq .c1SplitWstbLoop,
    .branch .gt .c2SplitWstbLoop,
    .label .c0SplitWstbLoop,
    .op (.ld3 0 0 48),
    .op (.ushl 1 1 4),
    .op (.ushl 2 2 5),
    .op (.uqadd 3 1 2),
    .op (.uqsub 3 0 3),
    .op (.cmhi 3 3 6),
    .op (.str 3 1 16),
    .op (.subs 2 2 1),
    .branch .ne .c0SplitWstbLoop,
    .branch .eq .splitWstbEnd,
    .label .c1SplitWstbLoop,
    .op (.ld3 0 0 48),
    .op (.ushl 2 2 4),
    .op (.ushl 0 0 5),
    .op (.uqadd 3 2 0),
    .op (.uqsub 3 1 3),
    .op (.cmhi 3 3 6),
    .op (.str 3 1 16),
    .op (.subs 2 2 1),
    .branch .ne .c1SplitWstbLoop,
    .branch .eq .splitWstbEnd,
    .label .c2SplitWstbLoop,
    .op (.ld3 0 0 48),
    .op (.ushl 0 0 4),
    .op (.ushl 1 1 5),
    .op (.uqadd 3 0 1),
    .op (.uqsub 3 2 3),
    .op (.cmhi 3 3 6),
    .op (.str 3 1 16),
    .op (.subs 2 2 1),
    .branch .ne .c2SplitWstbLoop,
    .branch .eq .splitWstbEnd,
    .label .splitWstbEnd,
    .ret]

def memcpyDeinterlaceTograyAsm : Text :=
  [.label .memcpyDeinterlaceTograyAsm,
    .op (.cmp 2 16),
    .branch .lo .tograySingle,
    .label .tograyLoop,
    .op (.ld3 0 0 48),
    .op (.ushrImm 0 0 2),
    .op (.ushrImm 1 1 1),
    .op (.ushrImm 2 2 2),
    .op (.uqadd 3 0 1),
    .op (.uqadd 3 2 3),
    .op (.str 3 1 16),
    .op (.subs 2 2 16),
    .branch .eq .tograyEnd,
    .op (.cmp 2 16),
    .branch .hs .tograyLoop,
    .label .tograySingle,
    .op (.ld3Lane 0 0 0 3),
    .op (.ushrImm 0 0 2),
    .op (.ushrImm 1 1 1),
    .op (.ushrImm 2 2 2),
    .op (.uqadd 3 0 1),
    .op (.uqadd 3 2 3),
    -- the single pixel is stored from another register than the blocks
    .op (.st1Lane 2 0 1 1),
    .op (.subs 2 2 1),
    .branch .ne .tograySingle,
    .label .tograyEnd,
    .ret]

def memcpyBitwiseOrAsm : Text :=
  [.label .memcpyBitwiseOrAsm,
    .op (.lsr .x 3 3 4),
    .label .bitwiseOrLoop,
    .op (.ldr 0 0 16),
    .op (.ldr 1 1 16),
    .op (.orr 2 0 1),
    .op (.str 2 2 16),
    .op (.subs 3 3 1),
    .branch .ne .bitwiseOrLoop,
    .ret]

/-- The kernel goes on in the loop of another kernel after its first block. -/
def memcpyBitwiseOr3cAsm : Text :=
  [.label .memcpyBitwiseOr3cAsm,
    .op (.lsr .x 3 3 4),
    .label .bitwiseOr3cLoop,
    .op (.ld3 0 0 48),
    .op (.ldr 3 1 16),
    .op (.orr 0 0 3),
    .op (.orr 1 1 3),
    .op (.orr 2 2 3),
    .op (.st3 0 2 48),
    .op (.subs 3 3 1),
    .branch .ne .bitwiseOrLoop,
    .ret]

def memcpyAddAsm : Text :=
  [.label .memcpyAddAsm,
    .op (.lsr .x 3 3 4),
    .label .addLoop,
    .op (.ldr 0 0 16),
    .op (.ldr 1 1 16),
    .op (.uqadd 2 0 1),
    .op (.str 2 2 16),
    .op (.subs 3 3 1),
    .branch .ne .addLoop,
    .ret]

def memcpyAdd3cAsm : Text :=
  [.label .memcpyAdd3cAsm,
    .op (.lsr .x 3 3 4),
    .label .add3cLoop,
    .op (.ld3 0 0 48),
    .op (.ldr 3 1 16),
    .op (.uqadd 0 0 3),
    .op (.uqadd 1 1 3),
    .op (.uqadd 2 2 3),
    .op (.st3 0 2 48),
    .op (.subs 3 3 1),
    .branch .ne .add3cLoop,
    .ret]

/-- The kernel goes on in the loop of another kernel after its first block. -/
def memcpyAdd3c2Asm : Text :=
  [.label .memcpyAdd3c2Asm,
    .op (.lsr .x 3 3 4),
    .label .add3c2Loop,
    .op (.ld3 0 0 48),
    .op (.ld3 3 1 48),
    .op (.uqadd 0 0 3),
    .op (.uqadd 1 1 4),
    .op (.uqadd 2 2 5),
    .op (.st3 0 2 48),
    .op (.subs 3 3 1),
    .branch .ne .add3cLoop,
    .ret]

def memcpySubtractAsm : Text :=
  [.label .memcpySubtractAsm,
    .op (.lsr .x 3 3 4),
    .label .subtractLoop,
    .op (.ldr 0 0 16),
    .op (.ldr 1 1 16),
    .op (.uqsub 2 0 1),
    .op (.str 2 2 16),
    .op (.subs 3 3 1),
    .branch .ne .subtractLoop,
    .ret]

def neon64 : Text :=
  memcpyThresholdAsm ++ memcpyThresholdBinaryAsm ++ memcpyCompare3AddAsm ++ memcpyWstAsm ++
    memcpyDeinterlaceWstbAsm ++ memcpyDeinterlaceTograyAsm ++ memcpyBitwiseOrAsm ++
    memcpyBitwiseOr3cAsm ++ memcpyAddAsm ++ memcpyAdd3cAsm ++ memcpyAdd3c2Asm ++ memcpySubtractAsm

/-- The kernels are the exported names. -/
inductive Kernel where
  | threshold
  | thresholdBinary
  | compare3Add
  | wst
  | deinterlaceWstb
  | deinterlaceTogray
  | bitwiseOr
  | bitwiseOr3c
  | add
  | add3c
  | add3c2
  | subtract
deriving DecidableEq

def Kernel.entry : Kernel → Label
  | .threshold => .memcpyThresholdAsm
  | .thresholdBinary => .memcpyThresholdBinaryAsm
  | .compare3Add => .memcpyCompare3AddAsm
  | .wst => .memcpyWstAsm
  | .deinterlaceWstb => .memcpyDeinterlaceWstbAsm
  | .deinterlaceTogray => .memcpyDeinterlaceTograyAsm
  | .bitwiseOr => .memcpyBitwiseOrAsm
  | .bitwiseOr3c => .memcpyBitwiseOr3cAsm
  | .add => .memcpyAddAsm
  | .add3c => .memcpyAdd3cAsm
  | .add3c2 => .memcpyAdd3c2Asm
  | .subtract => .memcpySubtractAsm

/-- A kernel takes images with a number of channels, its pixel count and bytes. -/
inductive Parameter where
  | source (channels : Nat)
  | dest (channels : Nat)
  | size
  | byte
deriving DecidableEq

/-- The prototypes order the parameters, and the parameters are passed in the first registers. -/
def Kernel.parameters : Kernel → List Parameter
  | .threshold => [.source 1, .dest 1, .size, .byte]
  | .thresholdBinary => [.source 1, .dest 1, .size, .byte]
  | .compare3Add => [.source 1, .source 1, .source 1, .source 1, .dest 1, .size]
  | .wst => [.source 1, .source 1, .source 1, .dest 1, .size, .byte, .byte, .byte]
  | .deinterlaceWstb => [.source 3, .dest 1, .size, .byte, .byte, .byte, .byte]
  | .deinterlaceTogray => [.source 3, .dest 1, .size]
  | .bitwiseOr => [.source 1, .source 1, .dest 1, .size]
  | .bitwiseOr3c => [.source 3, .source 1, .dest 3, .size]
  | .add => [.source 1, .source 1, .dest 1, .size]
  | .add3c => [.source 3, .source 1, .dest 3, .size]
  | .add3c2 => [.source 3, .source 3, .dest 3, .size]
  | .subtract => [.source 1, .source 1, .dest 1, .size]

end VisionServer.Neon
