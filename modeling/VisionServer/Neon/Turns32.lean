/-
This file gives the pixels that one turn of each 32-bit loop stores.
-/

import VisionServer.Neon.Family32

namespace VisionServer.Neon
open Library Library.Assembly
open Library.Aarch64 (Lanes)
open Library.Aarch32 (Cpu exec_vld1_pair)
open Library.Aarch32.Vector (Op Pixel Shape Turn)

/-- These are the instructions of a loop before the comparison of its counter. -/
def turnOf (head : Label32) : List Op := (block (codeAt head neon32)).dropLast.dropLast

/-- The constants of a loop are the threshold, or the shifts of both weights and gamma. -/
def Kernel32.Constants (cpu : Cpu) : Kernel32 → (Fin 16 → Lanes) → Prop
  | .threshold => fun q => q 3 = fun _ => byteArgument32 cpu 3
  | .thresholdBinary => fun q => q 3 = fun _ => byteArgument32 cpu 3
  | .wst => fun q => (q 8 = fun _ => -(byteArgument32 cpu 5).clz) ∧ (q 9 = fun _ => -(byteArgument32 cpu 6).clz) ∧
      q 10 = fun _ => byteArgument32 cpu 7
  | .splitWst => fun q => (q 8 = fun _ => -(byteArgument32 cpu 4).clz) ∧
      (q 9 = fun _ => -(byteArgument32 cpu 5).clz) ∧ q 10 = fun _ => byteArgument32 cpu 6
  | _ => fun _ => True

def splitLoop32 : Fin 3 → Label32
  | 0 => .c0SplitWstLoop
  | 1 => .c1SplitWstLoop
  | 2 => .c2SplitWstLoop

theorem splitLoop32_cases {motive : Label32 → Prop} (first : motive .c0SplitWstLoop)
    (second : motive .c1SplitWstLoop) (third : motive .c2SplitWstLoop) (offset : Fin 3) :
    motive (splitLoop32 offset) :=
  match offset with
  | 0 => first
  | 1 => second
  | 2 => third

/-- The loop of a kernel, where the split kernel has one for each offset. -/
def Kernel32.loop (cpu : Cpu) : Kernel32 → Label32
  | .threshold => .shared .threshLoop
  | .thresholdBinary => .shared .threshBinLoop
  | .compare3Add => .shared .cmp3AddLoop
  | .wst => .shared .wstLoop
  | .splitWst => splitLoop32 (splitOffset cpu)
  | .bitwiseOr => .shared .bitwiseOrLoop
  | .subtract => .shared .subtractLoop

/-- Vector code moves the images of a turn by its blocks. -/
theorem moved_of_advance {shape : Shape} {ops : List Op} (vector : ∀ op ∈ ops, op.isVector)
    (blocks : ∀ k, Aarch32.Vector.advance k ops = 16 * shape.stride k) (s : Cpu) (k : Fin 16) :
    (execAll Aarch32.Vector.isa ops s).r k = s.r k + BitVec.ofNat 32 (16 * shape.stride k) := by
  rw [Aarch32.Vector.execAll_r vector, blocks]

/-- A turn that writes other registers keeps the shifts of the weights and gamma. -/
theorem weights_kept {ops : List Op} {alpha beta gamma : Lanes}
    (outside : ∀ op ∈ ops, 8 ∉ op.quads ∧ 9 ∉ op.quads ∧ 10 ∉ op.quads) (s : Cpu)
    (constants : s.q 8 = alpha ∧ s.q 9 = beta ∧ s.q 10 = gamma) :
    (execAll Aarch32.Vector.isa ops s).q 8 = alpha ∧ (execAll Aarch32.Vector.isa ops s).q 9 = beta ∧
      (execAll Aarch32.Vector.isa ops s).q 10 = gamma := by
  obtain ⟨first, second, third⟩ := constants
  exact ⟨(Aarch32.Vector.execAll_q (fun op member => (outside op member).1) s).trans first,
    (Aarch32.Vector.execAll_q (fun op member => (outside op member).2.1) s).trans second,
    (Aarch32.Vector.execAll_q (fun op member => (outside op member).2.2) s).trans third⟩

variable (cpu : Cpu)

theorem threshold_turn : Turn Kernel32.threshold.shape (turnOf (.shared .threshLoop))
    (Kernel32.threshold.Constants cpu) (Kernel32.threshold.pixel cpu) where
  kept s constant := (Aarch32.Vector.execAll_q (by decide) s).trans constant
  moved := moved_of_advance (by decide) (by decide)
  mem s constant := by
    apply Aarch32.Vector.mem_of_vst1
      [.plain (.vld1 0 1), .plain (.vld1 1 1), .plain (.vcgtU8 1 0 3), .plain (.vand 2 1 0)]
      (d := 4) (e := 5) (q := 2)
      (by decide) (by decide) rfl rfl rfl
    intro i
    have threshold : s.q 3 = fun _ => byteArgument32 cpu 3 := constant
    simp only [execAll_cons, execAll_nil, Aarch32.Vector.exec_plain]
    rw [exec_vld1_pair (d := 0) (e := 1) (k := 0) rfl rfl]
    simp [Aarch32.isa, Cpu.exec, threshold, Kernel32.pixel, Shape.channelsAt, Cpu.byteAt, Kernel32.shape]
  loads f g same := by
    have loaded := same 1 0 (by decide)
    simp only [Kernel32.pixel, loaded]

theorem thresholdBinary_turn : Turn Kernel32.thresholdBinary.shape (turnOf (.shared .threshBinLoop))
    (Kernel32.thresholdBinary.Constants cpu) (Kernel32.thresholdBinary.pixel cpu) where
  kept s constant := (Aarch32.Vector.execAll_q (by decide) s).trans constant
  moved := moved_of_advance (by decide) (by decide)
  mem s constant := by
    apply Aarch32.Vector.mem_of_vst1
      [.plain (.vld1 0 1), .plain (.vld1 1 1), .plain (.vcgtU8 1 0 3)]
      (d := 2) (e := 3) (q := 1) (by decide) (by decide) rfl rfl rfl
    intro i
    have threshold : s.q 3 = fun _ => byteArgument32 cpu 3 := constant
    simp only [execAll_cons, execAll_nil, Aarch32.Vector.exec_plain]
    rw [exec_vld1_pair (d := 0) (e := 1) (k := 0) rfl rfl]
    simp [Aarch32.isa, Cpu.exec, threshold, Kernel32.pixel, Shape.channelsAt, Cpu.byteAt, Kernel32.shape]
  loads f g same := by
    have loaded := same 1 0 (by decide)
    simp only [Kernel32.pixel, loaded]

theorem compare3Add_turn : Turn Kernel32.compare3Add.shape (turnOf (.shared .cmp3AddLoop))
    (Kernel32.compare3Add.Constants cpu) (Kernel32.compare3Add.pixel cpu) where
  kept _ _ := trivial
  moved := moved_of_advance (by decide) (by decide)
  mem s _ := by
    apply Aarch32.Vector.mem_of_vst1
      [.plain (.vld1 0 0), .plain (.vld1 1 0), .plain (.vld1 2 1), .plain (.vld1 3 1), .plain (.vld1 4 2),
        .plain (.vld1 5 2), .plain (.vld1 6 3), .plain (.vld1 7 3), .plain (.vcgtU8 1 0 1), .plain (.vcgtU8 2 0 2),
        .plain (.vand 1 1 2), .plain (.vand 2 0 1), .plain (.vshrU8 1 2 6), .plain (.vnegS8 1 1),
        .plain (.vshlS8 2 0 1), .plain (.vshlImm 2 2 4), .plain (.vqaddU8 3 2 3)]
      (d := 6) (e := 7) (q := 3)
      (by decide) (by decide) rfl rfl rfl
    intro i
    simp only [execAll_cons, execAll_nil, Aarch32.Vector.exec_plain]
    rw [exec_vld1_pair (d := 6) (e := 7) (k := 3) rfl rfl, exec_vld1_pair (d := 4) (e := 5) (k := 2) rfl rfl,
      exec_vld1_pair (d := 2) (e := 3) (k := 1) rfl rfl, exec_vld1_pair (d := 0) (e := 1) (k := 0) rfl rfl]
    simp [Aarch32.isa, Cpu.exec, Kernel32.pixel, Shape.channelsAt, Cpu.byteAt, Kernel32.shape, compareAdd32]
  loads f g same := by
    simp only [Kernel32.pixel, same 0 0 (by decide), same 1 0 (by decide), same 2 0 (by decide), same 3 0 (by decide)]

theorem wst_turn : Turn Kernel32.wst.shape (turnOf (.shared .wstLoop))
    (Kernel32.wst.Constants cpu) (Kernel32.wst.pixel cpu) where
  kept := weights_kept (by decide)
  moved := moved_of_advance (by decide) (by decide)
  mem s constants := by
    apply Aarch32.Vector.mem_of_vst1
      [.plain (.vld1 0 0), .plain (.vld1 1 0), .plain (.vld1 2 1), .plain (.vld1 3 1), .plain (.vld1 4 2),
        .plain (.vld1 5 2), .vshlU8 1 1 8, .vshlU8 2 2 9, .plain (.vqaddU8 3 1 2), .plain (.vqaddU8 3 3 10),
        .vqsubU8 3 0 3]
      (d := 6) (e := 7) (q := 3) (by decide) (by decide) rfl rfl rfl
    intro i
    obtain ⟨alpha, beta, gamma⟩ := constants
    simp only [execAll_cons, execAll_nil, Aarch32.Vector.exec_plain]
    rw [exec_vld1_pair (d := 4) (e := 5) (k := 2) rfl rfl,
      exec_vld1_pair (d := 2) (e := 3) (k := 1) rfl rfl, exec_vld1_pair (d := 0) (e := 1) (k := 0) rfl rfl]
    simp [Aarch32.isa, Aarch32.Vector.isa, Aarch32.Vector.exec, Cpu.exec, alpha, beta, gamma, Kernel32.pixel,
      Shape.channelsAt, Cpu.byteAt, Kernel32.shape, weighSubtract]
  loads f g same := by
    simp only [Kernel32.pixel, same 0 0 (by decide), same 1 0 (by decide), same 2 0 (by decide)]

theorem bitwiseOr_turn : Turn Kernel32.bitwiseOr.shape (turnOf (.shared .bitwiseOrLoop))
    (Kernel32.bitwiseOr.Constants cpu) (Kernel32.bitwiseOr.pixel cpu) where
  kept _ _ := trivial
  moved := moved_of_advance (by decide) (by decide)
  mem s _ := by
    apply Aarch32.Vector.mem_of_vst1
      [.plain (.vld1 0 0), .plain (.vld1 1 0), .plain (.vld1 2 1), .plain (.vld1 3 1), .vorr 2 0 1]
      (d := 4) (e := 5) (q := 2)
      (by decide) (by decide) rfl rfl rfl
    intro i
    simp only [execAll_cons, execAll_nil, Aarch32.Vector.exec_plain]
    rw [exec_vld1_pair (d := 2) (e := 3) (k := 1) rfl rfl, exec_vld1_pair (d := 0) (e := 1) (k := 0) rfl rfl]
    simp [Aarch32.Vector.isa, Aarch32.Vector.exec, Kernel32.pixel, Shape.channelsAt, Cpu.byteAt, Kernel32.shape]
  loads f g same := by
    simp only [Kernel32.pixel, same 0 0 (by decide), same 1 0 (by decide)]

theorem subtract_turn : Turn Kernel32.subtract.shape (turnOf (.shared .subtractLoop))
    (Kernel32.subtract.Constants cpu) (Kernel32.subtract.pixel cpu) where
  kept _ _ := trivial
  moved := moved_of_advance (by decide) (by decide)
  mem s _ := by
    apply Aarch32.Vector.mem_of_vst1
      [.plain (.vld1 0 0), .plain (.vld1 1 0), .plain (.vld1 2 1), .plain (.vld1 3 1), .vqsubU8 2 0 1]
      (d := 4) (e := 5) (q := 2)
      (by decide) (by decide) rfl rfl rfl
    intro i
    simp only [execAll_cons, execAll_nil, Aarch32.Vector.exec_plain]
    rw [exec_vld1_pair (d := 2) (e := 3) (k := 1) rfl rfl, exec_vld1_pair (d := 0) (e := 1) (k := 0) rfl rfl]
    simp [Aarch32.Vector.isa, Aarch32.Vector.exec, Kernel32.pixel, Shape.channelsAt, Cpu.byteAt, Kernel32.shape]
  loads f g same := by
    simp only [Kernel32.pixel, same 0 0 (by decide), same 1 0 (by decide)]

/-- A split loop loads the channels, weighs two of them and subtracts the sum from the primary one. -/
def splitBody (primary second third : Fin 16) : List Op :=
  [.vld3 0 2 4 0, .vld3 1 3 5 0, .vshlU8 second second 8, .vshlU8 third third 9,
    .plain (.vqaddU8 3 second third), .plain (.vqaddU8 3 3 10), .vqsubU8 3 primary 3]

/-- The loops take the channels from the registers in a cyclic order. -/
def splitFront : Fin 3 → List Op
  | 0 => splitBody 0 1 2
  | 1 => splitBody 1 2 0
  | 2 => splitBody 2 0 1

theorem split_lanes {s : Cpu} (constants : Kernel32.splitWst.Constants cpu s.q) (i : Fin 16) :
    (execAll Aarch32.Vector.isa (splitFront (splitOffset cpu)) s).q 3 i =
      Kernel32.splitWst.pixel cpu (Kernel32.splitWst.shape.channelsAt s i) := by
  obtain ⟨alpha, beta, gamma⟩ := constants
  generalize found : splitOffset cpu = offset
  match offset with
  | 0 | 1 | 2 =>
      simp only [splitFront, splitBody, execAll_cons, execAll_nil, Aarch32.Vector.exec_vld3_pair]
      simp [Aarch32.Vector.isa, Aarch32.Vector.exec, Cpu.exec, alpha, beta, gamma, Kernel32.pixel,
        Shape.channelsAt, Cpu.byteAt, Kernel32.shape, weighSubtract, found]

/-- The three loops differ only in the registers, so one proof serves each offset. -/
theorem split_turn : Turn Kernel32.splitWst.shape (turnOf (splitLoop32 (splitOffset cpu)))
    (Kernel32.splitWst.Constants cpu) (Kernel32.splitWst.pixel cpu) := by
  have ops : ∀ offset, turnOf (splitLoop32 offset) = splitFront offset ++ [.vst1Two 6 7 1] := by decide
  have vector : ∀ offset, ∀ op ∈ splitFront offset ++ [.vst1Two 6 7 1], op.isVector := by decide
  have outside : ∀ offset, ∀ op ∈ splitFront offset ++ [.vst1Two 6 7 1],
      8 ∉ op.quads ∧ 9 ∉ op.quads ∧ 10 ∉ op.quads := by decide
  have advances : ∀ offset k, Aarch32.Vector.advance k (splitFront offset ++ [.vst1Two 6 7 1]) =
      16 * Kernel32.splitWst.shape.stride k := by decide
  have loads : ∀ offset, ∀ op ∈ splitFront offset, op.isLoad := by decide
  have stays : ∀ offset, Aarch32.Vector.advance 1 (splitFront offset) = 0 := by decide
  rw [ops]
  constructor
  · exact weights_kept (outside _)
  · exact moved_of_advance (vector _) (advances _)
  · intro s constants
    rw [execAll, List.foldl_append]
    exact Aarch32.Vector.mem_of_vst1 _ (loads _)
      (fun op member => vector _ op (List.mem_append_left _ member)) (stays _) rfl rfl s (split_lanes cpu constants)
  · intro f g same
    have channel : ∀ c : Nat, c < 3 → f 0 c = g 0 c := fun c => same 0 c
    simp only [Kernel32.pixel]
    rw [channel _ (splitOffset cpu).isLt, channel _ (Nat.mod_lt _ (by decide)), channel _ (Nat.mod_lt _ (by decide))]

/-- Each turn stores the pixels of its kernel. -/
theorem Kernel32.turn (k : Kernel32) : Turn k.shape (turnOf (k.loop cpu)) (k.Constants cpu) (k.pixel cpu) := by
  cases k with
  | threshold => exact threshold_turn cpu
  | thresholdBinary => exact thresholdBinary_turn cpu
  | compare3Add => exact compare3Add_turn cpu
  | wst => exact wst_turn cpu
  | splitWst => exact split_turn cpu
  | bitwiseOr => exact bitwiseOr_turn cpu
  | subtract => exact subtract_turn cpu

end VisionServer.Neon
