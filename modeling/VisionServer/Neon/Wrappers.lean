/-
This file gives the checked wrappers that pass matrices to the NEON kernels.
-/

import VisionServer.Neon.Kernels

namespace VisionServer.Neon
open Library Library.Aarch64 Library.Assembly

inductive Depth where
  | cv8U
  | cv8S
  | cv16U
  | cv16S
  | cv32S
  | cv32F
  | cv64F
  | cv16F
deriving DecidableEq

/-- A type of a matrix has the depth of its channels and their number. -/
structure MatType where
  depth : Depth
  channels : Nat
deriving DecidableEq

def cv8UC1 : MatType := ⟨.cv8U, 1⟩

def cv8UC3 : MatType := ⟨.cv8U, 3⟩

/-- The elements of a continuous matrix follow each other from its data pointer. -/
structure Mat where
  rows : Nat
  cols : Nat
  type : MatType
  data : Word
deriving DecidableEq

namespace Mat

def area (m : Mat) : Nat := m.rows * m.cols

/-- The bytes of a matrix of bytes. -/
def bytes (m : Mat) : Set Word := span m.data (m.area * m.type.channels)

/-- A byte of a matrix at a distance from its data pointer. -/
def byteAt (m : Mat) (mem : Word → Byte) (q : Nat) : Byte := mem (m.data + BitVec.ofNat 64 q)

/-- A channel of a pixel, where one channel is broadcast to all. -/
def pixel (m : Mat) (mem : Word → Byte) (i channel : Nat) : Byte :=
  m.byteAt mem (m.type.channels * i + if m.type.channels = 1 then 0 else channel)

end Mat

/-- A wrapper stops at a failed assertion or at a product that is undefined. -/
inductive Stop where
  | assertion (text : String)
  | overflow
deriving DecidableEq

/-- A wrapper ends in a call of a kernel with arguments in the order of the prototype. -/
structure Launch where
  kernel : Kernel
  arguments : List Word
deriving DecidableEq

/-- The arguments of a call are passed in the first registers. -/
def Launch.enter (launch : Launch) (cpu : Cpu) : Cpu :=
  { cpu with x := fun r => (launch.arguments[r.val]?).getD (cpu.x r) }

def cvAssert (holds : Bool) (text : String) : Except Stop Unit :=
  if holds then .ok () else .error (.assertion text)

/-- A product of two `int` values is undefined outside their range. -/
def intMul (a b : Nat) : Except Stop Nat := if a * b < 2 ^ 31 then .ok (a * b) else .error .overflow

def neonBitwiseOr (a b dest : Mat) : Except Stop Launch := do
  cvAssert (a.area == b.area) "a.size().area() == b.size().area()"
  cvAssert (a.area == dest.area) "a.size().area() == dest.size().area()"
  if a.type = b.type then
    cvAssert (a.type == dest.type) "a.type() == dest.type()"
    let size ← intMul a.area a.type.channels
    return ⟨.bitwiseOr, [a.data, b.data, dest.data, .ofNat 64 size]⟩
  else if a.type = cv8UC3 then
    cvAssert (b.type == cv8UC1) "b.type() == CV_8UC1"
    cvAssert (dest.type == cv8UC3) "dest.type() == CV_8UC3"
    return ⟨.bitwiseOr3c, [a.data, b.data, dest.data, .ofNat 64 a.area]⟩
  else
    cvAssert (a.type == cv8UC1) "a.type() == CV_8UC1"
    cvAssert (b.type == cv8UC3) "b.type() == CV_8UC3"
    cvAssert (dest.type == cv8UC3) "dest.type() == CV_8UC3"
    return ⟨.bitwiseOr3c, [b.data, a.data, dest.data, .ofNat 64 a.area]⟩

def neonAdd (a b dest : Mat) : Except Stop Launch := do
  cvAssert (a.area == b.area) "a.size().area() == b.size().area()"
  cvAssert (a.area == dest.area) "a.size().area() == dest.size().area()"
  if a.type = cv8UC3 then
    cvAssert (dest.type == cv8UC3) "dest.type() == CV_8UC3"
    if b.type = cv8UC3 then
      return ⟨.add3c2, [a.data, b.data, dest.data, .ofNat 64 a.area]⟩
    else
      cvAssert (b.type == cv8UC1) "b.type() == CV_8UC1"
      return ⟨.add3c, [a.data, b.data, dest.data, .ofNat 64 a.area]⟩
  else if b.type = cv8UC3 then
    cvAssert (a.type == cv8UC1) "a.type() == CV_8UC1"
    cvAssert (dest.type == cv8UC3) "dest.type() == CV_8UC3"
    return ⟨.add3c, [b.data, a.data, dest.data, .ofNat 64 a.area]⟩
  else
    cvAssert (a.type == cv8UC1) "a.type() == CV_8UC1"
    cvAssert (b.type == cv8UC1) "b.type() == CV_8UC1"
    cvAssert (dest.type == cv8UC1) "dest.type() == CV_8UC1"
    return ⟨.add, [a.data, b.data, dest.data, .ofNat 64 a.area]⟩

/-- An argument of type `uint8_t` is passed in the lowest byte of its register. -/
def byteArgument (byte : Byte) : Word := byte.setWidth 64

theorem byteArgument_low (byte : Byte) : (byteArgument byte).setWidth 8 = byte := by
  rw [byteArgument, BitVec.setWidth_setWidth_of_le byte (by decide), BitVec.setWidth_eq]

def neonThreshold (src dest : Mat) (thresh : Byte) : Except Stop Launch := do
  cvAssert (src.type == cv8UC1) "src.type() == CV_8UC1"
  cvAssert (dest.type == cv8UC1) "dest.type() == CV_8UC1"
  cvAssert (src.area == dest.area) "src.size().area() == dest.size().area()"
  return ⟨.threshold, [src.data, dest.data, .ofNat 64 src.area, byteArgument thresh]⟩

def neonThresholdBinary (src dest : Mat) (thresh : Byte) : Except Stop Launch := do
  cvAssert (src.type == cv8UC1) "src.type() == CV_8UC1"
  cvAssert (dest.type == cv8UC1) "dest.type() == CV_8UC1"
  cvAssert (src.area == dest.area) "src.size().area() == dest.size().area()"
  return ⟨.thresholdBinary, [src.data, dest.data, .ofNat 64 src.area, byteArgument thresh]⟩

def neonCompare3Add (primary comp1 comp2 add dest : Mat) : Except Stop Launch := do
  cvAssert (primary.type == cv8UC1) "primary.type() == CV_8UC1"
  cvAssert (comp1.type == cv8UC1) "comp1.type() == CV_8UC1"
  cvAssert (comp2.type == cv8UC1) "comp2.type() == CV_8UC1"
  cvAssert (add.type == cv8UC1) "add.type() == CV_8UC1"
  cvAssert (dest.type == cv8UC1) "dest.type() == CV_8UC1"
  cvAssert (primary.area == comp1.area) "primary.size().area() == comp1.size().area()"
  cvAssert (primary.area == comp2.area) "primary.size().area() == comp2.size().area()"
  cvAssert (primary.area == add.area) "primary.size().area() == add.size().area()"
  cvAssert (primary.area == dest.area) "primary.size().area() == dest.size().area()"
  return ⟨.compare3Add,
    [primary.data, comp1.data, comp2.data, add.data, dest.data, .ofNat 64 primary.area]⟩

def neonWst (primary ch1 : Mat) (alpha : Byte) (ch2 : Mat) (beta : Byte) (dest : Mat) (gamma : Byte) :
    Except Stop Launch := do
  cvAssert (primary.type == cv8UC1) "primary.type() == CV_8UC1"
  cvAssert (ch1.type == cv8UC1) "ch1.type() == CV_8UC1"
  cvAssert (ch2.type == cv8UC1) "ch2.type() == CV_8UC1"
  cvAssert (dest.type == cv8UC1) "dest.type() == CV_8UC1"
  cvAssert (primary.area == ch1.area) "primary.size().area() == ch1.size().area()"
  cvAssert (primary.area == ch2.area) "primary.size().area() == ch2.size().area()"
  cvAssert (primary.area == dest.area) "primary.size().area() == dest.size().area()"
  return ⟨.wst, [primary.data, ch1.data, ch2.data, dest.data, .ofNat 64 primary.area,
    byteArgument alpha, byteArgument beta, byteArgument gamma]⟩

/-- These are the primary colours with their numbers. -/
inductive BGR where
  | blue
  | green
  | red
deriving DecidableEq

/-- This is the operator `~`. -/
def BGR.number : BGR → Fin 3
  | .blue => 0
  | .green => 1
  | .red => 2

def neonDeinterlaceWstb (frame3C dest : Mat) (primary : BGR) (alpha beta thresh : Byte) :
    Except Stop Launch := do
  cvAssert (frame3C.type == cv8UC3) "frame_3C.type() == CV_8UC3"
  cvAssert (dest.type == cv8UC1) "dest.type() == CV_8UC1"
  cvAssert (frame3C.area == dest.area) "frame_3C.size().area() == dest.size().area()"
  return ⟨.deinterlaceWstb, [frame3C.data, dest.data, .ofNat 64 frame3C.area,
    .ofNat 64 primary.number, byteArgument alpha, byteArgument beta, byteArgument thresh]⟩

def neonDeinterlaceCvt2gray (frame3C dest : Mat) : Except Stop Launch := do
  cvAssert (frame3C.type == cv8UC3) "frame_3C.type() == CV_8UC3"
  cvAssert (dest.type == cv8UC1) "dest.type() == CV_8UC1"
  cvAssert (frame3C.area == dest.area) "frame_3C.size().area() == dest.size().area()"
  return ⟨.deinterlaceTogray, [frame3C.data, dest.data, .ofNat 64 frame3C.area]⟩

/-- The type of the destination is compared with itself. -/
def neonSubtract (src sub dest : Mat) : Except Stop Launch := do
  cvAssert (src.type == cv8UC1) "src.type() == CV_8UC1"
  cvAssert (sub.type == cv8UC1) "sub.type() == CV_8UC1"
  cvAssert (dest.type == dest.type) "dest.type() == dest.type()"
  cvAssert (src.area == sub.area) "src.size().area() == sub.size().area()"
  cvAssert (src.area == dest.area) "src.size().area() == dest.size().area()"
  return ⟨.subtract, [src.data, sub.data, dest.data, .ofNat 64 src.area]⟩

abbrev Wrapper := Mat → Mat → Mat → Except Stop Launch

/-- No assertion of the wrapper fails. -/
def Accepts (wrapper : Wrapper) (a b dest : Mat) : Prop :=
  ∀ text, wrapper a b dest ≠ .error (.assertion text)

section Accepted

variable {α : Type} {holds : Bool} {text : String} {next : Except Stop α}

/-- An assertion before an accepted continuation holds. -/
theorem holds_of_accepted
    (accepted : ∀ other, (cvAssert holds text >>= fun _ => next) ≠ .error (.assertion other)) :
    holds = true ∧ ∀ other, next ≠ .error (.assertion other) := by
  cases holds with
  | true => exact ⟨rfl, accepted⟩
  | false => exact absurd rfl (accepted text)

end Accepted

/-- The combinations of types that the wrappers pass to a kernel. -/
inductive Combination (a b dest : Mat) : Prop where
  | same (first : a.type = b.type) (second : a.type = dest.type)
  | colourMono (first : a.type = cv8UC3) (second : b.type = cv8UC1) (third : dest.type = cv8UC3)
  | monoColour (first : a.type = cv8UC1) (second : b.type = cv8UC3) (third : dest.type = cv8UC3)

/-- An accepted pair has equal areas and one of the combinations. -/
theorem neonBitwiseOr_accepted {a b dest : Mat} (accepted : Accepts neonBitwiseOr a b dest) :
    a.area = b.area ∧ a.area = dest.area ∧ Combination a b dest := by
  unfold Accepts neonBitwiseOr at accepted
  obtain ⟨first, accepted⟩ := holds_of_accepted accepted
  obtain ⟨second, accepted⟩ := holds_of_accepted accepted
  refine ⟨beq_iff_eq.mp first, beq_iff_eq.mp second, ?_⟩
  by_cases same : a.type = b.type
  · simp only [same, if_true] at accepted
    obtain ⟨third, _⟩ := holds_of_accepted accepted
    exact .same same (same.trans (beq_iff_eq.mp third))
  · simp only [same, if_false] at accepted
    by_cases colour : a.type = cv8UC3
    · simp only [colour, if_true] at accepted
      obtain ⟨third, accepted⟩ := holds_of_accepted accepted
      obtain ⟨fourth, _⟩ := holds_of_accepted accepted
      exact .colourMono colour (beq_iff_eq.mp third) (beq_iff_eq.mp fourth)
    · simp only [colour, if_false] at accepted
      obtain ⟨third, accepted⟩ := holds_of_accepted accepted
      obtain ⟨fourth, accepted⟩ := holds_of_accepted accepted
      obtain ⟨fifth, _⟩ := holds_of_accepted accepted
      exact .monoColour (beq_iff_eq.mp third) (beq_iff_eq.mp fourth) (beq_iff_eq.mp fifth)

/-- The sum takes bytes without a sign only. -/
theorem neonAdd_accepted {a b dest : Mat} (accepted : Accepts neonAdd a b dest) :
    a.area = b.area ∧ a.area = dest.area ∧ Combination a b dest ∧ (a.type = cv8UC1 ∨ a.type = cv8UC3) := by
  unfold Accepts neonAdd at accepted
  obtain ⟨first, accepted⟩ := holds_of_accepted accepted
  obtain ⟨second, accepted⟩ := holds_of_accepted accepted
  refine ⟨beq_iff_eq.mp first, beq_iff_eq.mp second, ?_⟩
  by_cases colour : a.type = cv8UC3
  · simp only [colour, if_true] at accepted
    obtain ⟨third, accepted⟩ := holds_of_accepted accepted
    have dest := beq_iff_eq.mp third
    refine ⟨?_, Or.inr colour⟩
    by_cases both : b.type = cv8UC3
    · exact .same (colour.trans both.symm) (colour.trans dest.symm)
    · simp only [both, if_false] at accepted
      obtain ⟨fourth, _⟩ := holds_of_accepted accepted
      exact .colourMono colour (beq_iff_eq.mp fourth) dest
  · simp only [colour, if_false] at accepted
    by_cases other : b.type = cv8UC3
    · simp only [other, if_true] at accepted
      obtain ⟨third, accepted⟩ := holds_of_accepted accepted
      obtain ⟨fourth, _⟩ := holds_of_accepted accepted
      exact ⟨.monoColour (beq_iff_eq.mp third) other (beq_iff_eq.mp fourth), Or.inl (beq_iff_eq.mp third)⟩
    · simp only [other, if_false] at accepted
      obtain ⟨third, accepted⟩ := holds_of_accepted accepted
      obtain ⟨fourth, accepted⟩ := holds_of_accepted accepted
      obtain ⟨fifth, _⟩ := holds_of_accepted accepted
      exact ⟨.same ((beq_iff_eq.mp third).trans (beq_iff_eq.mp fourth).symm)
        ((beq_iff_eq.mp third).trans (beq_iff_eq.mp fifth).symm), Or.inl (beq_iff_eq.mp third)⟩

section Launches

variable {a b dest : Mat} (areas : a.area = b.area ∧ a.area = dest.area)
include areas

theorem neonBitwiseOr_same (first : a.type = b.type) (second : a.type = dest.type) :
    neonBitwiseOr a b dest = (intMul a.area a.type.channels).map fun size =>
      ⟨.bitwiseOr, [a.data, b.data, dest.data, .ofNat 64 size]⟩ := by
  obtain ⟨one, two⟩ := areas
  simp only [neonBitwiseOr, ← one, ← two, ← first, ← second, beq_self_eq_true, cvAssert, if_true]
  rfl

theorem neonBitwiseOr_colourMono (first : a.type = cv8UC3) (second : b.type = cv8UC1)
    (third : dest.type = cv8UC3) :
    neonBitwiseOr a b dest = .ok ⟨.bitwiseOr3c, [a.data, b.data, dest.data, .ofNat 64 a.area]⟩ := by
  obtain ⟨one, two⟩ := areas
  simp only [neonBitwiseOr, ← one, ← two, first, second, third, beq_self_eq_true, cvAssert, if_true,
    show cv8UC3 ≠ cv8UC1 by decide, if_false]
  rfl

theorem neonBitwiseOr_monoColour (first : a.type = cv8UC1) (second : b.type = cv8UC3)
    (third : dest.type = cv8UC3) :
    neonBitwiseOr a b dest = .ok ⟨.bitwiseOr3c, [b.data, a.data, dest.data, .ofNat 64 a.area]⟩ := by
  obtain ⟨one, two⟩ := areas
  simp only [neonBitwiseOr, ← one, ← two, first, second, third, beq_self_eq_true, cvAssert, if_true,
    show cv8UC1 ≠ cv8UC3 by decide, if_false]
  rfl

theorem neonAdd_mono (first : a.type = cv8UC1) (second : b.type = cv8UC1) (third : dest.type = cv8UC1) :
    neonAdd a b dest = .ok ⟨.add, [a.data, b.data, dest.data, .ofNat 64 a.area]⟩ := by
  obtain ⟨one, two⟩ := areas
  simp only [neonAdd, ← one, ← two, first, second, third, beq_self_eq_true, cvAssert, if_true,
    show cv8UC1 ≠ cv8UC3 by decide, if_false]
  rfl

theorem neonAdd_colour (first : a.type = cv8UC3) (second : b.type = cv8UC3) (third : dest.type = cv8UC3) :
    neonAdd a b dest = .ok ⟨.add3c2, [a.data, b.data, dest.data, .ofNat 64 a.area]⟩ := by
  obtain ⟨one, two⟩ := areas
  simp only [neonAdd, ← one, ← two, first, second, third, beq_self_eq_true, cvAssert, if_true]
  rfl

theorem neonAdd_colourMono (first : a.type = cv8UC3) (second : b.type = cv8UC1)
    (third : dest.type = cv8UC3) :
    neonAdd a b dest = .ok ⟨.add3c, [a.data, b.data, dest.data, .ofNat 64 a.area]⟩ := by
  obtain ⟨one, two⟩ := areas
  simp only [neonAdd, ← one, ← two, first, second, third, beq_self_eq_true, cvAssert, if_true,
    show cv8UC1 ≠ cv8UC3 by decide, if_false]
  rfl

theorem neonAdd_monoColour (first : a.type = cv8UC1) (second : b.type = cv8UC3)
    (third : dest.type = cv8UC3) :
    neonAdd a b dest = .ok ⟨.add3c, [b.data, a.data, dest.data, .ofNat 64 a.area]⟩ := by
  obtain ⟨one, two⟩ := areas
  simp only [neonAdd, ← one, ← two, first, second, third, beq_self_eq_true, cvAssert, if_true,
    show cv8UC1 ≠ cv8UC3 by decide, if_false]
  rfl

end Launches

/-- An accepted sum is passed to a kernel, also with its operands exchanged. -/
theorem neonAdd_accepts_swap {a b dest : Mat} (accepted : Accepts neonAdd a b dest) :
    Accepts neonAdd b a dest := by
  obtain ⟨one, two, combination, types⟩ := neonAdd_accepted accepted
  have areas : b.area = a.area ∧ b.area = dest.area := ⟨one.symm, one.symm.trans two⟩
  have passes {launch : Launch} (passed : neonAdd b a dest = .ok launch) : Accepts neonAdd b a dest := by
    intro text failed
    rw [passed] at failed
    cases failed
  cases combination with
  | same first second =>
      rcases types with mono | colour
      · exact passes (neonAdd_mono areas (first.symm.trans mono) mono (second.symm.trans mono))
      · exact passes (neonAdd_colour areas (first.symm.trans colour) colour (second.symm.trans colour))
  | colourMono first second third => exact passes (neonAdd_monoColour areas second first third)
  | monoColour first second third => exact passes (neonAdd_colourMono areas second first third)

end VisionServer.Neon
