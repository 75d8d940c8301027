/-
This file reads the size of a calibration from its key.
-/

import VisionServer.Camera.Modes
import VisionServer.Library.Decimal

namespace VisionServer.Config
open Library Camera

/-- This is `std::string_view::npos`. -/
def npos : Nat := 2 ^ 64 - 1

/-- The length of a view is below `npos`. -/
structure StringView where
  chars : List Char
  fits : chars.length < npos

namespace StringView

/-- This is the position of the first such character, or `npos`. -/
def find (str : StringView) (c : Char) : Nat := (str.chars.findIdx? (· == c)).getD npos

/-- These are two pointers into one view, where the second is not before the first. -/
structure Range (str : StringView) where
  first : Nat
  last : Nat
  ordered : first ≤ last
  inside : last ≤ str.chars.length

variable {str : StringView}

/-- The pointers at these offsets bound a part of the view, or a use of them is undefined. -/
def range? (str : StringView) (first last : Nat) : Option str.Range :=
  if bounds : first ≤ last ∧ last ≤ str.chars.length then some ⟨first, last, bounds.1, bounds.2⟩ else none

def Range.chars (range : str.Range) : List Char := (str.chars.take range.last).drop range.first

end StringView

/-- There is no result where the behaviour is undefined. -/
def extractSize (str : StringView) : Option Size := do
  let a := str.find 'x'
  let width ← str.range? 0 a
  let height ← str.range? (a + 1) str.chars.length
  pure { width := fromChars width.chars 0, height := fromChars height.chars 0 }

/-- A key is the text of the width, an `x` and the text of the height. -/
def sizeText (width height : Int) : List Char := decimalText width ++ 'x' :: decimalText height

namespace StringView

variable {str : StringView}

theorem findIdx?_of_not_mem {chars : List Char} {c : Char} (other : c ∉ chars) :
    chars.findIdx? (· == c) = none := by
  rw [List.findIdx?_eq_none_iff]
  intro x member
  exact beq_eq_false_iff_ne.mpr fun same => other (same ▸ member)

theorem find_append_cons {before after : List Char} {c : Char} (chars : str.chars = before ++ c :: after)
    (other : c ∉ before) : str.find c = before.length := by
  rw [find, chars, List.findIdx?_append, findIdx?_of_not_mem other, Option.none_or, List.findIdx?_cons,
    beq_self_eq_true]
  exact Nat.zero_add _

theorem find_of_not_mem {c : Char} (other : c ∉ str.chars) : str.find c = npos := by
  rw [find, findIdx?_of_not_mem other]
  rfl

theorem range?_eq_some {first last : Nat} (ordered : first ≤ last) (inside : last ≤ str.chars.length) :
    str.range? first last = some ⟨first, last, ordered, inside⟩ := dif_pos ⟨ordered, inside⟩

theorem range?_eq_none {first last : Nat} (outside : str.chars.length < last) : str.range? first last = none :=
  dif_neg fun bounds => absurd bounds.2 (Nat.not_le_of_lt outside)

end StringView

/-- Both numbers are read around the first `x` of the view. -/
theorem extractSize_append_cons {str : StringView} {before after : List Char}
    (chars : str.chars = before ++ 'x' :: after) (other : 'x' ∉ before) :
    extractSize str = some { width := fromChars before 0, height := fromChars after 0 } := by
  have length : str.chars.length = before.length + (after.length + 1) := by
    rw [chars, List.length_append, List.length_cons]
  have left : before.length ≤ str.chars.length := by omega
  have right : before.length + 1 ≤ str.chars.length := by omega
  have width : (str.chars.take before.length).drop 0 = before := by
    rw [chars, List.drop_zero, List.take_left]
  have height : (str.chars.take str.chars.length).drop (before.length + 1) = after := by
    rw [List.take_length, chars, ← List.drop_drop, List.drop_left]
    rfl
  simp only [extractSize, StringView.find_append_cons chars other]
  rw [StringView.range?_eq_some (Nat.zero_le _) left, StringView.range?_eq_some right le_rfl]
  change some (Size.mk (fromChars ((str.chars.take before.length).drop 0) 0)
    (fromChars ((str.chars.take str.chars.length).drop (before.length + 1)) 0)) = _
  rw [width, height]

/-- Without an `x` the first number would end far outside the view. -/
theorem extractSize_of_not_mem {str : StringView} (other : 'x' ∉ str.chars) : extractSize str = none := by
  simp only [extractSize, StringView.find_of_not_mem other]
  rw [StringView.range?_eq_none str.fits]
  rfl

theorem x_not_mem_decimalText (value : Int) : 'x' ∉ decimalText value := by
  intro member
  rcases mem_decimalText member with digit | sign
  · exact absurd digit (by decide)
  · exact absurd sign (by decide)

/-- This is the key of a size as a view. -/
def sizeKey (width height : { value : Int // IsInt value }) : StringView where
  chars := sizeText width height
  fits := by
    have widthLength := length_decimalText_le width.2
    have heightLength := length_decimalText_le height.2
    rw [sizeText, List.length_append, List.length_cons]
    unfold npos
    omega

/-- A key gives its size back, and reading a view stays inside it if and only if it contains an `x`. -/
theorem extractSize_iff_mem (width height : { value : Int // IsInt value }) (str : StringView) :
    extractSize (sizeKey width height) = some { width := width, height := height } ∧
      ((extractSize str).isSome ↔ 'x' ∈ str.chars) := by
  constructor
  · rw [extractSize_append_cons rfl (x_not_mem_decimalText width), fromChars_decimalText width.2,
      fromChars_decimalText height.2]
  · constructor
    · intro read
      by_contra other
      rw [extractSize_of_not_mem other] at read
      exact Bool.false_ne_true read
    · intro member
      obtain ⟨before, after, chars, other⟩ := List.eq_append_cons_of_mem member
      rw [extractSize_append_cons chars other]
      rfl

/-- This key is a width alone. -/
def widthOnly : StringView := ⟨['6', '4', '0'], by decide⟩

/-- It is read outside its view. -/
theorem widthOnly_not_read : ¬(extractSize widthOnly).isSome := by
  rw [extractSize_of_not_mem (by decide)]
  exact Bool.false_ne_true

end VisionServer.Config
