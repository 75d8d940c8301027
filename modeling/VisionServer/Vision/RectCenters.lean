/-
This file compares the center of a rectangle with the center of its corners.
-/

import VisionServer.Vision.Centers
import VisionServer.Vision.Rescale

namespace VisionServer.Vision
open Library

/-- This is the top-left corner. -/
def Rect_.tl (rect : Rect_ CInt) : Point_ CInt := ⟨rect.x, rect.y⟩

/-- This is the bottom-right corner. -/
def Rect_.br (rect : Rect_ CInt) : Option (Point_ CInt) := do
  return ⟨← toCInt (rect.x.val + rect.width.val), ← toCInt (rect.y.val + rect.height.val)⟩

/-- This is `findCenter` for a rectangle, which divides with a sign. -/
def findRectCenter (rect : Rect_ CInt) : Option (Point_ CInt) := do
  let br ← rect.br
  let x ← toCInt (rect.tl.x.val + br.x.val)
  let y ← toCInt (rect.tl.y.val + br.y.val)
  return ⟨← toCInt (x.val.tdiv 2), ← toCInt (y.val.tdiv 2)⟩

/-- These are the coordinates of a point on its axes. -/
def Point_.axes (point : Point_ CInt) : Point := fun axis => if axis.val = 0 then point.x.val else point.y.val

/-- The corners of a rectangle are a contour. -/
def findCornerCenter (rect : Rect_ CInt) : Option Point := do
  let br ← rect.br
  findCenter [rect.tl.axes, br.axes]

section Corners

variable {rect : Rect_ CInt} {br : Point_ CInt}

/-- An odd negative number is divided by two to another one without its sign. -/
theorem quotient_of_two_iff {sum : Int} (fits : IsInt sum) :
    quotientBySize sum 2 = sum.tdiv 2 ↔ 0 ≤ sum ∨ sum % 2 = 0 := by
  have wraps : Wraps sum 2 ↔ sum % 2 = 0 := by
    unfold Wraps
    split
    · exact iff_of_true (by decide) (by omega)
    · exact iff_of_false (by decide) (by omega)
  exact (quotientBySize_eq_tdiv_iff two_pos fits.1 fits.2).trans (or_congr_right wraps)

theorem axes_isInt (point : Point_ CInt) (axis : Fin 2) : IsInt (point.axes axis) := by
  unfold Point_.axes
  split
  · exact point.x.property
  · exact point.y.property

/-- The center of two corners is defined when an `int` holds their sums. -/
theorem findCornerCenter_eq (found : rect.br = some br) : findCornerCenter rect =
    if ∀ axis, IsInt (rect.tl.axes axis + br.axes axis) then
      some fun axis => quotientBySize (rect.tl.axes axis + br.axes axis) 2
    else none := by
  have first : addPoint (fun _ => 0) rect.tl.axes = some rect.tl.axes := by
    unfold addPoint
    simp only [zero_add]
    exact if_pos (axes_isInt _)
  have two : [rect.tl.axes, br.axes].length > 0 := Nat.succ_pos 1
  rw [findCornerCenter, found]
  change centerOf [rect.tl.axes, br.axes] = _
  rw [centerOf, if_pos two, List.foldlM_cons, first]
  simp only [Option.bind_eq_bind, Option.bind_some, List.foldlM_cons, List.foldlM_nil]
  unfold addPoint
  split
  · rfl
  · rfl

/-- A sum is halved to the same number by both divisions. -/
def Halves (sum : Int) : Prop := IsInt sum ∧ (0 ≤ sum ∨ sum % 2 = 0)

/-- The centers agree if and only if the corner is defined, and each sum of two corners is an `int` that is even or has
no sign. -/
theorem findRectCenter_agree_iff (rect : Rect_ CInt) :
    (∃ center, findRectCenter rect = some center ∧ findCornerCenter rect = some center.axes) ↔
      ∃ br, rect.br = some br ∧ Halves (rect.x.val + br.x.val) ∧ Halves (rect.y.val + br.y.val) := by
  constructor
  · intro ⟨center, whole, corners⟩
    obtain ⟨br, found, rest⟩ := Option.bind_eq_some_iff.mp whole
    obtain ⟨x, sumX, rest⟩ := Option.bind_eq_some_iff.mp rest
    obtain ⟨y, sumY, rest⟩ := Option.bind_eq_some_iff.mp rest
    obtain ⟨halfX, quotientX, rest⟩ := Option.bind_eq_some_iff.mp rest
    obtain ⟨halfY, quotientY, same⟩ := Option.bind_eq_some_iff.mp rest
    cases same
    have heldX : x.val = rect.x.val + br.x.val := toCInt_eq_some.mp sumX
    have heldY : y.val = rect.y.val + br.y.val := toCInt_eq_some.mp sumY
    rw [toCInt_eq_some, heldX] at quotientX
    rw [toCInt_eq_some, heldY] at quotientY
    have fitsX := heldX ▸ x.property
    have fitsY := heldY ▸ y.property
    rw [findCornerCenter_eq found] at corners
    split at corners
    · have equal := Option.some.inj corners
      have first : quotientBySize (rect.x.val + br.x.val) 2 = halfX.val := congrFun equal 0
      have second : quotientBySize (rect.y.val + br.y.val) 2 = halfY.val := congrFun equal 1
      exact ⟨br, found, ⟨fitsX, (quotient_of_two_iff fitsX).mp (first.trans quotientX)⟩,
        fitsY, (quotient_of_two_iff fitsY).mp (second.trans quotientY)⟩
    · cases corners
  · intro ⟨br, found, ⟨fitsX, signX⟩, fitsY, signY⟩
    have halfX := isInt_tdiv ⟨_, fitsX⟩ 2
    have halfY := isInt_tdiv ⟨_, fitsY⟩ 2
    refine ⟨⟨⟨_, halfX⟩, ⟨_, halfY⟩⟩, ?_, ?_⟩
    · have sumX : toCInt (rect.tl.x.val + br.x.val) = some ⟨_, fitsX⟩ := dif_pos fitsX
      have sumY : toCInt (rect.tl.y.val + br.y.val) = some ⟨_, fitsY⟩ := dif_pos fitsY
      have quotientX : toCInt ((rect.x.val + br.x.val).tdiv 2) = some ⟨_, halfX⟩ := dif_pos halfX
      have quotientY : toCInt ((rect.y.val + br.y.val).tdiv 2) = some ⟨_, halfY⟩ := dif_pos halfY
      rw [findRectCenter, found]
      simp [sumX, sumY, quotientX, quotientY]
    · have fits : ∀ axis, IsInt (rect.tl.axes axis + br.axes axis) := by
        rw [Fin.forall_fin_two]
        exact ⟨fitsX, fitsY⟩
      rw [findCornerCenter_eq found, if_pos fits]
      congr 1
      funext axis
      match axis with
      | 0 => exact (quotient_of_two_iff fitsX).mpr signX
      | 1 => exact (quotient_of_two_iff fitsY).mpr signY

end Corners

end VisionServer.Vision
