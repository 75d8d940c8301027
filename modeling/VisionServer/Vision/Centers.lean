/-
This file decides when the center of a contour is the mean of its points.
-/

import Mathlib.Algebra.BigOperators.Group.List.Basic
import Mathlib.Algebra.Order.BigOperators.Group.List
import VisionServer.Library.Floating
import VisionServer.Library.Integers

namespace VisionServer.Vision
open Library

/-- A point has one `int` on each axis. -/
abbrev Coordinates (axes : Nat) := Fin axes → Int

/-- This is `cv::Point_<int>`. -/
abbrev Point := Coordinates 2

/-- This is `cv::Point3_<int>`. -/
abbrev Point3 := Coordinates 3

section Means

variable {axes : Nat}

/-- An addition is undefined where an `int` cannot hold a sum. -/
def addPoint (ret point : Coordinates axes) : Option (Coordinates axes) :=
  if ∀ axis, IsInt (ret axis + point axis) then some fun axis => ret axis + point axis else none

/-- The sums of the axes are divided by the size of the vector. -/
def centerOf (contour : List (Coordinates axes)) : Option (Coordinates axes) :=
  if contour.length > 0 then do
    let ret ← contour.foldlM addPoint fun _ => 0
    return fun axis => quotientBySize (ret axis) contour.length
  else some fun _ => 0

end Means

def findCenter (contour : List Point) : Option Point := centerOf contour

def findCenter3D (contour : List Point3) : Option Point3 := centerOf contour

section Sums

variable {axes : Nat}

/-- This is the sum of the first points on an axis. -/
def partialSum (contour : List (Coordinates axes)) (count : Nat) (axis : Fin axes) : Int :=
  ((contour.take count).map fun point => point axis).sum

def total (contour : List (Coordinates axes)) (axis : Fin axes) : Int :=
  (contour.map fun point => point axis).sum

theorem partialSum_cons (point : Coordinates axes) (rest : List (Coordinates axes)) (count : Nat)
    (axis : Fin axes) :
    partialSum (point :: rest) (count + 1) axis = point axis + partialSum rest count axis := by
  rw [partialSum, List.take_succ_cons, List.map_cons, List.sum_cons, partialSum]

/-- The loop ends with the sums if and only if an `int` holds each of them on the way. -/
theorem foldlM_addPoint (contour : List (Coordinates axes)) (acc ret : Coordinates axes) :
    contour.foldlM addPoint acc = some ret ↔
      (∀ count < contour.length, ∀ axis, IsInt (acc axis + partialSum contour (count + 1) axis)) ∧
        ret = fun axis => acc axis + total contour axis := by
  induction contour generalizing acc with
  | nil => simp [total, eq_comm]
  | cons point rest ih =>
      have first : (∀ axis, IsInt (acc axis + partialSum (point :: rest) (0 + 1) axis)) ↔
          ∀ axis, IsInt (acc axis + point axis) := by
        simp only [partialSum_cons]
        simp [partialSum]
      have later (count : Nat) (axis : Fin axes) :
          acc axis + partialSum (point :: rest) (count + 1 + 1) axis =
            acc axis + point axis + partialSum rest (count + 1) axis := by
        rw [partialSum_cons, add_assoc]
      have whole (axis : Fin axes) :
          acc axis + total (point :: rest) axis = acc axis + point axis + total rest axis := by
        rw [total, List.map_cons, List.sum_cons, ← add_assoc, total]
      rw [List.foldlM_cons, List.length_cons, Nat.forall_lt_succ_left, first]
      simp only [later, whole]
      unfold addPoint
      by_cases fits : ∀ axis, IsInt (acc axis + point axis)
      · rw [if_pos fits]
        exact (ih _).trans (and_congr_left' (and_iff_right fits).symm)
      · rw [if_neg fits]
        exact iff_of_false (fun taken => nomatch taken) fun given => fits given.1.1

end Sums

/-- A contour has points whose sums are in the range of an `int`. -/
structure Contour (axes : Nat) where
  points : List (Coordinates axes)
  nonempty : points ≠ []
  fits : ∀ axis, IsInt (total points axis)

namespace Contour

variable {axes : Nat} (c : Contour axes)

/-- This is the truncated mean on an axis. -/
def mean (axis : Fin axes) : Int := (total c.points axis).tdiv c.points.length

/-- A point lies between the least and the greatest coordinates. -/
def Inside (center : Coordinates axes) : Prop :=
  ∀ axis low high, (∀ point ∈ c.points, low ≤ point axis ∧ point axis ≤ high) →
    low ≤ center axis ∧ center axis ≤ high

/-- The function returns the truncated means, and they lie in the bounding box. -/
def Centered (returned : Option (Coordinates axes)) : Prop :=
  ∃ center, returned = some center ∧ (∀ axis, center axis = c.mean axis) ∧ c.Inside center

/-- No running sum leaves the range, and each sum has no sign or its unsigned quotient wraps around to the
signed one. -/
def Divisible : Prop :=
  (∀ count < c.points.length, ∀ axis, IsInt (partialSum c.points (count + 1) axis)) ∧
    ∀ axis, 0 ≤ total c.points axis ∨ Wraps (total c.points axis) c.points.length

theorem length_pos : 0 < c.points.length := List.length_pos_iff.mpr c.nonempty

theorem mean_inside : c.Inside c.mean := by
  intro axis low high bounds
  have count := c.length_pos
  have least : (c.points.length : Int) * low ≤ total c.points axis := by
    have sums := List.card_nsmul_le_sum (c.points.map fun point => point axis) low (by
      intro value member
      obtain ⟨point, listed, rfl⟩ := List.mem_map.mp member
      exact (bounds point listed).1)
    rwa [List.length_map, nsmul_eq_mul] at sums
  have most : total c.points axis ≤ (c.points.length : Int) * high := by
    have sums := List.sum_le_card_nsmul (c.points.map fun point => point axis) high (by
      intro value member
      obtain ⟨point, listed, rfl⟩ := List.mem_map.mp member
      exact (bounds point listed).2)
    rwa [List.length_map, nsmul_eq_mul] at sums
  have positive : (0 : Int) < c.points.length := by omega
  have multiple (value : Int) : ((c.points.length : Int) * value).tdiv c.points.length = value :=
    Int.mul_tdiv_cancel_left _ positive.ne'
  unfold mean
  constructor
  · rw [← multiple low]
    exact Int.tdiv_le_tdiv positive least
  · rw [← multiple high]
    exact Int.tdiv_le_tdiv positive most

/-- The center is the truncated mean if and only if no running sum leaves the range of an `int` and each sum has
no sign or its unsigned quotient wraps around to the signed one. -/
theorem centerOf_centered_iff : c.Centered (centerOf c.points) ↔ c.Divisible := by
  have quotient (axis : Fin axes) := quotientBySize_eq_tdiv_iff (c.length_pos) (c.fits axis).1 (c.fits axis).2
  have loop (ret : Coordinates axes) : c.points.foldlM addPoint (fun _ => 0) = some ret ↔
      (∀ count < c.points.length, ∀ axis, IsInt (partialSum c.points (count + 1) axis)) ∧
        ret = total c.points := by
    rw [foldlM_addPoint]
    simp only [zero_add]
  unfold centerOf
  rw [if_pos c.length_pos]
  constructor
  · rintro ⟨center, returned, means, _⟩
    obtain ⟨ret, summed, divided⟩ := Option.bind_eq_some_iff.mp returned
    obtain ⟨running, rfl⟩ := (loop ret).mp summed
    obtain rfl := Option.some.inj divided
    exact ⟨running, fun axis => (quotient axis).mp (means axis)⟩
  · rintro ⟨running, signs⟩
    have means : (fun axis => quotientBySize (total c.points axis) c.points.length) = c.mean :=
      funext fun axis => (quotient axis).mpr (signs axis)
    refine ⟨c.mean, ?_, fun _ => rfl, c.mean_inside⟩
    rw [(loop _).mpr ⟨running, rfl⟩, ← means]
    rfl

end Contour

/-- Both functions return the truncated means if and only if no running sum leaves the range of an `int` and each
sum has no sign or its unsigned quotient wraps around to the signed one. -/
theorem centered_iff_divisible (flat : Contour 2) (solid : Contour 3) :
    (flat.Centered (findCenter flat.points) ↔ flat.Divisible) ∧
      (solid.Centered (findCenter3D solid.points) ↔ solid.Divisible) :=
  ⟨flat.centerOf_centered_iff, solid.centerOf_centered_iff⟩

/-- Three points lie at minus one on both axes. -/
def threeNegatives : Contour 2 where
  points := List.replicate 3 fun _ => -1
  nonempty := by decide
  fits := by decide

/-- The center lies far outside of the points. -/
theorem threeNegatives_not_centered : ¬ threeNegatives.Centered (findCenter threeNegatives.points) := by
  intro given
  have signs := ((threeNegatives.centerOf_centered_iff).mp given).2 0
  exact absurd signs (by decide)

end VisionServer.Vision
