/-
This file decides what the clockwise and the counterclockwise order of points have in common.
-/

import Mathlib.Algebra.Order.Ring.Rat
import Mathlib.Data.Fintype.Basic
import VisionServer.Library.Sorting
import VisionServer.Vision.Centers

namespace VisionServer.Vision
open Library

section Functions

variable (sort : (Point → Point → Bool) → List Point → List Point) (atan2 : Int → Int → ℚ)

/-- This is the angle of `point - center`. -/
def angle (center point : Point) : ℚ := atan2 (point 0 - center 0) (point 1 - center 1)

/-- A subtraction is undefined where an `int` cannot hold the difference. A single point is its own center, so it
makes no difference that a sort compares nothing then. -/
def Reachable (center : Point) (points : List Point) : Prop :=
  ∀ point ∈ points, ∀ axis, IsInt (point axis - center axis)

instance (center : Point) (points : List Point) : Decidable (Reachable center points) :=
  inferInstanceAs (Decidable (∀ point ∈ points, ∀ axis, IsInt (point axis - center axis)))

def reorderClockWise (points : List Point) : Option (List Point) := do
  let center ← findCenter points
  if Reachable center points then
    return sort (fun a b => -angle atan2 center a < -angle atan2 center b) points
  else none

def reorderCClockWise (points : List Point) : Option (List Point) := do
  let center ← findCenter points
  if Reachable center points then
    return sort (fun a b => angle atan2 center a < angle atan2 center b) points
  else none

end Functions

section Orders

variable {sort : (Point → Point → Bool) → List Point → List Point} {atan2 : Int → Int → ℚ}
  {points : List Point}

/-- No two points have the same angle around the center. -/
def Spread (atan2 : Int → Int → ℚ) (points : List Point) : Prop :=
  ∀ center, findCenter points = some center → Set.InjOn (angle atan2 center) {point | point ∈ points}

/-- The two functions return opposite orders of points with different angles. -/
theorem reorderCClockWise_eq_reverse (sorts : Sorts sort) (spread : Spread atan2 points) :
    reorderCClockWise sort atan2 points = (reorderClockWise sort atan2 points).map List.reverse := by
  unfold reorderCClockWise reorderClockWise
  cases found : findCenter points with
  | none => rfl
  | some center =>
      have opposite := sorts.reverse (spread center found) fun first second =>
        (neg_lt_neg_iff (a := angle atan2 center first) (b := angle atan2 center second))
      simp only [Option.bind_eq_bind, Option.bind_some]
      split
      · rw [opposite]
        simp
      · rfl

/-- The absolute values have a sum that an `int` holds, so that their order makes no difference. -/
def Small (points : List Point) : Prop := ∀ axis, (points.map fun point => |point axis|).sum < 2 ^ 31

instance (points : List Point) : Decidable (Small points) :=
  inferInstanceAs (Decidable (∀ axis, (points.map fun point => |point axis|).sum < 2 ^ 31))

theorem Small.of_perm {others : List Point} (small : Small points) (same : others.Perm points) : Small others := by
  intro axis
  rw [(same.map fun point => |point axis|).sum_eq]
  exact small axis

/-- No running sum is greater than the sum of the absolute values. -/
theorem abs_partialSum_le (points : List Point) (count : Nat) (axis : Fin 2) :
    |partialSum points count axis| ≤ (points.map fun point => |point axis|).sum := by
  induction points generalizing count with
  | nil => simp [partialSum]
  | cons point points inductionHypothesis =>
      have rest : 0 ≤ (points.map fun point => |point axis|).sum :=
        (abs_nonneg _).trans (inductionHypothesis 0)
      cases count with
      | zero =>
          have here := abs_nonneg (point axis)
          simp only [partialSum, List.take_zero, List.map_nil, List.sum_nil, abs_zero, List.map_cons, List.sum_cons]
          omega
      | succ count =>
          have later := inductionHypothesis count
          have triangle := abs_add_le (point axis) (partialSum points count axis)
          rw [partialSum_cons, List.map_cons, List.sum_cons]
          omega

theorem Small.foldlM_eq (small : Small points) : points.foldlM addPoint (fun _ => 0) = some (total points) := by
  refine (foldlM_addPoint points (fun _ => 0) _).mpr ⟨fun count _ axis => ?_, by simp⟩
  have bound := (abs_partialSum_le points (count + 1) axis).trans_lt (small axis)
  have range := abs_lt.mp bound
  unfold IsInt
  omega

/-- The center belongs to the points in any order. -/
theorem Small.findCenter_of_perm {others : List Point} (small : Small points) (same : others.Perm points) :
    findCenter others = findCenter points := by
  have sums : total others = total points :=
    funext fun axis => (same.map fun point : Point => point axis).sum_eq
  unfold findCenter centerOf
  rw [small.foldlM_eq, (small.of_perm same).foldlM_eq, sums, same.length_eq]

/-- The result belongs to the points in any order. -/
theorem reorder_of_perm (sorts : Sorts sort) (spread : Spread atan2 points) (small : Small points)
    {others : List Point} (same : others.Perm points) :
    reorderClockWise sort atan2 others = reorderClockWise sort atan2 points ∧
      reorderCClockWise sort atan2 others = reorderCClockWise sort atan2 points := by
  unfold reorderCClockWise reorderClockWise
  rw [small.findCenter_of_perm same]
  cases found : findCenter points with
  | none => exact ⟨rfl, rfl⟩
  | some center =>
      have reachable : Reachable center others ↔ Reachable center points :=
        forall_congr' fun point => imp_congr_left same.mem_iff
      have distinct := spread center found
      have opposite : Set.InjOn (fun point => -angle atan2 center point) {point | point ∈ points} :=
        fun first member second inside equal => distinct member inside (neg_injective equal)
      simp only [Option.bind_eq_bind, Option.bind_some, reachable]
      rw [sorts.eq_of_perm distinct same, sorts.eq_of_perm opposite same]
      exact ⟨rfl, rfl⟩

/-- The functions keep the points. -/
theorem perm_of_reordered (sorts : Sorts sort) {ret : List Point} (returned : reorderClockWise sort atan2 points =
    some ret ∨ reorderCClockWise sort atan2 points = some ret) : ret.Perm points := by
  unfold reorderCClockWise reorderClockWise at returned
  cases found : findCenter points with
  | none =>
      rw [found] at returned
      rcases returned with missing | missing
      · cases missing
      · cases missing
  | some center =>
      rw [found] at returned
      simp only [Option.bind_eq_bind, Option.bind_some] at returned
      split at returned
      · rcases returned with clockwise | counterclockwise
        · cases clockwise
          exact sorts.perm _ _ (strictWeak_of_key fun point => -angle atan2 center point)
        · cases counterclockwise
          exact sorts.perm _ _ (strictWeak_of_key (angle atan2 center))
      · rcases returned with missing | missing
        · cases missing
        · cases missing

/-- The first of two calls makes no difference to the result of the second one, and neither is defined without the
other. -/
theorem reorder_twice (sorts : Sorts sort) (spread : Spread atan2 points) (small : Small points) :
    ((reorderClockWise sort atan2 points).bind (reorderClockWise sort atan2) = reorderClockWise sort atan2 points ∧
      (reorderCClockWise sort atan2 points).bind (reorderClockWise sort atan2) =
        reorderClockWise sort atan2 points) ∧
    (reorderClockWise sort atan2 points).bind (reorderCClockWise sort atan2) =
        reorderCClockWise sort atan2 points ∧
      (reorderCClockWise sort atan2 points).bind (reorderCClockWise sort atan2) =
        reorderCClockWise sort atan2 points := by
  have opposite := reorderCClockWise_eq_reverse sorts spread
  cases clockwise : reorderClockWise sort atan2 points with
  | none =>
      rw [clockwise] at opposite
      simp [opposite]
  | some ret =>
      rw [clockwise] at opposite
      have first := reorder_of_perm sorts spread small (perm_of_reordered sorts (Or.inl clockwise))
      have second := reorder_of_perm sorts spread small (perm_of_reordered sorts (Or.inr opposite))
      rw [clockwise, opposite] at first second
      simp [opposite, first, second]

end Orders

section Corners

def corner (x y : Int) : Point := fun axis => if axis = 0 then x else y

/-- These are the corners of a square. -/
def corners : List Point := [corner 0 0, corner 2 0, corner 2 2, corner 0 2]

/-- These are the angles of the corners. -/
def cornerAngle : Int → Int → ℚ
  | 1, 1 => 884279719003555 / 1125899906842624
  | 1, -1 => 2652839157010665 / 1125899906842624
  | -1, 1 => -884279719003555 / 1125899906842624
  | -1, -1 => -2652839157010665 / 1125899906842624
  | _, _ => 0

theorem corners_spread : Spread cornerAngle corners := by
  intro center found
  have middle : findCenter corners = some (corner 1 1) := by decide
  cases middle.symm.trans found
  exact List.inj_on_of_nodup_map (by decide +kernel)

theorem corners_twice :
    ((reorderClockWise mergeBy cornerAngle corners).bind (reorderClockWise mergeBy cornerAngle) =
        reorderClockWise mergeBy cornerAngle corners ∧
      (reorderCClockWise mergeBy cornerAngle corners).bind (reorderClockWise mergeBy cornerAngle) =
        reorderClockWise mergeBy cornerAngle corners) ∧
    (reorderClockWise mergeBy cornerAngle corners).bind (reorderCClockWise mergeBy cornerAngle) =
        reorderCClockWise mergeBy cornerAngle corners ∧
      (reorderCClockWise mergeBy cornerAngle corners).bind (reorderCClockWise mergeBy cornerAngle) =
        reorderCClockWise mergeBy cornerAngle corners :=
  reorder_twice mergeBy_sorts corners_spread (by decide)

end Corners

end VisionServer.Vision
