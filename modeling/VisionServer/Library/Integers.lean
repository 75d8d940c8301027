/-
This file gives the conversions to the fixed-width integers of the source language.
-/

import Mathlib.Data.Int.Basic
import Mathlib.Algebra.Order.Ring.Int

namespace VisionServer.Library

/-- A conversion to `int` keeps the value modulo `2 ^ 32`. -/
def toInt32 (value : Int) : Int := value.bmod (2 ^ 32)

/-- A value in the range of `int` survives the conversion. -/
theorem toInt32_of_range {value : Int} (low : -2 ^ 31 ≤ value) (high : value < 2 ^ 31) :
    toInt32 value = value := by
  rw [toInt32, Int.bmod_def]
  split <;> omega

section Quotients

/-- The quotient of an `int` by a `size_t` is computed without a sign. -/
def quotientBySize (value : Int) (size : Nat) : Int := toInt32 (value % 2 ^ 64 / size)

/-- The unsigned quotient of a negative value by the size wraps around to the signed one. -/
def Wraps (value : Int) (size : Nat) : Prop :=
  if value.natAbs % size ≤ 2 ^ 64 % size then 2 ^ 64 / size % 2 ^ 32 = 0 else 2 ^ 64 / size % 2 ^ 32 = 1

instance (value : Int) (size : Nat) : Decidable (Wraps value size) := by
  unfold Wraps
  infer_instance

/-- A difference is divided by parts. -/
theorem sub_ediv_eq (whole part size : Nat) (some : 0 < size) : ((whole : Int) - part) / size =
    if part % size ≤ whole % size then ((whole / size : Nat) : Int) - (part / size : Nat)
    else ((whole / size : Nat) : Int) - (part / size : Nat) - 1 := by
  have first : (whole : Int) = size * (whole / size : Nat) + (whole % size : Nat) := by
    exact_mod_cast (Nat.div_add_mod whole size).symm
  have second : (part : Int) = size * (part / size : Nat) + (part % size : Nat) := by
    exact_mod_cast (Nat.div_add_mod part size).symm
  have low := Nat.mod_lt whole some
  have high := Nat.mod_lt part some
  have positive : (0 : Int) < size := by omega
  split
  · have parts : (whole : Int) - part = ((whole % size : Nat) - (part % size : Nat)) +
        size * ((whole / size : Nat) - (part / size : Nat)) := by
      rw [mul_sub]
      omega
    rw [parts, Int.add_mul_ediv_left _ _ positive.ne', Int.ediv_eq_zero_of_lt (by omega) (by omega)]
    omega
  · have parts : (whole : Int) - part = ((whole % size : Nat) - (part % size : Nat) + size) +
        size * ((whole / size : Nat) - (part / size : Nat) - 1) := by
      rw [mul_sub, mul_sub]
      omega
    rw [parts, Int.add_mul_ediv_left _ _ positive.ne', Int.ediv_eq_zero_of_lt (by omega) (by omega)]
    omega

/-- The quotient is the truncated one if and only if the value has no sign or the quotient wraps around. -/
theorem quotientBySize_eq_tdiv_iff {value : Int} {size : Nat} (some : 0 < size) (low : -2 ^ 31 ≤ value)
    (high : value < 2 ^ 31) : quotientBySize value size = value.tdiv size ↔ 0 ≤ value ∨ Wraps value size := by
  unfold quotientBySize
  by_cases sign : 0 ≤ value
  · have below : value / size ≤ value := Int.ediv_le_self _ sign
    have least : 0 ≤ value / size := Int.ediv_nonneg sign (Int.natCast_nonneg _)
    rw [Int.emod_eq_of_lt sign (by omega), Int.tdiv_eq_ediv_of_nonneg sign,
      toInt32_of_range (by omega) (by omega)]
    exact iff_of_true rfl (Or.inl sign)
  · obtain ⟨part, rfl⟩ : ∃ part : Nat, value = -part := ⟨value.natAbs, by omega⟩
    have wrapped : -(part : Int) % 2 ^ 64 = ((2 ^ 64 : Nat) : Int) - part := by omega
    have quotient : (-(part : Int)).tdiv size = -((part / size : Nat) : Int) := by
      rw [Int.neg_tdiv, Int.tdiv_eq_ediv_of_nonneg (Int.natCast_nonneg _), Int.natCast_ediv]
    have few : part / size ≤ part := Nat.div_le_self _ _
    have absolute : (-(part : Int)).natAbs = part := by omega
    rw [wrapped, sub_ediv_eq _ _ _ some, quotient, Wraps, absolute, or_iff_right sign, toInt32, Int.bmod_def]
    generalize 2 ^ 64 / size = whole
    generalize part / size = rest at few
    split
    · split <;> omega
    · split <;> omega

end Quotients

end VisionServer.Library
