/-
This file rounds rational numbers to binary floating-point formats.
-/

import Mathlib.Algebra.Order.Field.Power
import Mathlib.Data.Int.Log
import Mathlib.Data.Rat.Floor
import Mathlib.Tactic.FieldSimp
import Mathlib.Tactic.Linarith
import Mathlib.Tactic.Positivity
import Mathlib.Tactic.Ring
import VisionServer.Library.Floating

namespace VisionServer.Library

/-- This is the nearest integer, or the even one of two. -/
def roundEven (value : ℚ) : Int :=
  if Int.fract value < 1 / 2 ∨ Int.fract value = 1 / 2 ∧ ⌊value⌋ % 2 = 0 then ⌊value⌋ else ⌊value⌋ + 1

/-- The values have so many digits, their last digit is not below the least exponent, and their magnitude is below the
greatest power. -/
structure FloatFormat where
  digits : Nat
  least : Int
  greatest : Int

def binary32 : FloatFormat where
  digits := 24
  least := -149
  greatest := 128

def binary64 : FloatFormat where
  digits := 53
  least := -1074
  greatest := 1024

namespace FloatFormat

variable (format : FloatFormat)

/-- This is the weight of the last digit next to a value. -/
def unit (value : ℚ) : ℚ := 2 ^ max (Int.log 2 |value| - (format.digits - 1)) format.least

/-- Small values are rounded to the last digit, however many digits they lose. -/
def round (value : ℚ) : ℚ := roundEven (value / format.unit value) * format.unit value

/-- A rounded value beyond the greatest ones is an infinity. -/
def store (value : ℚ) : Floating :=
  if |format.round value| < 2 ^ format.greatest then .finite (format.round value) else .infinite (value < 0)

/-- The product of the exact numbers is rounded, and a zero has no sign here. -/
def mul : Floating → Floating → Floating
  | .finite first, .finite second => format.store (first * second)
  | .finite first, .infinite negative => if first = 0 then .nan else .infinite (negative != decide (first < 0))
  | .infinite negative, .finite second => if second = 0 then .nan else .infinite (negative != decide (second < 0))
  | .infinite first, .infinite second => .infinite (first != second)
  | .nan, _ => .nan
  | _, .nan => .nan

end FloatFormat

section Integers

/-- No integer is nearer. -/
theorem abs_sub_roundEven_le (value : ℚ) : |value - roundEven value| ≤ 1 / 2 := by
  have low := Int.fract_nonneg value
  have high := Int.fract_lt_one value
  have parts := Int.floor_add_fract value
  unfold roundEven
  rw [abs_le]
  split
  · rename_i lower
    have half : Int.fract value ≤ 1 / 2 := lower.elim le_of_lt fun tie => tie.1.le
    constructor <;> linarith
  · rename_i upper
    have half : 1 / 2 ≤ Int.fract value := not_lt.mp fun below => upper (Or.inl below)
    push_cast
    constructor <;> linarith

/-- An integer that is nearer than a half is the nearest one. -/
theorem roundEven_eq_of_lt {value : ℚ} {nearest : Int} (near : |value - nearest| < 1 / 2) :
    roundEven value = nearest := by
  have rounded := abs_sub_roundEven_le value
  have apart : |((roundEven value - nearest : Int) : ℚ)| < 1 := by
    have split : ((roundEven value - nearest : Int) : ℚ) = (value - nearest) - (value - roundEven value) := by
      push_cast
      ring
    rw [split]
    calc |(value - nearest) - (value - roundEven value)| ≤ |value - nearest| + |value - roundEven value| :=
          abs_sub _ _
      _ < 1 := by linarith
  have none : |roundEven value - nearest| < 1 := by exact_mod_cast apart
  have zero := Int.abs_lt_one_iff.mp none
  omega

@[simp] theorem roundEven_intCast (value : Int) : roundEven value = value :=
  roundEven_eq_of_lt (by simp)

@[simp] theorem roundEven_zero : roundEven 0 = 0 := roundEven_intCast 0

end Integers

namespace FloatFormat

variable {format : FloatFormat}

section Rounding

variable {value : ℚ}

theorem unit_pos : 0 < format.unit value := by
  unfold unit
  positivity

/-- The error is at most half of the last digit. -/
theorem abs_round_sub_le_unit : |format.round value - value| ≤ format.unit value / 2 := by
  have positive := @unit_pos format value
  have scaled : format.round value - value =
      (roundEven (value / format.unit value) - value / format.unit value) * format.unit value := by
    unfold round
    field_simp
  rw [scaled, abs_mul, abs_of_pos positive, abs_sub_comm]
  have nearest := abs_sub_roundEven_le (value / format.unit value)
  nlinarith

@[simp] theorem round_zero : format.round 0 = 0 := by simp [round]

/-- A value is normal when none of its digits is below the least exponent. -/
def Normal (format : FloatFormat) (value : ℚ) : Prop := 2 ^ (format.least + (format.digits - 1)) ≤ |value|

/-- The last digit of a normal value has the weight that the digits give it. -/
theorem unit_le_of_normal (normal : format.Normal value) :
    format.unit value ≤ |value| * 2 ^ (1 - format.digits : Int) := by
  have positive : 0 < |value| := lt_of_lt_of_le (by positivity) normal
  have exponent : format.least + (format.digits - 1) ≤ Int.log 2 |value| := by
    have mono := Int.log_mono_right (b := 2) (by positivity) normal
    rwa [show (2 : ℚ) = ((2 : Nat) : ℚ) from rfl, Int.log_zpow (by decide)] at mono
  have bound : (2 : ℚ) ^ Int.log 2 |value| ≤ |value| := Int.zpow_log_le_self (by decide) positive
  have weight : max (Int.log 2 |value| - (format.digits - 1)) format.least =
      Int.log 2 |value| + (1 - format.digits) := by omega
  unfold unit
  rw [weight, zpow_add₀ two_ne_zero]
  exact mul_le_mul_of_nonneg_right bound (by positivity)

/-- The error of a normal value is relative to it. -/
theorem abs_round_sub_le (normal : format.Normal value) :
    |format.round value - value| ≤ |value| * 2 ^ (-format.digits : Int) := by
  have half : (2 : ℚ) ^ (1 - format.digits : Int) = 2 * 2 ^ (-format.digits : Int) := by
    rw [sub_eq_add_neg, zpow_add₀ two_ne_zero, zpow_one]
  calc |format.round value - value| ≤ format.unit value / 2 := abs_round_sub_le_unit
    _ ≤ |value| * 2 ^ (1 - format.digits : Int) / 2 := by
        have weight := unit_le_of_normal normal
        linarith
    _ = |value| * 2 ^ (-format.digits : Int) := by
        rw [half]
        ring

/-- Rounding at most doubles a value. -/
theorem abs_round_le : |format.round value| ≤ 2 * |value| := by
  have positive := @unit_pos format value
  by_cases small : |value| < format.unit value / 2
  · have near : |value / format.unit value - (0 : Int)| < 1 / 2 := by
      rw [Int.cast_zero, sub_zero, abs_div, abs_of_pos positive, div_lt_iff₀ positive]
      linarith
    unfold round
    rw [roundEven_eq_of_lt near]
    simp
  · have error := @abs_round_sub_le_unit format value
    have triangle := abs_sub_abs_le_abs_sub (format.round value) value
    linarith

/-- A value is not rounded when its significand has few enough digits. -/
theorem round_of_few {mantissa : Int} {exponent : Int} (few : |mantissa| < 2 ^ format.digits)
    (fine : format.least ≤ exponent) : format.round (mantissa * 2 ^ exponent) = mantissa * 2 ^ exponent := by
  by_cases zero : mantissa = 0
  · simp [zero]
  · set value : ℚ := mantissa * 2 ^ exponent with given
    have magnitude : |value| = |(mantissa : ℚ)| * 2 ^ exponent := by
      rw [given, abs_mul, abs_of_pos (show (0 : ℚ) < 2 ^ exponent by positivity)]
    have positive : 0 < |value| := by
      rw [magnitude]
      positivity
    have upper : |value| < 2 ^ (format.digits + exponent : Int) := by
      have cast : |(mantissa : ℚ)| < 2 ^ (format.digits : Int) := by
        rw [zpow_natCast]
        exact_mod_cast few
      rw [magnitude, zpow_add₀ two_ne_zero]
      exact mul_lt_mul_of_pos_right cast (zpow_pos two_pos exponent)
    have log : Int.log 2 |value| < format.digits + exponent :=
      (Int.lt_zpow_iff_log_lt (by decide) positive).mp upper
    obtain ⟨shift, place⟩ : ∃ shift : Nat,
        exponent = max (Int.log 2 |value| - (format.digits - 1)) format.least + shift :=
      ⟨(exponent - max (Int.log 2 |value| - (format.digits - 1)) format.least).toNat, by omega⟩
    have whole : value / format.unit value = ((mantissa * 2 ^ shift : Int) : ℚ) := by
      rw [div_eq_iff unit_pos.ne']
      unfold unit
      generalize max (Int.log 2 |value| - (format.digits - 1)) format.least = last at place
      rw [given, place, zpow_add₀ two_ne_zero, zpow_natCast]
      push_cast
      ring
    unfold round
    rw [whole, roundEven_intCast, ← whole, div_mul_cancel₀ _ unit_pos.ne']

/-- The rounded value of a normal one differs from it by a small factor. -/
theorem exists_round_eq_mul (normal : format.Normal value) :
    ∃ error : ℚ, |error| ≤ 2 ^ (-format.digits : Int) ∧ format.round value = value * (1 + error) := by
  have positive : 0 < |value| := lt_of_lt_of_le (by positivity) normal
  have nonzero : value ≠ 0 := abs_pos.mp positive
  refine ⟨(format.round value - value) / value, ?_, ?_⟩
  · rw [abs_div, div_le_iff₀ positive, mul_comm]
    exact abs_round_sub_le normal
  · field_simp
    ring

/-- An integer with few digits is not rounded. -/
theorem round_intCast {value : Int} (few : |value| < 2 ^ format.digits) (fine : format.least ≤ 0) :
    format.round value = value := by
  have unscaled := round_of_few few fine
  rwa [zpow_zero, mul_one] at unscaled

/-- A value far enough below the greatest ones is stored as a number. -/
theorem store_of_lt (small : |value| < 2 ^ (format.greatest - 1)) :
    format.store value = .finite (format.round value) := by
  have rounded := @abs_round_le format value
  have double : (2 : ℚ) ^ format.greatest = 2 * 2 ^ (format.greatest - 1) := by
    rw [mul_comm, zpow_sub_one₀ two_ne_zero, inv_mul_cancel_right₀ two_ne_zero]
  unfold store
  rw [if_pos]
  linarith

end Rounding

end FloatFormat

namespace Floating

/-- An infinity is beyond every number, and no number is comparable to nothing. -/
def less : Floating → Floating → Bool
  | .finite first, .finite second => first < second
  | .finite _, .infinite negative => !negative
  | .infinite negative, .finite _ => negative
  | .infinite first, .infinite second => first && !second
  | .nan, _ => false
  | _, .nan => false

/-- A number is truncated downwards when it has no sign, and upwards when it has one. -/
theorem truncate_finite (value : ℚ) :
    (finite value).truncate = some (if 0 ≤ value then ⌊value⌋ else ⌈value⌉) := by
  rw [truncate]
  congr 1
  by_cases sign : 0 ≤ value
  · rw [if_pos sign, Rat.floor_def', Int.tdiv_eq_ediv_of_nonneg (Rat.num_nonneg.mpr sign)]
  · have negative : value.num < 0 := Rat.num_neg.mpr (not_le.mp sign)
    rw [if_neg sign, Rat.ceil_def', ← neg_neg value.num, Int.neg_tdiv, neg_neg,
      Int.tdiv_eq_ediv_of_nonneg (by omega)]

/-- Truncation drops less than one. -/
theorem exists_truncate (value : ℚ) :
    ∃ truncated : Int, (finite value).truncate = some truncated ∧ |value - truncated| < 1 := by
  refine ⟨_, truncate_finite value, ?_⟩
  have low := Int.floor_le value
  have high := Int.lt_floor_add_one value
  have above := Int.le_ceil value
  have below := Int.ceil_lt_add_one value
  split
  · exact abs_lt.mpr ⟨by linarith, by linarith⟩
  · exact abs_lt.mpr ⟨by linarith, by linarith⟩

/-- The truncated value of a number next to an integer is that integer or the next one towards zero. -/
theorem truncate_near {value : ℚ} {near : Int} (close : |value - near| < 1) (zero : near = 0 → value = 0) :
    ∃ truncated : Int, (finite value).truncate = some truncated ∧
      (truncated = near ∨ truncated = near - near.sign) := by
  obtain ⟨low, high⟩ := abs_lt.mp close
  rcases Int.lt_trichotomy near 0 with negative | none | positive
  · have cast : (near : ℚ) ≤ -1 := by exact_mod_cast Int.le_sub_one_of_lt negative
    have upper : ⌈value⌉ ≤ near + 1 := Int.ceil_le.mpr (by push_cast; linarith)
    have lower : near - 1 < ⌈value⌉ := Int.lt_ceil.mpr (by push_cast; linarith)
    refine ⟨⌈value⌉, ?_, ?_⟩
    · rw [truncate_finite, if_neg (by linarith)]
    · rw [Int.sign_eq_neg_one_of_neg negative]
      omega
  · refine ⟨0, ?_, Or.inl none.symm⟩
    rw [zero none]
    exact truncate_intCast 0
  · have cast : (1 : ℚ) ≤ near := by exact_mod_cast positive
    have upper : ⌊value⌋ < near + 1 := Int.floor_lt.mpr (by push_cast; linarith)
    have lower : near - 1 ≤ ⌊value⌋ := Int.le_floor.mpr (by push_cast; linarith)
    refine ⟨⌊value⌋, ?_, ?_⟩
    · rw [truncate_finite, if_pos (by linarith)]
    · rw [Int.sign_eq_one_of_pos positive]
      omega

end Floating

end VisionServer.Library
