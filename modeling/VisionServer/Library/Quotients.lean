/-
This file divides floating-point numbers and decides which rounded values are below a power of two.
-/

import VisionServer.Library.Rounding

namespace VisionServer.Library

namespace FloatFormat

variable (format : FloatFormat)

/-- The quotient of the exact numbers is rounded, and a zero has no sign here. -/
def divide : Floating → Floating → Floating
  | .finite first, .finite second =>
      if second = 0 then if first = 0 then .nan else .infinite (first < 0)
      else format.store (first / second)
  | .finite _, .infinite _ => .finite 0
  | .infinite negative, .finite second => .infinite (negative != decide (second < 0))
  | .infinite _, .infinite _ => .nan
  | .nan, _ => .nan
  | _, .nan => .nan

/-- A number of another format is rounded. -/
def convert : Floating → Floating
  | .finite value => format.store value
  | number => number

end FloatFormat

section Integers

variable {value other : ℚ}

theorem floor_le_roundEven (value : ℚ) : ⌊value⌋ ≤ roundEven value ∧ roundEven value ≤ ⌊value⌋ + 1 := by
  unfold roundEven
  split <;> omega

/-- An integer below a value is below its nearest integer. -/
theorem le_roundEven {least : Int} (below : least ≤ value) : least ≤ roundEven value :=
  (Int.le_floor.mpr below).trans (floor_le_roundEven value).1

theorem roundEven_le {most : Int} (above : value ≤ most) : roundEven value ≤ most := by
  rcases above.lt_or_eq with less | same
  · have floor : ⌊value⌋ < most := Int.floor_lt.mpr less
    have next := (floor_le_roundEven value).2
    omega
  · rw [same, roundEven_intCast]

/-- A value is rounded to less than an even integer until it is halfway to it. -/
theorem roundEven_lt_iff {bound : Int} (even : bound % 2 = 0) : roundEven value < bound ↔ value < bound - 1 / 2 := by
  have nearest := abs_le.mp (abs_sub_roundEven_le value)
  constructor
  · intro less
    have cast : (roundEven value : ℚ) ≤ bound - 1 := by exact_mod_cast Int.le_sub_one_of_lt less
    refine lt_of_le_of_ne (by linarith) fun tie => ?_
    -- a tie is rounded to the even integer, which is the bound
    have floor : ⌊value⌋ = bound - 1 := by
      rw [Int.floor_eq_iff]
      push_cast
      constructor <;> linarith
    have half : Int.fract value = 1 / 2 := by
      rw [Int.fract, floor, tie]
      push_cast
      ring
    unfold roundEven at less
    rw [half, floor, if_neg (by simp; omega)] at less
    omega
  · intro below
    by_contra beyond
    have cast : (bound : ℚ) ≤ roundEven value := by exact_mod_cast not_lt.mp beyond
    linarith

theorem roundEven_mono (less : value ≤ other) : roundEven value ≤ roundEven other := by
  have floors : ⌊value⌋ ≤ ⌊other⌋ := Int.floor_mono less
  rcases floors.lt_or_eq with below | same
  · have first := (floor_le_roundEven value).2
    have second := (floor_le_roundEven other).1
    omega
  · have fracts : Int.fract value ≤ Int.fract other := by
      have one := Int.floor_add_fract value
      have two := Int.floor_add_fract other
      rw [same] at one
      linarith
    unfold roundEven
    rw [same]
    split
    · split <;> omega
    · rename_i upper
      rw [if_neg]
      intro lower
      apply upper
      rcases lower with less | ⟨tie, even⟩
      · exact Or.inl (fracts.trans_lt less)
      · exact (tie ▸ fracts).lt_or_eq.imp id fun equal => ⟨equal, even⟩

@[simp] theorem roundEven_neg (value : ℚ) : roundEven (-value) = -roundEven value := by
  by_cases whole : Int.fract value = 0
  · obtain ⟨integer, rfl⟩ := Int.fract_eq_zero_iff.mp whole |>.imp fun _ => Eq.symm
    rw [← Int.cast_neg, roundEven_intCast, roundEven_intCast]
  · have fract := Int.fract_neg whole
    have floor : ⌊-value⌋ = -⌊value⌋ - 1 := by
      have first := Int.floor_add_fract value
      have second := Int.floor_add_fract (-value)
      have cast : (⌊-value⌋ : ℚ) = ((-⌊value⌋ - 1 : Int) : ℚ) := by
        push_cast
        linarith
      exact_mod_cast cast
    unfold roundEven
    rw [fract, floor]
    rcases lt_trichotomy (Int.fract value) (1 / 2) with less | tie | greater
    · rw [if_pos (Or.inl less), if_neg (by rintro (low | low) <;> linarith)]
      omega
    · rw [tie]
      norm_num
      split <;> split <;> omega
    · rw [if_pos (Or.inl (by linarith)), if_neg (by rintro (low | low) <;> linarith)]
      omega

end Integers

namespace FloatFormat

variable {format : FloatFormat} {value other : ℚ}

@[simp] theorem unit_neg (value : ℚ) : format.unit (-value) = format.unit value := by
  unfold unit
  rw [abs_neg]

@[simp] theorem round_neg (value : ℚ) : format.round (-value) = -format.round value := by
  unfold round
  simp [neg_div]

theorem round_nonneg (nonneg : 0 ≤ value) : 0 ≤ format.round value := by
  have positive := @unit_pos format value
  have quotient : ((0 : Int) : ℚ) ≤ value / format.unit value := by
    rw [Int.cast_zero]
    positivity
  have rounded : (0 : ℚ) ≤ roundEven (value / format.unit value) := by exact_mod_cast le_roundEven quotient
  exact mul_nonneg rounded positive.le

/-- The last digit of a power of two divides it, unless the power is below the least exponent. -/
theorem exists_mul_unit {exponent : Int} (fine : format.least ≤ exponent)
    (weight : Int.log 2 |value| - (format.digits - 1) ≤ exponent) :
    ∃ multiple : Int, (2 : ℚ) ^ exponent = multiple * format.unit value := by
  obtain ⟨shift, place⟩ : ∃ shift : Nat,
      exponent = max (Int.log 2 |value| - (format.digits - 1)) format.least + shift :=
    ⟨(exponent - max (Int.log 2 |value| - (format.digits - 1)) format.least).toNat, by omega⟩
  refine ⟨2 ^ shift, ?_⟩
  unfold unit
  generalize max (Int.log 2 |value| - (format.digits - 1)) format.least = last at place
  rw [place, zpow_add₀ two_ne_zero, zpow_natCast]
  push_cast
  ring

/-- A power of two below a value is below the rounded value. -/
theorem pow_le_round {exponent : Int} (some : 1 ≤ format.digits) (fine : format.least ≤ exponent)
    (below : 2 ^ exponent ≤ value) : 2 ^ exponent ≤ format.round value := by
  have positive : 0 < value := lt_of_lt_of_le (by positivity) below
  have magnitude : |value| = value := abs_of_pos positive
  have log : exponent ≤ Int.log 2 |value| := by
    rw [magnitude]
    have mono := Int.log_mono_right (b := 2) (by positivity) below
    rwa [show (2 : ℚ) = ((2 : Nat) : ℚ) from rfl, Int.log_zpow (by decide)] at mono
  have least : (2 : ℚ) ^ Int.log 2 |value| ≤ value := by
    rw [magnitude]
    exact Int.zpow_log_le_self (by decide) positive
  obtain ⟨multiple, power⟩ := @exists_mul_unit format value (Int.log 2 |value|) (fine.trans log) (by omega)
  rw [power, ← le_div_iff₀ unit_pos] at least
  have rounded : (multiple : ℚ) ≤ roundEven (value / format.unit value) := by exact_mod_cast le_roundEven least
  calc (2 : ℚ) ^ exponent ≤ 2 ^ Int.log 2 |value| := zpow_le_zpow_right₀ one_le_two log
    _ = multiple * format.unit value := power
    _ ≤ format.round value := mul_le_mul_of_nonneg_right rounded unit_pos.le

/-- A power of two above a value is above the rounded value. -/
theorem round_le_pow {exponent : Int} (some : 1 ≤ format.digits) (fine : format.least ≤ exponent)
    (nonneg : 0 ≤ value) (above : value < 2 ^ exponent) : format.round value ≤ 2 ^ exponent := by
  rcases nonneg.lt_or_eq with positive | zero
  · have log : Int.log 2 |value| < exponent := by
      rw [abs_of_pos positive]
      exact (Int.lt_zpow_iff_log_lt (by decide) positive).mp above
    obtain ⟨multiple, power⟩ := @exists_mul_unit format value exponent fine (by omega)
    have most : value / format.unit value ≤ multiple := by
      rw [div_le_iff₀ unit_pos, ← power]
      exact above.le
    have rounded : (roundEven (value / format.unit value) : ℚ) ≤ multiple := by exact_mod_cast roundEven_le most
    rw [power]
    exact mul_le_mul_of_nonneg_right rounded unit_pos.le
  · rw [← zero, round_zero]
    positivity

/-- A value is rounded to less than a power of two until it is halfway to it from the last value below. -/
theorem round_lt_iff {exponent : Int} (some : 1 ≤ format.digits) (fine : format.least ≤ exponent - format.digits)
    (nonneg : 0 ≤ value) : format.round value < 2 ^ exponent ↔
      value < 2 ^ exponent - 2 ^ (exponent - format.digits - 1) := by
  have half : (2 : ℚ) ^ exponent = 2 * 2 ^ (exponent - 1) := by
    rw [mul_comm, zpow_sub_one₀ two_ne_zero, inv_mul_cancel_right₀ two_ne_zero]
  have last : (2 : ℚ) ^ (exponent - format.digits - 1) ≤ 2 ^ (exponent - 1) :=
    zpow_le_zpow_right₀ one_le_two (by omega)
  have positive : (0 : ℚ) < 2 ^ (exponent - format.digits - 1) := by positivity
  by_cases small : value < 2 ^ (exponent - 1)
  · have rounded := @abs_round_le format value
    rw [abs_of_nonneg nonneg] at rounded
    have magnitude := le_abs_self (format.round value)
    exact iff_of_true (by linarith) (by linarith)
  · by_cases large : 2 ^ exponent ≤ value
    · have rounded := pow_le_round some (by omega) large
      exact iff_of_false (by linarith) (by linarith)
    · have above : 0 < value := lt_of_lt_of_le (by positivity) (not_lt.mp small)
      have log : Int.log 2 |value| = exponent - 1 := by
        rw [abs_of_pos above]
        have most := (Int.lt_zpow_iff_log_lt (b := 2) (by decide) above).mp (not_le.mp large)
        have least := Int.log_mono_right (b := 2) (by positivity) (not_lt.mp small)
        rw [show (2 : ℚ) = ((2 : Nat) : ℚ) from rfl, Int.log_zpow (by decide)] at least
        omega
      have unit : format.unit value = 2 ^ (exponent - format.digits) := by
        have weight : max (exponent - 1 - (format.digits - 1 : Int)) format.least = exponent - format.digits := by
          omega
        rw [FloatFormat.unit, log, weight]
      have whole : (2 : ℚ) ^ exponent = ((2 ^ format.digits : Int) : ℚ) * format.unit value := by
        rw [unit]
        push_cast
        rw [← zpow_natCast, ← zpow_add₀ two_ne_zero]
        congr 1
        omega
      have tie : (2 : ℚ) ^ (exponent - format.digits - 1) = format.unit value / 2 := by
        rw [unit, zpow_sub_one₀ two_ne_zero]
        ring
      have even : (2 ^ format.digits : Int) % 2 = 0 := by
        obtain ⟨digits, more⟩ := Nat.exists_eq_add_of_le' some
        rw [more, pow_succ]
        omega
      have bound := @roundEven_lt_iff (value / format.unit value) _ even
      rw [lt_sub_iff_add_lt, div_add' _ _ _ unit_pos.ne', div_lt_iff₀ unit_pos, ← whole] at bound
      rw [round, whole, mul_lt_mul_iff_left₀ unit_pos, ← whole, tie, lt_sub_iff_add_lt, Int.cast_lt, bound,
        div_mul_eq_mul_div, one_mul]

/-- Rounding keeps the order of values without a sign. -/
theorem round_mono (some : 1 ≤ format.digits) (nonneg : 0 ≤ value) (less : value ≤ other) :
    format.round value ≤ format.round other := by
  rcases nonneg.lt_or_eq with positive | zero
  · have greater := positive.trans_le less
    have logs := Int.log_mono_right (b := 2) positive less
    by_cases same : format.unit value = format.unit other
    · unfold round
      rw [← same]
      have quotients : value / format.unit value ≤ other / format.unit value :=
        div_le_div_of_nonneg_right less unit_pos.le
      have rounded : (roundEven (value / format.unit value) : ℚ) ≤ roundEven (other / format.unit value) := by
        exact_mod_cast roundEven_mono quotients
      exact mul_le_mul_of_nonneg_right rounded unit_pos.le
    · -- a power of two lies between values with different last digits
      have apart : Int.log 2 value < Int.log 2 other ∧ format.least ≤ Int.log 2 other := by
        unfold unit at same
        rw [abs_of_pos positive, abs_of_pos greater] at same
        by_contra near
        exact same (congrArg _ (by omega))
      have above : value < 2 ^ Int.log 2 other := (Int.lt_zpow_iff_log_lt (by decide) positive).mpr apart.1
      have below : (2 : ℚ) ^ Int.log 2 other ≤ other := Int.zpow_log_le_self (by decide) greater
      exact (round_le_pow some apart.2 nonneg above).trans (pow_le_round some apart.2 below)
  · rw [← zero, round_zero]
    exact round_nonneg (zero.trans_le less)

end FloatFormat

section Sizes

variable {format : FloatFormat} {value : ℚ}

theorem toSizeT_lt {number : Floating} {size : Nat} (found : number.toSizeT = some size) : size < 2 ^ 64 := by
  obtain ⟨truncated, kept, same⟩ := Option.map_eq_some_iff.mp found
  have range := of_decide_eq_true (Option.filter_eq_some_iff.mp kept).2
  omega

theorem toSizeT_finite (nonneg : 0 ≤ value) :
    (Floating.finite value).toSizeT = if value < 2 ^ 64 then some ⌊value⌋.toNat else none := by
  have least : 0 ≤ ⌊value⌋ := Int.floor_nonneg.mpr nonneg
  have floor : ⌊value⌋ < 2 ^ 64 ↔ value < 2 ^ 64 := by
    rw [Int.floor_lt]
    norm_num
  rw [Floating.toSizeT, Floating.truncate_finite, if_pos nonneg, Option.filter_some]
  by_cases small : value < 2 ^ 64
  · rw [decide_eq_true ⟨least, floor.mpr small⟩, if_pos small]
    rfl
  · rw [decide_eq_false fun fits => small (floor.mp fits.2), if_neg small]
    rfl

/-- A number above minus one is truncated to zero. -/
theorem toSizeT_finite_neg (nonneg : 0 ≤ value) :
    (Floating.finite (-value)).toSizeT = if value < 1 then some 0 else none := by
  rcases nonneg.lt_or_eq with positive | zero
  · rw [Floating.toSizeT, Floating.truncate_finite, if_neg (by linarith), Option.filter_some, Int.ceil_neg]
    have least : 0 ≤ ⌊value⌋ := Int.floor_nonneg.mpr nonneg
    have floor : ⌊value⌋ < 1 ↔ value < 1 := by
      rw [Int.floor_lt]
      norm_num
    by_cases small : value < 1
    · have none : ⌊value⌋ = 0 := by
        have below := floor.mpr small
        omega
      rw [none, if_pos small]
      rfl
    · have one : ¬⌊value⌋ < 1 := fun below => small (floor.mp below)
      rw [decide_eq_false (by omega), if_neg small]
      rfl
  · rw [← zero]
    rfl

/-- A stored value without a sign is converted when the rounded one is below the range of `size_t`. -/
theorem toSizeT_store (wide : 64 ≤ format.greatest) (nonneg : 0 ≤ value) : (format.store value).toSizeT =
    if format.round value < 2 ^ 64 then some ⌊format.round value⌋.toNat else none := by
  have rounded := @FloatFormat.round_nonneg format value nonneg
  have range : (2 : ℚ) ^ 64 ≤ 2 ^ format.greatest := by
    rw [← zpow_natCast]
    exact zpow_le_zpow_right₀ one_le_two wide
  unfold FloatFormat.store
  rw [abs_of_nonneg rounded]
  split
  · exact toSizeT_finite rounded
  · rw [if_neg (by linarith)]
    rfl

theorem toSizeT_store_neg (wide : 0 ≤ format.greatest) (nonneg : 0 ≤ value) : (format.store (-value)).toSizeT =
    if format.round value < 1 then some 0 else none := by
  have rounded := @FloatFormat.round_nonneg format value nonneg
  have range : (1 : ℚ) ≤ 2 ^ format.greatest := one_le_zpow₀ one_le_two wide
  unfold FloatFormat.store
  rw [FloatFormat.round_neg, abs_neg, abs_of_nonneg rounded]
  split
  · exact toSizeT_finite_neg rounded
  · rw [if_neg (by linarith)]
    rfl

end Sizes

end VisionServer.Library
