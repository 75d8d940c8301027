/-
This file multiplies an `int` with a `double` that holds a size or its reciprocal.
-/

import VisionServer.Library.Integers
import VisionServer.Library.Rounding

namespace VisionServer.Library

/-- This is an `int`. -/
abbrev CInt := { value : Int // IsInt value }

/-- A result beyond the range of an `int` is not defined. -/
def toCInt (value : Int) : Option CInt := if fits : IsInt value then some ⟨value, fits⟩ else none

theorem isInt_toInt32 (value : Int) : IsInt (toInt32 value) := by
  rw [toInt32, Int.bmod_def]
  unfold IsInt
  split <;> omega

/-- The cast of a size to `int` keeps its last 32 bits. -/
def intCast (scale : UInt64) : CInt := ⟨toInt32 scale.toNat, isInt_toInt32 _⟩

/-- A caller converts a size to a `double`. -/
def double (scale : UInt64) : Floating := binary64.store scale.toNat

/-- This is `1.0 / scale`. -/
def reciprocal (scale : UInt64) : Floating :=
  if scale = 0 then .infinite false else binary64.store (1 / binary64.round scale.toNat)

section Casts

variable {scale : UInt64}

theorem toCInt_eq_some {value : Int} {ret : CInt} : toCInt value = some ret ↔ ret.val = value := by
  unfold toCInt
  split
  · rw [Option.some.injEq, ← Subtype.val_inj]
    exact eq_comm
  · rename_i beyond
    refine iff_of_false (fun given => nomatch given) ?_
    rintro rfl
    exact beyond ret.property

theorem toCInt_of_not {value : Int} (beyond : ¬IsInt value) : toCInt value = none := dif_neg beyond

theorem intCast_val (scale : UInt64) : (intCast scale).val = toInt32 scale.toNat := by rw [intCast]

/-- The cast keeps a size if and only if an `int` holds it. -/
theorem intCast_eq_iff : (intCast scale).val = scale.toNat ↔ scale.toNat < 2 ^ 31 := by
  constructor
  · intro same
    have range := (intCast scale).property
    rw [same] at range
    unfold IsInt at range
    omega
  · intro small
    rw [intCast_val]
    exact toInt32_of_range (by omega) (by omega)

theorem abs_le_of_CInt (value : CInt) : |(value.val : ℚ)| ≤ 2 ^ 31 := by
  have range := value.property
  unfold IsInt at range
  rw [abs_le]
  constructor
  · exact_mod_cast range.1
  · exact_mod_cast range.2.le

/-- An integer next to a large number is no `int`. -/
theorem toCInt_of_far {number : ℚ} {nearest : Int} (large : 2 ^ 51 ≤ |number|) (near : |number - nearest| ≤ 1) :
    toCInt nearest = none := by
  refine toCInt_of_not fun range => ?_
  have bound := abs_le_of_CInt ⟨nearest, range⟩
  have triangle := abs_sub_abs_le_abs_sub number nearest
  linarith

/-- An integer of many digits is no `int`. -/
theorem toCInt_of_many {value : Int} (many : ¬|value| < 2 ^ 53) : toCInt value = none := by
  refine toCInt_of_not fun range => many ?_
  unfold IsInt at range
  exact abs_lt.mpr ⟨by omega, by omega⟩

theorem isInt_tdiv (value : CInt) (size : Nat) : IsInt (value.val.tdiv size) := by
  have range := value.property
  unfold IsInt at range ⊢
  rcases le_or_gt 0 value.val with noSign | negative
  · have least := Int.tdiv_nonneg noSign (Int.natCast_nonneg size)
    have most := Int.tdiv_le_self size noSign
    omega
  · have opposite : value.val.tdiv size = -(-value.val).tdiv size := by rw [Int.neg_tdiv, neg_neg]
    have least := Int.tdiv_nonneg (a := -value.val) (by omega) (Int.natCast_nonneg size)
    have most := Int.tdiv_le_self (a := -value.val) size (by omega)
    omega

/-- The next integer towards zero is an `int` as well. -/
theorem isInt_towards_zero (value : CInt) {ret : Int} (near : ret = value.val ∨ ret = value.val - value.val.sign) :
    IsInt ret := by
  have range := value.property
  unfold IsInt at range ⊢
  rcases Int.lt_trichotomy value.val 0 with negative | zero | positive
  · rw [Int.sign_eq_neg_one_of_neg negative] at near
    omega
  · rw [zero, Int.sign_zero] at near
    omega
  · rw [Int.sign_eq_one_of_pos positive] at near
    omega

/-- An integer next to a quotient is no greater than the number that is divided. -/
theorem isInt_of_nearest {nearest size : Int} (value : CInt) (positive : 0 < size)
    (near : 2 * |nearest * size - value.val| ≤ size) : IsInt nearest := by
  have range := value.property
  unfold IsInt at range ⊢
  have above := le_abs_self (nearest * size - value.val)
  have below := neg_abs_le (nearest * size - value.val)
  constructor
  · by_contra under
    have least : nearest + 1 ≤ -2 ^ 31 := by omega
    nlinarith
  · by_contra beyond
    have most : 2 ^ 31 ≤ nearest := by omega
    by_cases one : size = 1
    · rw [one] at near above
      omega
    · have two : 2 ≤ size := by omega
      nlinarith

end Casts

section Doubles

variable {value : ℚ} {scale : UInt64}

/-- A value that is not tiny is rounded with a small relative error. -/
theorem exists_round_eq (large : 1 / 2 ^ 100 ≤ |value|) :
    ∃ error : ℚ, |error| ≤ 1 / 2 ^ 53 ∧ binary64.round value = value * (1 + error) := by
  have normal : binary64.Normal value := by
    refine le_trans ?_ large
    calc (2 : ℚ) ^ (binary64.least + (binary64.digits - 1)) ≤ 2 ^ (-100 : Int) :=
          zpow_le_zpow_right₀ one_le_two (by decide)
      _ = 1 / 2 ^ 100 := by norm_num
  obtain ⟨error, small, rounded⟩ := FloatFormat.exists_round_eq_mul normal
  refine ⟨error, small.trans_eq ?_, rounded⟩
  norm_num [binary64]

/-- An integer of few digits is a `double`. -/
theorem binary64_round_intCast {value : Int} (few : |value| < 2 ^ 53) : binary64.round value = value :=
  FloatFormat.round_intCast few (by decide)

theorem binary64_store (small : |value| < 2 ^ 200) : binary64.store value = .finite (binary64.round value) := by
  refine FloatFormat.store_of_lt (small.trans_le ?_)
  calc (2 : ℚ) ^ 200 = 2 ^ (200 : Int) := by norm_num
    _ ≤ 2 ^ (binary64.greatest - 1) := zpow_le_zpow_right₀ one_le_two (by decide)

theorem toNat_lt (scale : UInt64) : (scale.toNat : ℚ) < 2 ^ 64 := by exact_mod_cast scale.toNat_lt

theorem double_eq (scale : UInt64) : double scale = .finite (binary64.round scale.toNat) := by
  refine binary64_store ?_
  rw [abs_of_nonneg (Nat.cast_nonneg _)]
  exact (toNat_lt scale).trans (by norm_num)

/-- The factors of two roundings do not make a value small. -/
theorem le_abs_of_errors {first second : ℚ} (one : |first| ≤ 1 / 2 ^ 53) (two : |second| ≤ 1 / 2 ^ 53) :
    |value| / 4 ≤ |value * (1 + first) * (1 + second)| := by
  have lower {error : ℚ} (small : |error| ≤ 1 / 2 ^ 53) : 1 / 2 ≤ |1 + error| := by
    have bounds := abs_le.mp small
    rw [abs_of_nonneg] <;> linarith
  rw [abs_mul, abs_mul]
  have product := mul_le_mul (lower one) (lower two) (by norm_num) (abs_nonneg _)
  have scaled := mul_le_mul_of_nonneg_left product (abs_nonneg value)
  linarith

/-- A product with a size is rounded twice. -/
theorem mul_double (value : CInt) (scale : UInt64) : binary64.mul (.finite value.val) (double scale) =
    .finite (binary64.round (value.val * binary64.round scale.toNat)) := by
  have rounded : |binary64.round scale.toNat| ≤ 2 * 2 ^ 64 := by
    refine FloatFormat.abs_round_le.trans ?_
    rw [abs_of_nonneg (Nat.cast_nonneg _)]
    have below := toNat_lt scale
    linarith
  rw [double_eq]
  refine binary64_store ?_
  rw [abs_mul]
  calc |(value.val : ℚ)| * |binary64.round scale.toNat| ≤ 2 ^ 31 * (2 * 2 ^ 64) :=
        mul_le_mul (abs_le_of_CInt value) rounded (abs_nonneg _) (by norm_num)
    _ < 2 ^ 200 := by norm_num

/-- Neither rounding changes a product of few digits. -/
theorem round_product_of_few {value : Int} (few : |value * (scale.toNat : Int)| < 2 ^ 53) :
    binary64.round (value * binary64.round scale.toNat) = (value * scale.toNat : Int) := by
  by_cases zero : value = 0
  · simp [zero]
  · have size : |(scale.toNat : Int)| < 2 ^ 53 := by
      refine lt_of_le_of_lt ?_ few
      rw [abs_mul]
      exact le_mul_of_one_le_left (abs_nonneg _) (Int.one_le_abs zero)
    have kept := binary64_round_intCast size
    rw [Int.cast_natCast] at kept
    rw [kept, ← Int.cast_natCast, ← Int.cast_mul]
    exact binary64_round_intCast few

/-- A product of many digits stays large. -/
theorem le_round_product_of_many {value : Int} (many : 2 ^ 53 ≤ |value * (scale.toNat : Int)|) :
    2 ^ 51 ≤ |binary64.round (value * binary64.round scale.toNat)| := by
  have cast : (2 : ℚ) ^ 53 ≤ |(value : ℚ) * scale.toNat| := by exact_mod_cast many
  have nonzero : scale.toNat ≠ 0 := by
    intro zero
    norm_num [zero] at many
  have one : (1 : ℚ) ≤ scale.toNat := by exact_mod_cast Nat.one_le_iff_ne_zero.mpr nonzero
  obtain ⟨first, firstSmall, size⟩ := @exists_round_eq scale.toNat (by
    rw [abs_of_nonneg (Nat.cast_nonneg _)]
    linarith)
  have halved := @le_abs_of_errors (value * scale.toNat) first 0 firstSmall (by norm_num)
  rw [add_zero, mul_one, mul_assoc, ← size] at halved
  obtain ⟨second, secondSmall, whole⟩ := @exists_round_eq (value * binary64.round scale.toNat) (by
    linarith)
  have bounded := @le_abs_of_errors (value * scale.toNat) first second firstSmall secondSmall
  rw [whole, size, ← mul_assoc]
  linarith

end Doubles

section Reciprocals

variable {scale : UInt64}

/-- Three small relative errors have a small effect. -/
theorem abs_errors_le {first second third : ℚ} (one : |first| ≤ 1 / 2 ^ 53) (two : |second| ≤ 1 / 2 ^ 53)
    (three : |third| ≤ 1 / 2 ^ 53) : |(1 + second) * (1 + third) / (1 + first) - 1| ≤ 1 / 2 ^ 50 := by
  have lower : 1 / 2 ≤ 1 + first := by
    have bounds := abs_le.mp one
    linarith
  have positive : 0 < 1 + first := by linarith
  have parts : (1 + second) * (1 + third) / (1 + first) - 1 =
      (second + third + second * third - first) / (1 + first) := by
    field_simp
    ring
  have product : |second * third| ≤ 1 / 2 ^ 53 := by
    rw [abs_mul]
    calc |second| * |third| ≤ 1 / 2 ^ 53 * 1 :=
          mul_le_mul two (three.trans (by norm_num)) (abs_nonneg _) (by norm_num)
      _ = 1 / 2 ^ 53 := mul_one _
  have sum : |second + third + second * third - first| ≤ 4 / 2 ^ 53 := by
    rw [abs_le] at one two three product ⊢
    constructor <;> linarith
  rw [parts, abs_div, abs_of_pos positive, div_le_iff₀ positive]
  linarith

theorem one_le_toNat (nonzero : scale ≠ 0) : (1 : ℚ) ≤ scale.toNat := by
  have positive : scale.toNat ≠ 0 := fun zero => nonzero (UInt64.toNat_inj.mp zero)
  exact_mod_cast Nat.one_le_iff_ne_zero.mpr positive

/-- The size and its reciprocal are rounded once each. -/
theorem reciprocal_eq (nonzero : scale ≠ 0) : ∃ first second : ℚ, |first| ≤ 1 / 2 ^ 53 ∧ |second| ≤ 1 / 2 ^ 53 ∧
    reciprocal scale = .finite ((1 + second) / (scale.toNat * (1 + first))) := by
  have one := one_le_toNat nonzero
  have below := toNat_lt scale
  obtain ⟨first, firstSmall, size⟩ := @exists_round_eq scale.toNat (by
    rw [abs_of_nonneg (Nat.cast_nonneg _)]
    linarith)
  have bounds := abs_le.mp firstSmall
  have low : 1 / 2 ≤ binary64.round scale.toNat := by
    rw [size]
    nlinarith
  have high : binary64.round scale.toNat ≤ 2 ^ 65 := by
    rw [size]
    nlinarith
  have positive : 0 < binary64.round scale.toNat := by linarith
  have magnitude : |1 / binary64.round scale.toNat| = 1 / binary64.round scale.toNat :=
    abs_of_pos (one_div_pos.mpr positive)
  obtain ⟨second, secondSmall, inverse⟩ := @exists_round_eq (1 / binary64.round scale.toNat) (by
    rw [magnitude]
    exact one_div_le_one_div_of_le positive (high.trans (by norm_num)))
  refine ⟨first, second, firstSmall, secondSmall, ?_⟩
  have small : |1 / binary64.round scale.toNat| < 2 ^ 200 := by
    rw [magnitude]
    calc 1 / binary64.round scale.toNat ≤ 1 / (1 / 2) := one_div_le_one_div_of_le (by norm_num) low
      _ < 2 ^ 200 := by norm_num
  rw [reciprocal, if_neg nonzero, binary64_store small, inverse, size]
  congr 1
  ring

/-- A quotient with small relative errors is next to the exact one. -/
theorem abs_quotient_sub_le {value first second third : ℚ} (nonzero : scale ≠ 0) (one : |first| ≤ 1 / 2 ^ 53)
    (two : |second| ≤ 1 / 2 ^ 53) (three : |third| ≤ 1 / 2 ^ 53) :
    |value * ((1 + second) / (scale.toNat * (1 + first))) * (1 + third) * scale.toNat - value| ≤
      |value| / 2 ^ 50 := by
  have size := one_le_toNat nonzero
  have lower : 0 < 1 + first := by
    have bounds := abs_le.mp one
    linarith
  have factor : value * ((1 + second) / (scale.toNat * (1 + first))) * (1 + third) * scale.toNat - value =
      value * ((1 + second) * (1 + third) / (1 + first) - 1) := by
    field_simp
  rw [factor, abs_mul]
  have errors := mul_le_mul_of_nonneg_left (abs_errors_le one two three) (abs_nonneg value)
  linarith

/-- A product with the reciprocal of a size is next to the quotient by it. -/
theorem mul_reciprocal (value : CInt) (nonzero : scale ≠ 0) : ∃ quotient : ℚ,
    binary64.mul (.finite value.val) (reciprocal scale) = .finite quotient ∧
      |quotient * scale.toNat - value.val| ≤ |(value.val : ℚ)| / 2 ^ 50 := by
  obtain ⟨first, second, firstSmall, secondSmall, inverse⟩ := reciprocal_eq nonzero
  rw [inverse, FloatFormat.mul]
  by_cases zero : value.val = 0
  · refine ⟨0, ?_, by simp [zero]⟩
    have stored := @binary64_store 0 (by norm_num)
    rw [FloatFormat.round_zero] at stored
    rw [zero, Int.cast_zero, zero_mul, stored]
  · have size := one_le_toNat nonzero
    have below := toNat_lt scale
    have least : (1 : ℚ) ≤ |(value.val : ℚ)| := by exact_mod_cast Int.one_le_abs zero
    have most := abs_le_of_CInt value
    have near := @abs_quotient_sub_le scale value.val first second 0 nonzero firstSmall secondSmall (by norm_num)
    rw [add_zero, mul_one] at near
    set product : ℚ := value.val * ((1 + second) / (scale.toNat * (1 + first))) with given
    have scaled : |product * scale.toNat| = |product| * scale.toNat := by
      rw [abs_mul, Nat.abs_cast]
    have low := abs_sub_abs_le_abs_sub (value.val : ℚ) (product * scale.toNat)
    have high := abs_sub_abs_le_abs_sub (product * scale.toNat) (value.val : ℚ)
    rw [abs_sub_comm] at low
    rw [scaled] at low high
    have magnitude := abs_nonneg product
    obtain ⟨third, thirdSmall, rounded⟩ := @exists_round_eq product (by nlinarith)
    refine ⟨binary64.round product, binary64_store (by nlinarith), ?_⟩
    rw [rounded, given]
    exact abs_quotient_sub_le nonzero firstSmall secondSmall thirdSmall

/-- A multiple that is divided again comes next to where it was. -/
theorem mul_reciprocal_of_multiple {value multiple : CInt} (nonzero : scale ≠ 0)
    (scaled : multiple.val = value.val * scale.toNat) : ∃ quotient : ℚ,
      binary64.mul (.finite multiple.val) (reciprocal scale) = .finite quotient ∧
        |quotient - value.val| ≤ |(value.val : ℚ)| / 2 ^ 50 := by
  obtain ⟨quotient, product, near⟩ := mul_reciprocal multiple nonzero
  have size := one_le_toNat nonzero
  have positive : (0 : ℚ) < scale.toNat := by linarith
  refine ⟨quotient, product, ?_⟩
  have cast : (multiple.val : ℚ) = value.val * scale.toNat := by exact_mod_cast scaled
  rw [cast, ← sub_mul, abs_mul, abs_mul, Nat.abs_cast, mul_div_right_comm] at near
  exact le_of_mul_le_mul_right near positive

/-- A power of two and its reciprocal are exact. -/
theorem reciprocal_of_power {exponent : Nat} (power : scale.toNat = 2 ^ exponent) :
    reciprocal scale = .finite (1 / 2 ^ exponent) := by
  have few : |(1 : Int)| < 2 ^ binary64.digits := by decide
  have nonzero : scale ≠ 0 := by
    rintro rfl
    exact absurd power.symm (pow_ne_zero _ two_ne_zero)
  have below : exponent < 64 := by
    have bound := scale.toNat_lt
    rw [power] at bound
    exact (Nat.pow_lt_pow_iff_right (by decide)).mp bound
  have size : binary64.round scale.toNat = 2 ^ exponent := by
    have unscaled := @FloatFormat.round_of_few binary64 1 exponent few (by simp [binary64])
    rw [power]
    simpa using unscaled
  have inverse : binary64.round (1 / 2 ^ exponent) = 1 / 2 ^ exponent := by
    have unscaled := @FloatFormat.round_of_few binary64 1 (-exponent) few (by
      change -1074 ≤ -(exponent : Int)
      omega)
    simpa using unscaled
  have one : (1 : ℚ) ≤ 2 ^ exponent := one_le_pow₀ one_le_two
  rw [reciprocal, if_neg nonzero, size, binary64_store, inverse]
  rw [abs_of_pos (by positivity)]
  exact lt_of_le_of_lt (div_le_one_of_le₀ one (by positivity)) (by norm_num)

end Reciprocals

end VisionServer.Library
