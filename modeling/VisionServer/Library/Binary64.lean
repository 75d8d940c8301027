/-
This file gives the integers that a floating-point entry of 64 bits can hold.
-/

import Mathlib.Algebra.Group.Int.Defs
import Mathlib.Algebra.Group.Nat.Defs
import Mathlib.Data.Nat.Log

namespace VisionServer.Library

/-- A significand has this number of bits. -/
def significandBits : Nat := 53

/-- A number is rounded to its first bits, and a tie goes to the even neighbour. -/
def roundToBits (bits value : Nat) : Nat :=
  let unit := 2 ^ (Nat.log 2 value - (bits - 1))
  let quotient := value / unit
  let rest := value % unit
  if unit < 2 * rest ∨ unit = 2 * rest ∧ quotient % 2 = 1 then (quotient + 1) * unit
  else quotient * unit

/-- The nearest integer that a `double` holds. -/
def toDouble (value : Int) : Int := value.sign * roundToBits significandBits value.natAbs

/-- The integer that a `float` of 32 bits holds for a natural number. -/
def toFloat (value : Nat) : Int := roundToBits 24 value

/-- A number with few bits is not rounded. -/
theorem roundToBits_of_lt {bits value : Nat} (bound : value < 2 ^ bits) :
    roundToBits bits value = value := by
  have shift : Nat.log 2 value - (bits - 1) = 0 := by
    by_cases none : bits = 0
    · rw [none, Nat.pow_zero, Nat.lt_one_iff] at bound
      rw [bound, Nat.log_zero_right, Nat.zero_sub]
    · have few := Nat.log_lt_of_lt_pow' none bound
      omega
  simp only [roundToBits, shift, Nat.pow_zero, Nat.div_one, Nat.mod_one, Nat.mul_one]
  rw [if_neg (by omega)]

/-- An integer of 32 bits is held exactly. -/
theorem toDouble_of_range {value : Int} (low : -2 ^ 31 ≤ value) (high : value < 2 ^ 31) :
    toDouble value = value := by
  have bound : value.natAbs < 2 ^ significandBits := by
    simp only [significandBits]
    omega
  rw [toDouble, roundToBits_of_lt bound, Int.sign_mul_natAbs]

end VisionServer.Library
