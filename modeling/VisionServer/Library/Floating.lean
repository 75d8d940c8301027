/-
This file gives floating-point numbers and their conversion to `int`.
-/

import Mathlib.Data.Rat.Lemmas
import VisionServer.Library.Binary64

namespace VisionServer.Library

/-- A floating-point number is a rational number, an infinity or no number. -/
inductive Floating where
  | finite (value : ℚ)
  | infinite (negative : Bool)
  | nan
deriving DecidableEq

/-- These are the values of an `int`. -/
def IsInt (value : Int) : Prop := -2 ^ 31 ≤ value ∧ value < 2 ^ 31

instance (value : Int) : Decidable (IsInt value) := inferInstanceAs (Decidable (_ ∧ _))

namespace Floating

/-- The fractional part is dropped. -/
def truncate : Floating → Option Int
  | .finite value => some (value.num.tdiv value.den)
  | _ => none

/-- The conversion is undefined where an `int` cannot hold the truncated value. -/
def toInt (number : Floating) : Option Int := number.truncate.filter fun value => IsInt value

@[simp] theorem truncate_intCast (value : Int) : (finite value).truncate = some value := by
  rw [truncate, Rat.num_intCast, Rat.den_intCast, Nat.cast_one, Int.tdiv_one]

/-- The conversion keeps a truncated value that an `int` can hold. -/
theorem toInt_eq_some {number : Floating} {value : Int} :
    number.toInt = some value ↔ number.truncate = some value ∧ IsInt value := by
  simp [toInt, Option.filter_eq_some_iff]

/-- The conversion to `size_t` is undefined where it cannot hold the truncated value. -/
def toSizeT (number : Floating) : Option Nat :=
  (number.truncate.filter fun value => 0 ≤ value ∧ value < 2 ^ 64).map Int.toNat

/-- The conversion of an integer is undefined beyond the range. -/
theorem toInt_intCast_of_not {value : Int} (beyond : ¬ IsInt value) : (finite value).toInt = none := by
  rw [toInt, truncate_intCast, Option.filter_some, decide_eq_false beyond]
  rfl

end Floating

end VisionServer.Library
