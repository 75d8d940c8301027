/-
This file gives the decimal texts of integers and their conversion by `std::from_chars`.
-/

import Mathlib.Data.List.TakeWhile
import VisionServer.Library.Floating

namespace VisionServer.Library

/-- A negative number has a sign before its digits. -/
def decimalText : Int → List Char
  | .ofNat value => Nat.toDigits 10 value
  | .negSucc value => '-' :: Nat.toDigits 10 (value + 1)

/-- The digits at the start of a text are a number that an `int` can hold. -/
def digitsFrom (sign : Int) (text : List Char) : Option Int :=
  match text.takeWhile Char.isDigit with
  | [] => none
  | digits => (some (sign * Nat.ofDigitChars 10 digits 0)).filter fun value => IsInt value

/-- The value is replaced when the text starts with a number in its range. -/
def fromChars (text : List Char) (value : Int) : Int :=
  match text with
  | '-' :: rest => (digitsFrom (-1) rest).getD value
  | rest => (digitsFrom 1 rest).getD value

theorem takeWhile_toDigits (value : Nat) :
    (Nat.toDigits 10 value).takeWhile Char.isDigit = Nat.toDigits 10 value := by
  rw [List.takeWhile_eq_self_iff]
  exact fun c member => Nat.isDigit_of_mem_toDigits (by decide) (by decide) member

/-- The digits of a number give the number back. -/
theorem digitsFrom_toDigits {sign : Int} {value : Nat} (range : IsInt (sign * value)) :
    digitsFrom sign (Nat.toDigits 10 value) = some (sign * value) := by
  have some := Nat.toDigits_ne_nil (n := value) (b := 10)
  unfold digitsFrom
  rw [takeWhile_toDigits]
  split
  · exact absurd (by assumption) some
  · rw [Nat.ofDigitChars_toDigits (by decide) (by decide), Option.filter_some, decide_eq_true range]
    rfl

/-- A conversion undoes the decimal text of an `int`. -/
theorem fromChars_decimalText {value : Int} (range : IsInt value) (kept : Int) :
    fromChars (decimalText value) kept = value := by
  cases value with
  | ofNat value =>
      have one : IsInt (1 * (value : Int)) := by rwa [one_mul]
      have unsigned (rest : List Char) : Nat.toDigits 10 value ≠ '-' :: rest := by
        intro same
        have digit := Nat.isDigit_of_mem_toDigits (b := 10) (n := value) (c := '-') (by decide) (by decide)
          (same ▸ List.mem_cons_self)
        exact absurd digit (by decide)
      unfold fromChars decimalText
      split
      · exact absurd (by assumption) (unsigned _)
      · rw [digitsFrom_toDigits one]
        exact one_mul _
  | negSucc value =>
      have negative : (-1 : Int) * ((value + 1 : Nat) : Int) = Int.negSucc value := by
        rw [Int.negSucc_eq, neg_one_mul, Nat.cast_succ]
      change (digitsFrom (-1) (Nat.toDigits 10 (value + 1))).getD kept = _
      rw [digitsFrom_toDigits (negative ▸ range), Option.getD_some, negative]

/-- A decimal text has a digit or a sign at each place. -/
theorem mem_decimalText {value : Int} {c : Char} (member : c ∈ decimalText value) :
    c.isDigit = true ∨ c = '-' := by
  cases value with
  | ofNat value => exact Or.inl (Nat.isDigit_of_mem_toDigits (by decide) (by decide) member)
  | negSucc value =>
      rcases List.mem_cons.mp member with sign | digit
      · exact Or.inr sign
      · exact Or.inl (Nat.isDigit_of_mem_toDigits (by decide) (by decide) digit)

/-- The text of an `int` is short. -/
theorem length_decimalText_le {value : Int} (range : IsInt value) : (decimalText value).length ≤ 11 := by
  have digits (value : Nat) (few : value < 10 ^ 10) : (Nat.toDigits 10 value).length ≤ 10 :=
    (Nat.length_toDigits_le_iff (by decide) (by decide)).mpr few
  obtain ⟨least, most⟩ := range
  cases value with
  | ofNat value =>
      have few := digits value (by rw [Int.ofNat_eq_natCast] at most; omega)
      exact Nat.le_succ_of_le few
  | negSucc value =>
      have few := digits (value + 1) (by rw [Int.negSucc_eq] at least; omega)
      exact Nat.succ_le_succ few

end VisionServer.Library
