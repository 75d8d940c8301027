/-
This file compares the video mode of a configuration with its documentation.
-/

import VisionServer.Camera.VideoMode
import Mathlib.Algebra.Order.Ring.Rat

namespace VisionServer.Camera
open Library

/-- These names select a pixel format. -/
def knownFormats : List (String × PixelFormat) :=
  [("mjpeg", .kMJPEG), ("yuyv", .kYUYV), ("rgb565", .kRGB565), ("bgr", .kBGR), ("gray", .kGray)]

/-- A number is valid when it is not negative and a field of 32 bits holds its truncation. -/
def ValidNumber : JsonNumber → Prop
  | .integer value => 0 ≤ value ∧ value < 2 ^ 31
  | .decimal value => 0 ≤ value ∧ (JsonNumber.decimal value).truncate < 2 ^ 31

instance : (value : JsonNumber) → Decidable (ValidNumber value)
  | .integer _ => inferInstanceAs (Decidable (_ ∧ _))
  | .decimal _ => inferInstanceAs (Decidable (_ ∧ _))

/-- The field of a key is the truncation of its valid number, and zero otherwise. -/
def promisedField (config : Json) (key : String) : Int :=
  match config.atKey key with
  | .ok (.number value) => if ValidNumber value then value.truncate else 0
  | _ => 0

/-- A configuration has no boolean under its numeric keys. -/
structure ModeConfig where
  config : Json
  numeric : ∀ key ∈ ["width", "height", "fps"], ∀ value, config.atKey key ≠ .ok (.boolean value)

namespace ModeConfig

variable (c : ModeConfig)

/-- The pixel format is named by a text, up to the case of its letters. -/
def Names (name : String) : Prop :=
  ∃ text, c.config.atKey "pixel format" = .ok (.string text) ∧ equalsLower text name = true

/-- The mode is the documented one: no field is negative, each is the valid number of its own key, and the
pixel format is the one named. -/
structure Documented : Prop where
  nonnegative : 0 ≤ (getJsonVideoMode c.config).width ∧ 0 ≤ (getJsonVideoMode c.config).height ∧
    0 ≤ (getJsonVideoMode c.config).fps
  width : (getJsonVideoMode c.config).width = promisedField c.config "width"
  height : (getJsonVideoMode c.config).height = promisedField c.config "height"
  fps : (getJsonVideoMode c.config).fps = promisedField c.config "fps"
  known : ∀ format ∈ knownFormats, c.Names format.1 → (getJsonVideoMode c.config).pixelFormat = format.2
  unknown : (∀ format ∈ knownFormats, ¬ c.Names format.1) →
    (getJsonVideoMode c.config).pixelFormat = .kUnknown

/-- Each number is truncated into the range of the fields or to a multiple of the unsigned range. -/
def Representable : Prop :=
  ∀ key ∈ ["width", "height", "fps"], ∀ value, c.config.atKey key = .ok (.number value) →
    0 ≤ value.truncate ∧ value.truncate < 2 ^ 31 ∨ 2 ^ 32 ∣ value.truncate

end ModeConfig

section Fields

variable {config : Json} {key : String}

/-- A number that is not negative is truncated to one that is not negative. -/
theorem truncate_nonneg {value : JsonNumber} (valid : ValidNumber value) : 0 ≤ value.truncate := by
  cases value with
  | integer value => exact valid.1
  | decimal value => exact Int.tdiv_nonneg (Rat.num_nonneg.mpr valid.1) (Int.natCast_nonneg _)

theorem truncate_lt {value : JsonNumber} (valid : ValidNumber value) : value.truncate < 2 ^ 31 := by
  cases value with
  | integer value => exact valid.2
  | decimal value => exact valid.2

/-- A number that is not valid but truncated into the range is truncated to zero. -/
theorem truncate_eq_zero {value : JsonNumber} (invalid : ¬ ValidNumber value)
    (low : 0 ≤ value.truncate) (high : value.truncate < 2 ^ 31) : value.truncate = 0 := by
  cases value with
  | integer value => exact absurd ⟨low, high⟩ invalid
  | decimal value =>
      have negative : value < 0 := not_le.mp fun least => invalid ⟨least, high⟩
      have below : value.num ≤ 0 := (Rat.num_neg.mpr negative).le
      have opposite : 0 ≤ (-value.num).tdiv value.den := Int.tdiv_nonneg (by omega) (Int.natCast_nonneg _)
      rw [Int.neg_tdiv] at opposite
      exact le_antisymm (by change value.num.tdiv value.den ≤ 0; omega) low

theorem promisedField_nonneg (config : Json) (key : String) : 0 ≤ promisedField config key := by
  unfold promisedField
  split
  · split
    · exact truncate_nonneg (by assumption)
    · exact le_rfl
  · exact le_rfl

/-- The field of a number is its truncation modulo the unsigned range, read as a signed value. -/
theorem jsonField_number {value : JsonNumber} (found : config.atKey key = .ok (.number value)) :
    jsonField config key = toInt32 value.truncate := by
  have counted : config.count key ≠ 0 := Nat.pos_iff_ne_zero.mp ((config.count_pos_iff key).mpr ⟨_, found⟩)
  have wraps : ((value.truncate % 2 ^ 32).toNat : Int) = value.truncate % 2 ^ 32 := by omega
  have converted : config.atKey key >>= Json.getUnsigned = .ok (value.truncate % 2 ^ 32).toNat := by
    rw [found]
    rfl
  have same : toInt32 (value.truncate % 2 ^ 32) = toInt32 value.truncate := by
    rw [toInt32, toInt32, show ((2 : Int) ^ 32) = ((2 ^ 32 : Nat) : Int) from rfl, Int.emod_bmod]
  rw [jsonField, if_pos counted, converted]
  exact (congrArg toInt32 wraps).trans same

/-- A key without a number or a boolean leaves the field zero. -/
theorem jsonField_other (number : ∀ value, config.atKey key ≠ .ok (.number value))
    (boolean : ∀ value, config.atKey key ≠ .ok (.boolean value)) : jsonField config key = 0 := by
  unfold jsonField
  split
  · cases found : config.atKey key with
    | error e => rfl
    | ok value =>
        cases value with
        | number value => exact absurd found (number value)
        | boolean value => exact absurd found (boolean value)
        | _ => rfl
  · rfl

/-- The field is the promised one if and only if the truncation is in its range or wraps around to zero. -/
theorem jsonField_eq_promised_iff (boolean : ∀ value, config.atKey key ≠ .ok (.boolean value)) :
    jsonField config key = promisedField config key ↔
      ∀ value, config.atKey key = .ok (.number value) →
        0 ≤ value.truncate ∧ value.truncate < 2 ^ 31 ∨ 2 ^ 32 ∣ value.truncate := by
  by_cases number : ∃ value, config.atKey key = .ok (.number value)
  · obtain ⟨value, found⟩ := number
    have promised : promisedField config key = if ValidNumber value then value.truncate else 0 := by
      rw [promisedField, found]
    have only (other : JsonNumber) (again : config.atKey key = .ok (.number other)) : other = value := by
      rw [found] at again
      cases again
      rfl
    rw [jsonField_number found, promised]
    constructor
    · intro same other again
      rw [only other again]
      by_cases valid : ValidNumber value
      · exact Or.inl ⟨truncate_nonneg valid, truncate_lt valid⟩
      · rw [if_neg valid] at same
        exact Or.inr (Int.dvd_of_bmod_eq_zero same)
    · intro given
      by_cases valid : ValidNumber value
      · have low := truncate_nonneg valid
        rw [if_pos valid, toInt32_of_range (by omega) (truncate_lt valid)]
      · rw [if_neg valid]
        rcases given value found with ⟨low, high⟩ | multiple
        · rw [truncate_eq_zero valid low high]
          rfl
        · exact Int.bmod_eq_zero_of_dvd multiple
  · have none : promisedField config key = 0 := by
      unfold promisedField
      split
      · exact absurd ⟨_, by assumption⟩ number
      · rfl
    rw [none, jsonField_other (fun value found => number ⟨value, found⟩) boolean]
    exact iff_of_true rfl fun value found => absurd ⟨value, found⟩ number

end Fields

section Formats

theorem pixelFormat_eq (config : Json) : (getJsonVideoMode config).pixelFormat =
    match config.atKey "pixel format" with
    | .ok (.string text) => pixelFormatOf text
    | _ => .kUnknown := by
  change (if config.count "pixel format" ≠ 0 then _ else _) = _
  cases found : config.atKey "pixel format" with
  | error e => split <;> rfl
  | ok value =>
      have counted : config.count "pixel format" ≠ 0 :=
        Nat.pos_iff_ne_zero.mp ((config.count_pos_iff _).mpr ⟨value, found⟩)
      rw [if_pos counted]
      cases value <;> rfl

/-- The formats have different names. -/
theorem pixelFormatOf_of_equalsLower {text : String} {format : String × PixelFormat}
    (member : format ∈ knownFormats) (named : equalsLower text format.1 = true) :
    pixelFormatOf text = format.2 := by
  have lower := beq_iff_eq.mp named
  have same (name : String) : equalsLower text name = equalsLower format.1 name := by
    rw [equalsLower, equalsLower, lower]
  unfold pixelFormatOf
  rw [same, same, same, same, same]
  unfold knownFormats at member
  simp only [List.mem_cons, List.not_mem_nil, or_false] at member
  rcases member with rfl | rfl | rfl | rfl | rfl <;> decide

theorem pixelFormatOf_unknown {text : String}
    (other : ∀ format ∈ knownFormats, ¬ equalsLower text format.1 = true) :
    pixelFormatOf text = .kUnknown := by
  rw [pixelFormatOf, if_neg (other ("mjpeg", .kMJPEG) (by decide)), if_neg (other ("yuyv", .kYUYV) (by decide)),
    if_neg (other ("rgb565", .kRGB565) (by decide)), if_neg (other ("bgr", .kBGR) (by decide)),
    if_neg (other ("gray", .kGray) (by decide))]

end Formats

namespace ModeConfig

variable (c : ModeConfig)

/-- The mode of a configuration is the documented one if and only if each number is truncated into the range of
the fields or to a multiple of the unsigned range. -/
theorem documented_iff : c.Documented ↔ c.Representable := by
  have width := jsonField_eq_promised_iff (c.numeric "width" (by simp))
  have height := jsonField_eq_promised_iff (c.numeric "height" (by simp))
  have fps := jsonField_eq_promised_iff (c.numeric "fps" (by simp))
  constructor
  · intro given key listed
    simp only [List.mem_cons, List.not_mem_nil, or_false] at listed
    rcases listed with rfl | rfl | rfl
    · exact width.mp given.width
    · exact height.mp given.height
    · exact fps.mp given.fps
  · intro given
    have first := width.mpr (given "width" (by simp))
    have second := height.mpr (given "height" (by simp))
    have third := fps.mpr (given "fps" (by simp))
    refine ⟨⟨(promisedField_nonneg _ _).trans first.ge, (promisedField_nonneg _ _).trans second.ge,
      (promisedField_nonneg _ _).trans third.ge⟩, first, second, third, ?_, ?_⟩
    · rintro format member ⟨text, found, named⟩
      rw [pixelFormat_eq, found]
      exact pixelFormatOf_of_equalsLower member named
    · intro other
      rw [pixelFormat_eq]
      split
      · rename_i text found
        exact pixelFormatOf_unknown fun format member named => other format member ⟨text, found, named⟩
      · rfl

end ModeConfig

/-- A width is configured as minus one. -/
def negativeWidth : ModeConfig where
  config := .object [("width", .number (.integer (-1)))]
  numeric := by
    intro key listed value found
    simp only [List.mem_cons, List.not_mem_nil, or_false] at listed
    rcases listed with rfl | rfl | rfl <;> cases found

/-- The negative width survives. -/
theorem negativeWidth_not_documented : ¬ negativeWidth.Documented := by
  intro given
  exact absurd given.nonnegative.1 (by decide)

end VisionServer.Camera
