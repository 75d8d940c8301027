/-
This file gives the frames of a pipeline and their resampling to another size.
-/

import Mathlib.Tactic.Ring

namespace VisionServer.Inference

/-- A frame has a byte for each column, row and channel. -/
structure Frame where
  cols : Nat
  rows : Nat
  pixel : Nat → Nat → Nat → UInt8
  wide : 0 < cols
  high : 0 < rows

/-- The function `cv::resize` gives a byte for each column, row and channel of a frame, a width and a height. -/
abbrev Resize := Frame → Nat → Nat → Nat → Nat → Nat → UInt8

/-- The rows of a frame are alike. -/
def Frame.RowsAlike (frame : Frame) : Prop :=
  ∀ x < frame.cols, ∀ y < frame.rows, ∀ z < frame.rows, ∀ c < 3, frame.pixel x y c = frame.pixel x z c

def Frame.ColumnsAlike (frame : Frame) : Prop :=
  ∀ y < frame.rows, ∀ x < frame.cols, ∀ z < frame.cols, ∀ c < 3, frame.pixel x y c = frame.pixel z y c

/-- A frame of the requested size is copied, and an interpolation along alike rows or columns differs by the
rounding at most. -/
structure Resamples (resize : Resize) : Prop where
  own : ∀ frame : Frame, ∀ x < frame.cols, ∀ y < frame.rows, ∀ c < 3,
    resize frame frame.cols frame.rows x y c = frame.pixel x y c
  rows : ∀ frame : Frame, frame.RowsAlike → ∀ width height, ∀ x < width, ∀ y < height, ∀ z < height, ∀ c < 3,
    (resize frame width height x y c).toNat ≤ (resize frame width height x z c).toNat + 1
  columns : ∀ frame : Frame, frame.ColumnsAlike → ∀ width height, ∀ y < height, ∀ x < width, ∀ z < width, ∀ c < 3,
    (resize frame width height x y c).toNat ≤ (resize frame width height z y c).toNat + 1

/-- The two source places around the middle of a target place, and the weight of the second one out of twice the
target size. -/
def taps (source target place : Nat) : Nat × Nat × Nat :=
  let middle : Int := (2 * place + 1) * source - target
  (min (middle / (2 * target)).toNat (source - 1), min (middle / (2 * target) + 1).toNat (source - 1),
    (middle % (2 * target)).toNat)

def mix (whole weight first second : Nat) : Nat := (whole - weight) * first + weight * second

/-- Two pixels of a row are weighted for a column of the target. -/
def Frame.lineMix (frame : Frame) (width x y c : Nat) : Nat :=
  let column := taps frame.cols width x
  mix (2 * width) column.2.2 (frame.pixel column.1 y c).toNat (frame.pixel column.2.1 y c).toNat

/-- The weighted mean of four pixels is rounded. -/
def bilinear : Resize := fun frame width height x y c =>
  let row := taps frame.rows height y
  UInt8.ofNat ((mix (2 * height) row.2.2 (frame.lineMix width x row.1 c) (frame.lineMix width x row.2.1 c) +
    2 * width * height) / (4 * width * height))

theorem mix_self {whole weight : Nat} (part : weight ≤ whole) (value : Nat) :
    mix whole weight value value = whole * value := by
  rw [mix, ← Nat.add_mul, Nat.sub_add_cancel part]

theorem taps_lt {source : Nat} (some : 0 < source) (target place : Nat) :
    (taps source target place).1 < source ∧ (taps source target place).2.1 < source := by
  constructor
  · exact Nat.lt_of_le_of_lt (Nat.min_le_right _ _) (Nat.sub_one_lt_of_lt some)
  · exact Nat.lt_of_le_of_lt (Nat.min_le_right _ _) (Nat.sub_one_lt_of_lt some)

theorem taps_weight_le (source : Nat) {target : Nat} (some : 0 < target) (place : Nat) :
    (taps source target place).2.2 ≤ 2 * target := by
  have bound := Int.emod_lt_of_pos ((2 * place + 1) * source - target : Int) (by omega : (0 : Int) < 2 * target)
  unfold taps
  dsimp only
  omega

/-- At the same size each place is its own first one. -/
theorem taps_own {size place : Nat} (inside : place < size) :
    (taps size size place).1 = place ∧ (taps size size place).2.2 = 0 := by
  have middle : ((2 * place + 1) * size - size : Int) = place * (2 * size) := by ring
  have some : (2 * size : Int) ≠ 0 := by omega
  unfold taps
  dsimp only
  rw [middle, Int.mul_ediv_cancel _ some, Int.mul_emod_left]
  constructor
  · rw [Int.toNat_natCast]
    omega
  · rfl

/-- The rounded mean of equal pixels is their value. -/
theorem rounded_mean {width height : Nat} (area : 0 < width * height) (value : Nat) :
    (2 * height * (2 * width * value) + 2 * width * height) / (4 * width * height) = value := by
  have whole : 2 * height * (2 * width * value) + 2 * width * height =
      2 * (width * height) + 4 * width * height * value := by ring
  have denominator : 4 * width * height = 4 * (width * height) := Nat.mul_assoc _ _ _
  rw [whole, Nat.add_mul_div_left _ _ (by omega), denominator, Nat.div_eq_of_lt (by omega), Nat.zero_add]

section Lines

variable {frame : Frame}

theorem lineMix_own {x : Nat} (left : x < frame.cols) (y c : Nat) :
    frame.lineMix frame.cols x y c = 2 * frame.cols * (frame.pixel x y c).toNat := by
  obtain ⟨column, weight⟩ := taps_own left
  simp only [Frame.lineMix, column, weight, mix, Nat.sub_zero, Nat.zero_mul, Nat.add_zero]

theorem lineMix_rows (alike : frame.RowsAlike) (width x : Nat) {y z c : Nat} (above : y < frame.rows)
    (below : z < frame.rows) (channel : c < 3) : frame.lineMix width x y c = frame.lineMix width x z c := by
  obtain ⟨first, second⟩ := taps_lt frame.wide width x
  simp only [Frame.lineMix]
  rw [alike _ first y above z below c channel, alike _ second y above z below c channel]

theorem lineMix_columns (alike : frame.ColumnsAlike) {width x : Nat} (left : x < width) {y c : Nat}
    (above : y < frame.rows) (channel : c < 3) :
    frame.lineMix width x y c = 2 * width * (frame.pixel 0 y c).toNat := by
  obtain ⟨first, second⟩ := taps_lt frame.wide width x
  simp only [Frame.lineMix]
  rw [alike y above _ first 0 frame.wide c channel, alike y above _ second 0 frame.wide c channel,
    mix_self (taps_weight_le frame.cols (Nat.zero_lt_of_lt left) x)]

end Lines

/-- Bilinear interpolation has the documented properties, without any rounding along alike rows or columns. -/
theorem bilinear_resamples : Resamples bilinear where
  own := by
    intro frame x left y above c _
    obtain ⟨row, weight⟩ := taps_own above
    simp only [bilinear, row, weight, lineMix_own left, mix, Nat.sub_zero, Nat.zero_mul, Nat.add_zero]
    rw [rounded_mean (Nat.mul_pos frame.wide frame.high), UInt8.ofNat_toNat]
  rows := by
    intro frame alike width height x _ y above z below c channel
    have part (place : Nat) := taps_weight_le frame.rows (Nat.zero_lt_of_lt above) place
    have inside (place : Nat) := taps_lt frame.high height place
    have same {row : Nat} (rowInside : row < frame.rows) := lineMix_rows alike width x rowInside frame.high channel
    refine Nat.le_succ_of_le (le_of_eq (congrArg UInt8.toNat ?_))
    simp only [bilinear]
    rw [same (inside y).1, same (inside y).2, same (inside z).1, same (inside z).2, mix_self (part y),
      mix_self (part z)]
  columns := by
    intro frame alike width height y above x left z right c channel
    obtain ⟨first, second⟩ := taps_lt frame.high height y
    refine Nat.le_succ_of_le (le_of_eq (congrArg UInt8.toNat ?_))
    simp only [bilinear]
    rw [lineMix_columns alike left first channel, lineMix_columns alike left second channel,
      lineMix_columns alike right first channel, lineMix_columns alike right second channel]

end VisionServer.Inference
