/-
This file decides what points and rectangles are after they have been rescaled and scaled back.
-/

import VisionServer.Library.Doubles
import VisionServer.Vision.Extrusion

namespace VisionServer.Vision
open Library

/-- This is `cv::Rect_`. -/
structure Rect_ (num : Type) where
  x : num
  y : num
  width : num
  height : num

/-- The nearest integer is taken, and the even one of two. -/
def cvRound : Floating → Option CInt
  | .finite value => toCInt (roundEven value)
  | _ => none

section Coordinates

variable {num result : Type}

def Point_.mapM (change : num → Option result) (point : Point_ num) : Option (Point_ result) := do
  return ⟨← change point.x, ← change point.y⟩

def Rect_.mapM (change : num → Option result) (rect : Rect_ num) : Option (Rect_ result) := do
  return ⟨← change rect.x, ← change rect.y, ← change rect.width, ← change rect.height⟩

def Point_.All (holds : num → Prop) (point : Point_ num) : Prop := holds point.x ∧ holds point.y

def Rect_.All (holds : num → Prop) (rect : Rect_ num) : Prop :=
  holds rect.x ∧ holds rect.y ∧ holds rect.width ∧ holds rect.height

instance (holds : num → Prop) [DecidablePred holds] (point : Point_ num) : Decidable (point.All holds) :=
  inferInstanceAs (Decidable (_ ∧ _))

instance (holds : num → Prop) [DecidablePred holds] (rect : Rect_ num) : Decidable (rect.All holds) :=
  inferInstanceAs (Decidable (_ ∧ _ ∧ _ ∧ _))

/-- Each coordinate is related to the new one. -/
def Point_.Each (related : num → result → Prop) (point : Point_ num) (ret : Point_ result) : Prop :=
  related point.x ret.x ∧ related point.y ret.y

def Rect_.Each (related : num → result → Prop) (rect : Rect_ num) (ret : Rect_ result) : Prop :=
  related rect.x ret.x ∧ related rect.y ret.y ∧ related rect.width ret.width ∧ related rect.height ret.height

/-- This is `*=` with an `int`. -/
def timesInt (factor : CInt) (value : CInt) : Option CInt := toCInt (value.val * factor.val)

/-- This is `/=` with an `int`, which may not be zero. -/
def overInt (divisor : CInt) (value : CInt) : Option CInt :=
  if divisor.val = 0 then none else toCInt (value.val.tdiv divisor.val)

/-- This is `*=` of a point with a `double`, which rounds by `saturate_cast`. -/
def timesDouble (scale : Floating) (value : CInt) : Option CInt := cvRound (binary64.mul (.finite value.val) scale)

/-- This is `*=` of an `int` with a `double`, which truncates. -/
def assignTimes (scale : Floating) (value : CInt) : Option CInt :=
  (binary64.mul (.finite value.val) scale).truncate.bind toCInt

end Coordinates

section Rescaling

/-- This is the overload for a size. -/
def rescale (points : List (Point_ CInt)) (scale : UInt64) : Option (List (Point_ CInt)) :=
  points.mapM (Point_.mapM (timesInt (intCast scale)))

def _rescale (points : List (Point_ CInt)) (scale : UInt64) : Option (List (Point_ CInt)) :=
  points.mapM (Point_.mapM (overInt (intCast scale)))

/-- This is the overload for a `double`. -/
def rescaleBy (points : List (Point_ CInt)) (scale : Floating) : Option (List (Point_ CInt)) :=
  points.mapM (Point_.mapM (timesDouble scale))

/-- This is the overload for contours. -/
def rescaleContours (contours : List (List (Point_ CInt))) (scale : Floating) :
    Option (List (List (Point_ CInt))) :=
  contours.mapM fun contour => contour.mapM (Point_.mapM (timesDouble scale))

/-- This is the overload for rectangles. -/
def rescaleRects (rects : List (Rect_ CInt)) (scale : Floating) : Option (List (Rect_ CInt)) :=
  rects.mapM (Rect_.mapM (assignTimes scale))

end Rescaling

section Changes

variable {num middle result : Type}

theorem Point_.exists_mapM_iff {change : num → Option result} {related : num → result → Prop} {point : Point_ num} :
    (∃ ret, point.mapM change = some ret ∧ point.Each related ret) ↔
      point.All fun value => ∃ ret, change value = some ret ∧ related value ret := by
  constructor
  · intro ⟨ret, done, first, second⟩
    obtain ⟨x, left, rest⟩ := Option.bind_eq_some_iff.mp done
    obtain ⟨y, right, same⟩ := Option.bind_eq_some_iff.mp rest
    cases same
    exact ⟨⟨x, left, first⟩, y, right, second⟩
  · intro ⟨⟨x, left, first⟩, y, right, second⟩
    refine ⟨⟨x, y⟩, ?_, first, second⟩
    rw [Point_.mapM, left, right]
    rfl

/-- Two changes one after the other are one change. -/
theorem Point_.mapM_bind_mapM {first : num → Option middle} {second : middle → Option result} (point : Point_ num) :
    (point.mapM first).bind (Point_.mapM second) = point.mapM fun value => (first value).bind second := by
  cases left : first point.x <;> cases right : first point.y <;> simp [Point_.mapM, left, right]

theorem Rect_.exists_mapM_iff {change : num → Option result} {related : num → result → Prop} {rect : Rect_ num} :
    (∃ ret, rect.mapM change = some ret ∧ rect.Each related ret) ↔
      rect.All fun value => ∃ ret, change value = some ret ∧ related value ret := by
  constructor
  · intro ⟨ret, done, first, second, third, fourth⟩
    obtain ⟨x, left, rest⟩ := Option.bind_eq_some_iff.mp done
    obtain ⟨y, top, rest⟩ := Option.bind_eq_some_iff.mp rest
    obtain ⟨width, wide, rest⟩ := Option.bind_eq_some_iff.mp rest
    obtain ⟨height, high, same⟩ := Option.bind_eq_some_iff.mp rest
    cases same
    exact ⟨⟨x, left, first⟩, ⟨y, top, second⟩, ⟨width, wide, third⟩, height, high, fourth⟩
  · intro ⟨⟨x, left, first⟩, ⟨y, top, second⟩, ⟨width, wide, third⟩, height, high, fourth⟩
    refine ⟨⟨x, y, width, height⟩, ?_, first, second, third, fourth⟩
    rw [Rect_.mapM, left, top, wide, high]
    rfl

theorem Rect_.mapM_bind_mapM {first : num → Option middle} {second : middle → Option result} (rect : Rect_ num) :
    (rect.mapM first).bind (Rect_.mapM second) = rect.mapM fun value => (first value).bind second := by
  cases left : first rect.x <;> cases top : first rect.y <;> cases wide : first rect.width <;>
    cases high : first rect.height <;> simp [Rect_.mapM, left, top, wide, high]

/-- A record stays the same if and only if its coordinates do. -/
theorem Point_.mapM_eq_self_iff {change : num → Option num} {point : Point_ num} :
    point.mapM change = some point ↔ point.All fun value => change value = some value := by
  cases point
  simp [Point_.mapM, Point_.All, Option.bind_eq_some_iff]

theorem Rect_.mapM_eq_self_iff {change : num → Option num} {rect : Rect_ num} :
    rect.mapM change = some rect ↔ rect.All fun value => change value = some value := by
  cases rect
  simp [Rect_.mapM, Rect_.All, Option.bind_eq_some_iff]

/-- Two loops give the same points if and only if their changes give the same coordinates. -/
theorem exists_agreeing_points_iff {first second : num → Option result} {points : List (Point_ num)} :
    (∃ ret, points.mapM (Point_.mapM first) = some ret ∧ points.mapM (Point_.mapM second) = some ret) ↔
      ∀ point ∈ points, point.All fun value => ∃ ret, first value = some ret ∧ second value = some ret := by
  have each (point : Point_ num) (ret : Point_ result) :
      point.mapM second = some ret ↔ point.Each (fun value other => second value = some other) ret := by
    cases ret
    simp [Point_.mapM, Point_.Each, Option.bind_eq_some_iff]
  simp only [← Point_.exists_mapM_iff, ← exists_mapM_iff]
  simp only [mapM_eq_some_iff, each]

end Changes

section Doubles

@[simp] theorem cvRound_finite (value : ℚ) : cvRound (.finite value) = toCInt (roundEven value) := rfl

/-- A product with a size is defined if and only if an `int` holds it, and then it is exact. -/
theorem timesDouble_double (value : CInt) (scale : UInt64) :
    timesDouble (double scale) value = toCInt (value.val * scale.toNat) := by
  rw [timesDouble, mul_double, cvRound_finite]
  by_cases few : |value.val * (scale.toNat : Int)| < 2 ^ 53
  · rw [round_product_of_few few, roundEven_intCast]
  · have large := le_round_product_of_many (not_lt.mp few)
    rw [toCInt_of_far large ((abs_sub_roundEven_le _).trans (by norm_num)), toCInt_of_many few]

/-- Truncation changes nothing about such a product. -/
theorem assignTimes_double (value : CInt) (scale : UInt64) :
    assignTimes (double scale) value = toCInt (value.val * scale.toNat) := by
  rw [assignTimes, mul_double]
  by_cases few : |value.val * (scale.toNat : Int)| < 2 ^ 53
  · rw [round_product_of_few few, Floating.truncate_intCast, Option.bind_some]
  · have large := le_round_product_of_many (not_lt.mp few)
    obtain ⟨truncated, taken, near⟩ :=
      Floating.exists_truncate (binary64.round (value.val * binary64.round scale.toNat))
    rw [taken, Option.bind_some, toCInt_of_far large near.le, toCInt_of_many few]

end Doubles

section Reciprocals

variable {scale : UInt64}

/-- The rounded quotient of a multiple is the number itself. -/
theorem timesDouble_of_multiple {value multiple : CInt} (nonzero : scale ≠ 0)
    (scaled : multiple.val = value.val * scale.toNat) : timesDouble (reciprocal scale) multiple = some value := by
  obtain ⟨quotient, product, near⟩ := mul_reciprocal_of_multiple nonzero scaled
  have most := abs_le_of_CInt value
  rw [timesDouble, product, cvRound_finite, roundEven_eq_of_lt (near.trans_lt (by linarith))]
  exact toCInt_eq_some.mpr rfl

/-- The result is the value or the next one towards zero. -/
def Near (value ret : CInt) : Prop := ret.val = value.val ∨ ret.val = value.val - value.val.sign

/-- The truncated quotient of a multiple may be the next number towards zero. -/
theorem assignTimes_of_multiple {value multiple : CInt} (nonzero : scale ≠ 0)
    (scaled : multiple.val = value.val * scale.toNat) :
    ∃ ret, assignTimes (reciprocal scale) multiple = some ret ∧ Near value ret := by
  obtain ⟨quotient, product, near⟩ := mul_reciprocal_of_multiple nonzero scaled
  have most := abs_le_of_CInt value
  have close : |quotient - value.val| < 1 := by linarith
  have zero (none : value.val = 0) : quotient = 0 := by
    rw [none, Int.cast_zero, sub_zero, abs_zero, zero_div] at near
    exact abs_nonpos_iff.mp near
  obtain ⟨ret, truncated, nearby⟩ := Floating.truncate_near close zero
  refine ⟨⟨ret, isInt_towards_zero value nearby⟩, ?_, nearby⟩
  rw [assignTimes, product, truncated, Option.bind_some]
  exact toCInt_eq_some.mpr rfl

/-- A point is divided to a nearest integer. -/
def Nearest (scale : UInt64) (value ret : CInt) : Prop :=
  2 * |ret.val * (scale.toNat : Int) - value.val| ≤ scale.toNat

/-- The rounded quotient is a nearest integer of the exact one, whichever way the product errs. -/
theorem timesDouble_reciprocal (value : CInt) (nonzero : scale ≠ 0) :
    ∃ ret, timesDouble (reciprocal scale) value = some ret ∧ Nearest scale value ret := by
  obtain ⟨quotient, product, near⟩ := mul_reciprocal value nonzero
  have size := one_le_toNat nonzero
  have most := abs_le_of_CInt value
  have rounded := abs_sub_roundEven_le quotient
  set nearest := roundEven quotient
  have error : |(nearest : ℚ) * scale.toNat - value.val| ≤ scale.toNat / 2 + |(value.val : ℚ)| / 2 ^ 50 := by
    have parts : (nearest : ℚ) * scale.toNat - value.val =
        (quotient * scale.toNat - value.val) - (quotient - nearest) * scale.toNat := by ring
    have first : |(quotient - nearest) * (scale.toNat : ℚ)| ≤ 1 / 2 * scale.toNat := by
      rw [abs_mul, Nat.abs_cast]
      exact mul_le_mul_of_nonneg_right rounded (Nat.cast_nonneg _)
    have triangle := abs_sub (quotient * (scale.toNat : ℚ) - value.val) ((quotient - nearest) * scale.toNat)
    rw [parts]
    linarith
  have whole : 2 * |nearest * (scale.toNat : Int) - value.val| ≤ scale.toNat := by
    have below : ((2 * |nearest * (scale.toNat : Int) - value.val| : Int) : ℚ) < ((scale.toNat + 1 : Int) : ℚ) := by
      push_cast
      linarith
    exact Int.lt_add_one_iff.mp (by exact_mod_cast below)
  have fits : IsInt nearest := isInt_of_nearest value (by exact_mod_cast lt_of_lt_of_le one_pos size) whole
  refine ⟨⟨nearest, fits⟩, ?_, whole⟩
  rw [timesDouble, product, cvRound_finite]
  exact toCInt_eq_some.mpr rfl

/-- A power of two has an exact reciprocal. -/
theorem assignTimes_of_power {value multiple : CInt} {exponent : Nat} (power : scale.toNat = 2 ^ exponent)
    (scaled : multiple.val = value.val * scale.toNat) : assignTimes (reciprocal scale) multiple = some value := by
  have range := value.property
  unfold IsInt at range
  have kept : binary64.round value.val = value.val := binary64_round_intCast (abs_lt.mpr ⟨by omega, by omega⟩)
  have restored : ((multiple.val : Int) : ℚ) * (1 / 2 ^ exponent) = value.val := by
    rw [scaled, power]
    push_cast
    field_simp
  rw [assignTimes, reciprocal_of_power power, FloatFormat.mul, restored, binary64_store, kept,
    Floating.truncate_intCast, Option.bind_some]
  · exact toCInt_eq_some.mpr rfl
  · exact lt_of_le_of_lt (abs_le_of_CInt value) (by norm_num)

end Reciprocals

section Sizes

variable {value : CInt} {scale : UInt64}

/-- Dividing a product by its factor gives the other factor. -/
theorem timesInt_bind_overInt {factor : CInt} : (timesInt factor value).bind (overInt factor) = some value ↔
    IsInt (value.val * factor.val) ∧ factor.val ≠ 0 := by
  unfold timesInt
  constructor
  · intro restored
    obtain ⟨product, scaled, divided⟩ := Option.bind_eq_some_iff.mp restored
    refine ⟨toCInt_eq_some.mp scaled ▸ product.property, fun zero => ?_⟩
    rw [overInt, if_pos zero] at divided
    cases divided
  · intro ⟨fits, nonzero⟩
    rw [toCInt, dif_pos fits, Option.bind_some, overInt, if_neg nonzero, Int.mul_tdiv_cancel _ nonzero]
    exact toCInt_eq_some.mpr rfl

/-- The quotients by a size that has no tie agree if and only if the remainder is the lower one. -/
theorem nearest_tdiv_iff {ret quotient : CInt} (nonzero : scale ≠ 0)
    (near : Nearest scale value ret) (divided : quotient.val = value.val.tdiv scale.toNat)
    (noTie : 2 * (value.val.natAbs % scale.toNat) ≠ scale.toNat) :
    ret = quotient ↔ 2 * (value.val.natAbs % scale.toNat) < scale.toNat := by
  have positive : 0 < scale.toNat := Nat.pos_of_ne_zero fun zero => nonzero (UInt64.toNat_inj.mp zero)
  unfold Nearest at near
  have parts := Int.tdiv_mul_add_tmod value.val scale.toNat
  have rest : |value.val.tmod scale.toNat| = (value.val.natAbs % scale.toNat : Nat) := by
    rw [Int.abs_eq_natAbs, Int.natAbs_tmod, Int.natAbs_natCast]
  rw [← divided] at parts
  generalize value.val.tmod scale.toNat = remainder at parts rest
  generalize value.val.natAbs % scale.toNat = distance at rest noTie
  have nearby : |(ret.val - quotient.val) * (scale.toNat : Int) - remainder| * 2 ≤ scale.toNat := by
    have same : (ret.val - quotient.val) * (scale.toNat : Int) - remainder = ret.val * scale.toNat - value.val := by
      rw [← parts]
      ring
    rw [same]
    omega
  constructor
  · rintro rfl
    rw [sub_self, zero_mul, zero_sub, abs_neg] at nearby
    omega
  · intro lower
    have close : |(ret.val - quotient.val) * (scale.toNat : Int)| < scale.toNat := by
      have triangle := abs_sub_abs_le_abs_sub ((ret.val - quotient.val) * (scale.toNat : Int)) remainder
      omega
    rw [abs_mul, Nat.abs_cast] at close
    have none : |ret.val - quotient.val| < 1 := by
      by_contra apart
      have one : 1 ≤ |ret.val - quotient.val| := by omega
      nlinarith
    exact Subtype.ext (sub_eq_zero.mp (Int.abs_lt_one_iff.mp none))

/-- The multiples by a size and by its cast agree if and only if they are defined and the cast keeps the size, unless
the number is zero. -/
theorem timesInt_agree_iff :
    (∃ ret, timesInt (intCast scale) value = some ret ∧ toCInt (value.val * scale.toNat) = some ret) ↔
      IsInt (value.val * scale.toNat) ∧ (value.val = 0 ∨ scale.toNat < 2 ^ 31) := by
  unfold timesInt
  constructor
  · intro ⟨ret, first, second⟩
    have cast := toCInt_eq_some.mp first
    have held := toCInt_eq_some.mp second
    refine ⟨held ▸ ret.property, ?_⟩
    rcases mul_eq_mul_left_iff.mp (cast.symm.trans held) with kept | zero
    · exact Or.inr (intCast_eq_iff.mp kept)
    · exact Or.inl zero
  · intro ⟨fits, kept⟩
    have same : value.val * (intCast scale).val = value.val * scale.toNat := by
      rcases kept with zero | small
      · rw [zero, zero_mul, zero_mul]
      · rw [intCast_eq_iff.mpr small]
    exact ⟨⟨_, fits⟩, toCInt_eq_some.mpr same.symm, toCInt_eq_some.mpr rfl⟩

/-- There is no product with the reciprocal of zero. -/
theorem product_of_zero (value : CInt) :
    timesDouble (reciprocal 0) value = none ∧ assignTimes (reciprocal 0) value = none := by
  have infinite : reciprocal 0 = .infinite false := if_pos rfl
  unfold timesDouble assignTimes
  rw [infinite, FloatFormat.mul]
  split
  · exact ⟨rfl, rfl⟩
  · exact ⟨rfl, rfl⟩

/-- A multiple is scaled back if and only if an `int` holds it and the size is not zero. -/
theorem timesDouble_restores_iff :
    (timesDouble (double scale) value).bind (timesDouble (reciprocal scale)) = some value ↔
      IsInt (value.val * scale.toNat) ∧ scale ≠ 0 := by
  rw [timesDouble_double]
  constructor
  · intro restored
    obtain ⟨multiple, scaled, divided⟩ := Option.bind_eq_some_iff.mp restored
    have held := toCInt_eq_some.mp scaled
    refine ⟨held ▸ multiple.property, ?_⟩
    rintro rfl
    rw [(product_of_zero multiple).1] at divided
    cases divided
  · intro ⟨fits, nonzero⟩
    rw [toCInt, dif_pos fits, Option.bind_some]
    exact timesDouble_of_multiple nonzero rfl

/-- A truncated multiple comes back next to the number. -/
theorem assignTimes_near_iff :
    (∃ ret, (assignTimes (double scale) value).bind (assignTimes (reciprocal scale)) = some ret ∧ Near value ret) ↔
      IsInt (value.val * scale.toNat) ∧ scale ≠ 0 := by
  rw [assignTimes_double]
  constructor
  · intro ⟨ret, restored, _⟩
    obtain ⟨multiple, scaled, divided⟩ := Option.bind_eq_some_iff.mp restored
    have held := toCInt_eq_some.mp scaled
    refine ⟨held ▸ multiple.property, ?_⟩
    rintro rfl
    rw [(product_of_zero multiple).2] at divided
    cases divided
  · intro ⟨fits, nonzero⟩
    rw [toCInt, dif_pos fits, Option.bind_some]
    exact assignTimes_of_multiple nonzero rfl

/-- A truncated multiple by a power of two comes back to the number. -/
theorem assignTimes_restores_iff {exponent : Nat} (power : scale.toNat = 2 ^ exponent) :
    (assignTimes (double scale) value).bind (assignTimes (reciprocal scale)) = some value ↔
      IsInt (value.val * scale.toNat) := by
  rw [assignTimes_double]
  constructor
  · intro restored
    obtain ⟨multiple, scaled, _⟩ := Option.bind_eq_some_iff.mp restored
    exact toCInt_eq_some.mp scaled ▸ multiple.property
  · intro fits
    rw [toCInt, dif_pos fits, Option.bind_some]
    exact assignTimes_of_power power rfl

/-- A quotient by a size and a product with its reciprocal agree if and only if the remainder is the lower one. -/
theorem overInt_agree_iff (small : scale.toNat < 2 ^ 31) (nonzero : scale ≠ 0)
    (noTie : 2 * (value.val.natAbs % scale.toNat) ≠ scale.toNat) :
    (∃ ret, overInt (intCast scale) value = some ret ∧ timesDouble (reciprocal scale) value = some ret) ↔
      2 * (value.val.natAbs % scale.toNat) < scale.toNat := by
  have cast := intCast_eq_iff.mpr small
  have positive : scale.toNat ≠ 0 := fun zero => nonzero (UInt64.toNat_inj.mp zero)
  have divisor : (intCast scale).val ≠ 0 := by omega
  obtain ⟨ret, product, near⟩ := timesDouble_reciprocal value nonzero
  rw [product, overInt, if_neg divisor, cast]
  constructor
  · intro ⟨quotient, divided, same⟩
    cases same
    exact (nearest_tdiv_iff nonzero near (toCInt_eq_some.mp divided) noTie).mp rfl
  · intro lower
    have same :=
      (@nearest_tdiv_iff value scale ret ⟨_, isInt_tdiv value scale.toNat⟩ nonzero near rfl noTie).mpr lower
    exact ⟨ret, toCInt_eq_some.mpr (same ▸ rfl), rfl⟩

end Sizes

section Points

variable {points : List (Point_ CInt)} {scale : UInt64}

/-- The overloads for a size and for its `double` agree if and only if an `int` holds each multiple, and the size
unless nothing is there to multiply. -/
theorem rescale_agree_iff (points : List (Point_ CInt)) (scale : UInt64) :
    (∃ ret, rescale points scale = some ret ∧ rescaleBy points (double scale) = some ret) ↔
      ∀ point ∈ points, point.All fun value =>
        IsInt (value.val * scale.toNat) ∧ (value.val = 0 ∨ scale.toNat < 2 ^ 31) := by
  unfold rescale rescaleBy
  rw [exists_agreeing_points_iff]
  simp only [timesDouble_double, timesInt_agree_iff]

/-- A size scales points up and down again if and only if an `int` holds each multiple by its cast, and the cast is
not zero. -/
theorem rescale_restores_iff (points : List (Point_ CInt)) (scale : UInt64) :
    ((rescale points scale).bind fun scaled => _rescale scaled scale) = some points ↔
      ∀ point ∈ points, point.All fun value =>
        IsInt (value.val * (intCast scale).val) ∧ (intCast scale).val ≠ 0 := by
  unfold rescale _rescale
  rw [mapM_bind_mapM]
  simp only [Point_.mapM_bind_mapM, mapM_eq_self_iff, Point_.mapM_eq_self_iff, timesInt_bind_overInt]

/-- A `double` scales points up and down again if and only if an `int` holds each multiple and the size is not zero,
although neither the reciprocal nor the products are exact. -/
theorem rescaleBy_restores_iff (points : List (Point_ CInt)) (scale : UInt64) :
    ((rescaleBy points (double scale)).bind fun scaled => rescaleBy scaled (reciprocal scale)) = some points ↔
      ∀ point ∈ points, point.All fun value => IsInt (value.val * scale.toNat) ∧ scale ≠ 0 := by
  unfold rescaleBy
  rw [mapM_bind_mapM]
  simp only [Point_.mapM_bind_mapM, mapM_eq_self_iff, Point_.mapM_eq_self_iff, timesDouble_restores_iff]

/-- Contours are scaled back when all their points are. -/
theorem rescaleContours_restores_iff (contours : List (List (Point_ CInt))) (scale : UInt64) :
    ((rescaleContours contours (double scale)).bind fun scaled => rescaleContours scaled (reciprocal scale)) =
      some contours ↔ ∀ contour ∈ contours, ∀ point ∈ contour, point.All fun value =>
        IsInt (value.val * scale.toNat) ∧ scale ≠ 0 := by
  unfold rescaleContours
  simp only [mapM_bind_mapM, Point_.mapM_bind_mapM, mapM_eq_self_iff, Point_.mapM_eq_self_iff,
    timesDouble_restores_iff]

/-- A `double` scales rectangles up and down again to coordinates that are the same or nearer to zero by one, if and
only if an `int` holds each multiple and the size is not zero. -/
theorem rescaleRects_near_iff (rects : List (Rect_ CInt)) (scale : UInt64) :
    (∃ ret, ((rescaleRects rects (double scale)).bind fun scaled => rescaleRects scaled (reciprocal scale)) =
      some ret ∧ List.Forall₂ (Rect_.Each Near) rects ret) ↔
      ∀ rect ∈ rects, rect.All fun value => IsInt (value.val * scale.toNat) ∧ scale ≠ 0 := by
  unfold rescaleRects
  simp only [mapM_bind_mapM, Rect_.mapM_bind_mapM, exists_mapM_iff, Rect_.exists_mapM_iff, assignTimes_near_iff]

/-- The product of 49 and its reciprocal is below one. -/
example : (assignTimes (double 49) ⟨1, by decide⟩).bind (assignTimes (reciprocal 49)) = some ⟨0, by decide⟩ := by
  decide +kernel

/-- Rectangles are the same again when the size is a power of two. -/
theorem rescaleRects_restores_iff (rects : List (Rect_ CInt)) {scale : UInt64} {exponent : Nat}
    (power : scale.toNat = 2 ^ exponent) :
    ((rescaleRects rects (double scale)).bind fun scaled => rescaleRects scaled (reciprocal scale)) = some rects ↔
      ∀ rect ∈ rects, rect.All fun value => IsInt (value.val * scale.toNat) := by
  unfold rescaleRects
  rw [mapM_bind_mapM]
  simp only [Rect_.mapM_bind_mapM, mapM_eq_self_iff, Rect_.mapM_eq_self_iff, assignTimes_restores_iff power]

/-- The corners of this rectangle are the least and the greatest `int` that four multiplies. -/
def wideRect : Rect_ CInt where
  x := ⟨-2 ^ 29, by decide⟩
  y := ⟨-2 ^ 29, by decide⟩
  width := ⟨2 ^ 29 - 1, by decide⟩
  height := ⟨2 ^ 29 - 1, by decide⟩

theorem wideRect_restored : ((rescaleRects [wideRect] (double 4)).bind fun scaled =>
    rescaleRects scaled (reciprocal 4)) = some [wideRect] := by
  refine (@rescaleRects_restores_iff [wideRect] 4 2 rfl).mpr fun rect member => ?_
  obtain rfl := List.mem_singleton.mp member
  decide

/-- A product with the reciprocal of a size is defined for all points, and it gives a nearest integer. -/
theorem rescaleBy_nearest (points : List (Point_ CInt)) {scale : UInt64} (nonzero : scale ≠ 0) :
    ∃ ret, rescaleBy points (reciprocal scale) = some ret ∧
      List.Forall₂ (Point_.Each (Nearest scale)) points ret := by
  refine exists_mapM_iff.mpr fun point _ => Point_.exists_mapM_iff.mpr ⟨?_, ?_⟩
  · exact timesDouble_reciprocal point.x nonzero
  · exact timesDouble_reciprocal point.y nonzero

/-- The first coordinate of this point is next to a multiple of three. -/
def fourOne : Point_ CInt where
  x := ⟨4, by decide⟩
  y := ⟨1, by decide⟩

theorem fourOne_nearest : ∃ ret, rescaleBy [fourOne] (reciprocal 3) = some ret ∧
    List.Forall₂ (Point_.Each (Nearest 3)) [fourOne] ret :=
  rescaleBy_nearest [fourOne] (by decide)

/-- Where no quotient is a tie, the quotients by a size are the products with its reciprocal if and only if no
remainder is above the half. -/
theorem rescaleDown_agree_iff {points : List (Point_ CInt)} {scale : UInt64} (small : scale.toNat < 2 ^ 31)
    (nonzero : scale ≠ 0) (noTie : ∀ point ∈ points, point.All fun value =>
      2 * (value.val.natAbs % scale.toNat) ≠ scale.toNat) :
    (∃ ret, _rescale points scale = some ret ∧ rescaleBy points (reciprocal scale) = some ret) ↔
      ∀ point ∈ points, point.All fun value => 2 * (value.val.natAbs % scale.toNat) < scale.toNat := by
  unfold _rescale rescaleBy
  rw [exists_agreeing_points_iff]
  refine forall₂_congr fun point member => and_congr ?_ ?_
  · exact overInt_agree_iff small nonzero (noTie point member).1
  · exact overInt_agree_iff small nonzero (noTie point member).2

theorem fourOne_agree :
    ∃ ret, _rescale [fourOne] 3 = some ret ∧ rescaleBy [fourOne] (reciprocal 3) = some ret := by
  refine (rescaleDown_agree_iff (by decide) (by decide) fun point member => ?_).mpr fun point member => ?_
  · obtain rfl := List.mem_singleton.mp member
    decide
  · obtain rfl := List.mem_singleton.mp member
    decide

/-- The quotient of three by two is truncated, and the product with the reciprocal is rounded. -/
example : overInt (intCast 2) ⟨3, by decide⟩ = some ⟨1, by decide⟩ ∧
    timesDouble (reciprocal 2) ⟨3, by decide⟩ = some ⟨2, by decide⟩ := by decide +kernel

end Points

end VisionServer.Vision
