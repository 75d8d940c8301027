/-
This file decides when the operators that give points a depth return one element for each point.
-/

import VisionServer.Library.Floating
import VisionServer.Library.Loop

namespace VisionServer.Vision
open Library

/-- This is `cv::Point_`. -/
structure Point_ (num : Type) where
  x : num
  y : num

/-- This is `cv::Point3_`. -/
structure Point3_ (num : Type) where
  x : num
  y : num
  z : num

/-- The default constructor sets every coordinate to zero. -/
instance {num : Type} [Zero num] : Inhabited (Point3_ num) := ⟨⟨0, 0, 0⟩⟩

/-- An `int` sum is undefined where an `int` cannot hold it. -/
def intSum (first second : Int) : Option Int := if IsInt (first + second) then some (first + second) else none

section Points

variable {num : Type} (sum : num → num → Option num)

/-- A flat point gets the depth as its third coordinate. -/
def place (depth : num) (point : Point_ num) : Option (Point3_ num) := some ⟨point.x, point.y, depth⟩

/-- The depth is added to the third coordinate. -/
def raise (depth : num) (point : Point3_ num) : Option (Point3_ num) := do
  return ⟨point.x, point.y, ← sum point.z depth⟩

end Points

section Operators

variable {num point : Type} [Zero num] {s : Nat} (sum : num → num → Option num)

/-- The loop of the arrays assigns each element. -/
def assignEach (extrude : point → Option (Point3_ num)) (base : Vector point s) :
    Option (Vector (Point3_ num) s) :=
  (List.finRange s).foldlM (fun ret (i : Fin s) => do return ret.set i (← extrude (base.get i)) i.isLt)
    (Vector.replicate s default)

/-- The loop of the vectors appends each element to a vector that has the size of the base already. -/
def emplaceEach (extrude : point → Option (Point3_ num)) (base : List point) : Option (List (Point3_ num)) :=
  base.foldlM (fun ret point => do return ret ++ [← extrude point]) (List.replicate base.length default)

/-- This is `operator+` for an array of flat points. -/
def plusArray (base : Vector (Point_ num) s) (depth : num) : Option (Vector (Point3_ num) s) :=
  assignEach (place depth) base

/-- This is `operator+` for an array of points, whose behaviour is undefined at the missing return. -/
def plusArray3 (base : Vector (Point3_ num) s) (depth : num) : Option (Vector (Point3_ num) s) := do
  let _ret ← assignEach (raise sum depth) base
  none

/-- This is `operator+` for a vector of flat points. -/
def plusVector (base : List (Point_ num)) (depth : num) : Option (List (Point3_ num)) :=
  emplaceEach (place depth) base

/-- This is `operator+` for a vector of points. -/
def plusVector3 (base : List (Point3_ num)) (depth : num) : Option (List (Point3_ num)) :=
  emplaceEach (raise sum depth) base

inductive Container
  | array
  | vector

/-- The points of a list in an array. -/
def arrayOf (base : List point) : Vector point base.length := ⟨base.toArray, rfl⟩

/-- The container selects the overload for flat points. -/
def plus (container : Container) (base : List (Point_ num)) (depth : num) : Option (List (Point3_ num)) :=
  match container with
  | .array => (plusArray (arrayOf base) depth).map Vector.toList
  | .vector => plusVector base depth

/-- The container selects the overload for points. -/
def plus3 (container : Container) (base : List (Point3_ num)) (depth : num) : Option (List (Point3_ num)) :=
  match container with
  | .array => (plusArray3 sum (arrayOf base) depth).map Vector.toList
  | .vector => plusVector3 sum base depth

end Operators

section Laws

variable {num point : Type}

/-- There is one element for each point, and it is the point with its depth. -/
def Extrudes (extrude : point → Option (Point3_ num)) (base : List point)
    (returned : Option (List (Point3_ num))) : Prop :=
  ∃ ret : List (Point3_ num), returned = some ret ∧ ret.length = base.length ∧
    ∀ i : Nat, ret[i]? = base[i]?.bind extrude

/-- Both calls return the same elements. -/
def SameElements (first second : Option (List (Point3_ num))) : Prop :=
  ∃ ret, first = some ret ∧ second = some ret

/-- A call without a result has no elements in common with another one. -/
theorem not_sameElements_none {once : Option (List (Point3_ num))} : ¬ SameElements none once :=
  fun ⟨_, returned, _⟩ => nomatch returned

/-- Two depths have a sum. -/
structure Depths (sum : num → num → Option num) where
  first : num
  second : num
  both : num
  added : sum first second = some both

end Laws

section Returned

variable {num point : Type} [Zero num] {sum : num → num → Option num} {s : Nat}
  {extrude : point → Option (Point3_ num)}

/-- Each element of the array is its point with the depth. -/
theorem assignEach_eq_some_iff {base : Vector point s} {ret : Vector (Point3_ num) s} :
    assignEach extrude base = some ret ↔ ∀ i, extrude (base.get i) = some (ret.get i) := by
  rw [assignEach, foldlM_set_eq_some_iff]
  constructor
  · rintro ⟨written, -⟩ i
    exact written i (List.mem_finRange i)
  · intro each
    exact ⟨fun i _ => each i, fun i other => absurd (List.mem_finRange i) other⟩

/-- The points with their depths stand behind as many default points. -/
theorem emplaceEach_eq_some_iff {base : List point} {ret : List (Point3_ num)} :
    emplaceEach extrude base = some ret ↔ ∃ tail, ret = List.replicate base.length default ++ tail ∧
      List.Forall₂ (fun point element => extrude point = some element) base tail :=
  foldlM_append_eq_some_iff

/-- A vector has twice as many elements as points. -/
theorem length_of_emplaceEach {base : List point} {ret : List (Point3_ num)}
    (returned : emplaceEach extrude base = some ret) : ret.length = 2 * base.length := by
  obtain ⟨tail, rfl, each⟩ := emplaceEach_eq_some_iff.mp returned
  rw [List.length_append, List.length_replicate, ← each.length_eq]
  omega

/-- A vector has one element for each point if and only if there is no point. -/
theorem emplaceEach_extrudes_iff {base : List point} :
    Extrudes extrude base (emplaceEach extrude base) ↔ base = [] := by
  constructor
  · rintro ⟨ret, returned, count, -⟩
    rw [length_of_emplaceEach returned] at count
    exact List.eq_nil_of_length_eq_zero (by omega)
  · rintro rfl
    exact ⟨[], rfl, rfl, fun _ => rfl⟩

/-- An array of flat points always gets its depths. -/
theorem plusArray_eq (base : Vector (Point_ num) s) (depth : num) :
    plusArray base depth = some (base.map fun point => ⟨point.x, point.y, depth⟩) := by
  refine assignEach_eq_some_iff.mpr fun i => ?_
  change some _ = some (base.map _)[i.val]
  rw [Vector.getElem_map]
  rfl

theorem plus_array (base : List (Point_ num)) (depth : num) :
    plus .array base depth = some (base.map fun point => ⟨point.x, point.y, depth⟩) := by
  rw [plus, plusArray_eq, Option.map_some, Vector.toList_map]
  rfl

theorem plus3_array (base : List (Point3_ num)) (depth : num) : plus3 sum .array base depth = none := by
  rw [plus3, plusArray3]
  cases assignEach (raise sum depth) (arrayOf base) <;> rfl

/-- Only a vector without points is a vector of the same length. -/
theorem plus_extrudes_iff (container : Container) (base : List (Point_ num)) (depth : num) :
    Extrudes (place depth) base (plus container base depth) ↔ container = .array ∨ base = [] := by
  cases container with
  | array =>
      refine iff_of_true ⟨_, plus_array base depth, List.length_map _, fun i => ?_⟩ (Or.inl rfl)
      rw [List.getElem?_map]
      cases base[i]? <;> rfl
  | vector => exact emplaceEach_extrudes_iff.trans (or_iff_right fun other => nomatch other).symm

theorem plus3_extrudes_iff (container : Container) (base : List (Point3_ num)) (depth : num) :
    Extrudes (raise sum depth) base (plus3 sum container base depth) ↔ container = .vector ∧ base = [] := by
  cases container with
  | array =>
      rw [plus3_array]
      exact iff_of_false (fun ⟨_, returned, _⟩ => nomatch returned) fun other => nomatch other.1
  | vector => exact emplaceEach_extrudes_iff.trans (and_iff_right rfl).symm

/-- The vector has twice as many elements as the array. -/
theorem plus_agree_iff (base : List (Point_ num)) (depth : num) :
    SameElements (plus .vector base depth) (plus .array base depth) ↔ base = [] := by
  rw [plus_array]
  constructor
  · rintro ⟨ret, returned, same⟩
    have count := length_of_emplaceEach returned
    rw [← Option.some.inj same, List.length_map] at count
    exact List.eq_nil_of_length_eq_zero (by omega)
  · rintro rfl
    exact ⟨[], rfl, rfl⟩

theorem plus3_not_agree (base : List (Point3_ num)) (depth : num) :
    ¬ SameElements (plus3 sum .vector base depth) (plus3 sum .array base depth) := by
  rw [plus3_array]
  exact fun ⟨_, _, same⟩ => nomatch same

/-- The second extrusion doubles the number of elements again. -/
theorem emplaceEach_twice_iff {base : List point} {depth : num} {once : point → Option (Point3_ num)} :
    SameElements ((emplaceEach extrude base).bind fun ret => emplaceEach (raise sum depth) ret)
      (emplaceEach once base) ↔ base = [] := by
  constructor
  · rintro ⟨ret, twice, same⟩
    obtain ⟨middle, first, second⟩ := Option.bind_eq_some_iff.mp twice
    have further := length_of_emplaceEach second
    rw [length_of_emplaceEach first, length_of_emplaceEach same] at further
    exact List.eq_nil_of_length_eq_zero (by omega)
  · rintro rfl
    exact ⟨[], rfl, rfl⟩

theorem plus_twice_iff (container : Container) (base : List (Point_ num)) (depths : Depths sum) :
    SameElements ((plus container base depths.first).bind fun ret => plus3 sum container ret depths.second)
      (plus container base depths.both) ↔ container = .vector ∧ base = [] := by
  cases container with
  | array =>
      rw [plus_array, Option.bind_some, plus3_array]
      exact iff_of_false not_sameElements_none fun other => nomatch other.1
  | vector => exact emplaceEach_twice_iff.trans (and_iff_right rfl).symm

theorem plus3_twice_iff (container : Container) (base : List (Point3_ num)) (depths : Depths sum) :
    SameElements ((plus3 sum container base depths.first).bind fun ret => plus3 sum container ret depths.second)
      (plus3 sum container base depths.both) ↔ container = .vector ∧ base = [] := by
  cases container with
  | array =>
      rw [plus3_array]
      exact iff_of_false not_sameElements_none fun other => nomatch other.1
  | vector => exact emplaceEach_twice_iff.trans (and_iff_right rfl).symm

end Returned

/-- The elements are right for arrays of flat points and for empty vectors, both containers agree where
there is no flat point only, and extruding twice is extruding once for empty vectors only. -/
theorem extrusion_iff {num : Type} [Zero num] (sum : num → num → Option num) (container : Container)
    (flat : List (Point_ num)) (solid : List (Point3_ num)) (depth : num) (depths : Depths sum) :
    ((Extrudes (place depth) flat (plus container flat depth) ↔ container = .array ∨ flat = []) ∧
      (Extrudes (raise sum depth) solid (plus3 sum container solid depth) ↔ container = .vector ∧ solid = [])) ∧
    ((SameElements (plus .vector flat depth) (plus .array flat depth) ↔ flat = []) ∧
      ¬ SameElements (plus3 sum .vector solid depth) (plus3 sum .array solid depth)) ∧
    ((SameElements ((plus container flat depths.first).bind fun ret => plus3 sum container ret depths.second)
        (plus container flat depths.both) ↔ container = .vector ∧ flat = []) ∧
      (SameElements ((plus3 sum container solid depths.first).bind fun ret => plus3 sum container ret depths.second)
        (plus3 sum container solid depths.both) ↔ container = .vector ∧ solid = [])) :=
  ⟨⟨plus_extrudes_iff container flat depth, plus3_extrudes_iff container solid depth⟩,
    ⟨plus_agree_iff flat depth, plus3_not_agree solid depth⟩,
    plus_twice_iff container flat depths, plus3_twice_iff container solid depths⟩

/-- One point in a vector gets a default point before it, and an array of one point has no result. -/
theorem onePoint_not_extruded : ¬ Extrudes (place 3) [⟨1, 2⟩] (plus .vector [⟨1, 2⟩] (3 : Int)) ∧
    ¬ Extrudes (raise intSum 3) [⟨1, 2, 0⟩] (plus3 intSum .array [⟨1, 2, 0⟩] 3) := by
  constructor
  · rintro ⟨ret, returned, count, -⟩
    rw [← Option.some.inj returned] at count
    exact absurd count (by decide)
  · rintro ⟨ret, returned, -⟩
    exact nomatch returned

end VisionServer.Vision
