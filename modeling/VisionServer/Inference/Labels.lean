/-
This file reads the object labels of a model from both formats of their file.
-/

import VisionServer.Library.Integers
import VisionServer.Library.Lines

namespace VisionServer.Inference
open Library

/-- These are the characters of `item {`. -/
def itemLine : List Char := ['i', 't', 'e', 'm', ' ', '{']

/-- The loop over a line gives `start` and `end`, and the second quote in use ends it. -/
def scan : List Char → Nat → Int → Int × Int
  | [], _, start => (start, -1)
  | c :: rest, i, start =>
      if c = '"' then
        if start < 0 then scan rest (i + 1) (toInt32 (i + 1 : Nat)) else (start, toInt32 i)
      else scan rest (i + 1) start

/-- This is `std::string::substr`, which throws for a position behind the end. -/
def substr (text : List Char) (pos count : Nat) : Option (List Char) :=
  if pos ≤ text.length then some ((text.drop pos).take count) else none

/-- The count is a difference of two `int32_t` values. -/
def addLabel (objs : List (List Char)) (line : List Char) : Option (List (List Char)) :=
  let range := scan line 0 (-1)
  if 0 ≤ range.1 ∧ 0 ≤ range.2 then do
    let label ← substr line range.1.toNat ((range.2 - range.1) % 2 ^ 64).toNat
    pure (objs ++ [label])
  else pure objs

/-- A missing file reads like an empty one, and there is no result after an exception. -/
def loadObjectLabels (file : List Char) (_objs : List (List Char)) : Option (List (List Char)) :=
  let lines := readLines file
  let line := lines.headD []
  if line = itemLine then lines.tail.foldlM addLabel []
  else pure (lines.tail.foldl (fun objs line => objs ++ [line]) [line])

/-- These are the positions of the quotes behind an offset. -/
def quotes : List Char → Nat → List Nat
  | [], _ => []
  | c :: rest, i => if c = '"' then i :: quotes rest (i + 1) else quotes rest (i + 1)

theorem quotes_append (before rest : List Char) (i : Nat) :
    quotes (before ++ rest) i = quotes before i ++ quotes rest (i + before.length) := by
  induction before generalizing i with
  | nil => rfl
  | cons c before inductionHypothesis =>
      have place : i + 1 + before.length = i + (c :: before).length := by
        rw [List.length_cons]
        omega
      rw [List.cons_append, quotes, quotes, inductionHypothesis, place]
      split <;> rfl

theorem quotes_eq_nil {line : List Char} (free : '"' ∉ line) (i : Nat) : quotes line i = [] := by
  induction line generalizing i with
  | nil => rfl
  | cons c line inductionHypothesis =>
      have parts := List.ne_and_not_mem_of_not_mem_cons free
      rw [quotes, if_neg (Ne.symm parts.1), inductionHypothesis parts.2]

theorem length_quotes (line : List Char) (i : Nat) : (quotes line i).length = line.count '"' := by
  induction line generalizing i with
  | nil => rfl
  | cons c line inductionHypothesis =>
      rw [quotes, List.count_cons]
      split <;> simp_all

theorem mem_quotes_range {line : List Char} {i q : Nat} (member : q ∈ quotes line i) :
    i ≤ q ∧ q < i + line.length := by
  induction line generalizing i with
  | nil => cases member
  | cons c line inductionHypothesis =>
      rw [quotes] at member
      rw [List.length_cons]
      split at member
      · rcases List.mem_cons.mp member with rfl | later
        · omega
        · have range := inductionHypothesis later
          omega
      · have range := inductionHypothesis member
        omega

/-- The scan as a loop over the quotes. -/
def select : List Nat → Int → Int × Int
  | [], start => (start, -1)
  | q :: rest, start => if start < 0 then select rest (toInt32 (q + 1 : Nat)) else (start, toInt32 q)

theorem scan_eq_select (line : List Char) (i : Nat) (start : Int) :
    scan line i start = select (quotes line i) start := by
  induction line generalizing i start with
  | nil => rfl
  | cons c line inductionHypothesis =>
      rw [scan, quotes]
      split
      · rw [select, inductionHypothesis]
      · exact inductionHypothesis _ _

theorem toInt32_nonneg_iff (position : Nat) : 0 ≤ toInt32 position ↔ position % 2 ^ 32 < 2 ^ 31 := by
  rw [toInt32, Int.bmod_def]
  split <;> omega

theorem toInt32_of_nonneg {position : Nat} (kept : position % 2 ^ 32 < 2 ^ 31) :
    toInt32 position = (position % 2 ^ 32 : Nat) := by
  rw [toInt32, Int.bmod_def, if_pos (by omega)]
  omega

/-- Two quotes are the first ones that count as an opening and a closing one modulo `2 ^ 32`. -/
def Selects (positions : List Nat) (opening closing : Nat) : Prop :=
  ∃ skipped rest, positions = skipped ++ opening :: closing :: rest ∧
    (∀ q ∈ skipped, 2 ^ 31 ≤ (q + 1) % 2 ^ 32) ∧ (opening + 1) % 2 ^ 32 < 2 ^ 31 ∧ closing % 2 ^ 32 < 2 ^ 31

/-- A quote that counts as an opening one is the opening one. -/
theorem selects_cons_of_opens {q : Nat} (opens : (q + 1) % 2 ^ 32 < 2 ^ 31) {positions : List Nat}
    {opening closing : Nat} : Selects (q :: positions) opening closing ↔
      opening = q ∧ closing % 2 ^ 32 < 2 ^ 31 ∧ ∃ rest, positions = closing :: rest := by
  constructor
  · rintro ⟨skipped, rest, parts, passed, -, kept⟩
    cases skipped with
    | nil =>
        obtain ⟨first, others⟩ := List.cons.inj parts
        exact ⟨first.symm, kept, rest, others⟩
    | cons other skipped =>
        have wide := passed other List.mem_cons_self
        rw [← (List.cons.inj parts).1] at wide
        omega
  · rintro ⟨rfl, kept, rest, rfl⟩
    exact ⟨[], rest, rfl, fun _ member => absurd member List.not_mem_nil, opens, kept⟩

/-- Another quote is skipped. -/
theorem selects_cons_of_skips {q : Nat} (skips : 2 ^ 31 ≤ (q + 1) % 2 ^ 32) {positions : List Nat}
    {opening closing : Nat} : Selects (q :: positions) opening closing ↔ Selects positions opening closing := by
  constructor
  · rintro ⟨skipped, rest, parts, passed, opens, kept⟩
    cases skipped with
    | nil =>
        rw [← (List.cons.inj parts).1] at opens
        omega
    | cons other skipped =>
        exact ⟨skipped, rest, (List.cons.inj parts).2, fun _ member => passed _ (List.mem_cons_of_mem _ member),
          opens, kept⟩
  · rintro ⟨skipped, rest, rfl, passed, kept⟩
    exact ⟨q :: skipped, rest, rfl, List.forall_mem_cons.mpr ⟨skips, passed⟩, kept⟩

/-- After an opening quote the next quote closes, and its position is in use if it counts as a closing one. -/
theorem select_of_opened {positions : List Nat} {opened : Int} (sign : ¬opened < 0) {start stop : Int}
    (closed : 0 ≤ stop) : select positions opened = (start, stop) ↔
      ∃ closing, (closing % 2 ^ 32 < 2 ^ 31 ∧ ∃ rest, positions = closing :: rest) ∧ start = opened ∧
        stop = (closing % 2 ^ 32 : Nat) := by
  cases positions with
  | nil =>
      constructor
      · intro same
        have minus : -1 = stop := (Prod.mk.inj same).2
        omega
      · rintro ⟨closing, ⟨-, rest, parts⟩, -⟩
        cases parts
  | cons next positions =>
      rw [select, if_neg sign]
      constructor
      · intro same
        obtain ⟨first, second⟩ := Prod.mk.inj same
        rw [← second, toInt32_nonneg_iff] at closed
        refine ⟨next, ⟨closed, positions, rfl⟩, first.symm, ?_⟩
        rw [← second, toInt32_of_nonneg closed]
      · rintro ⟨closing, ⟨kept, rest, parts⟩, first, second⟩
        obtain ⟨rfl, -⟩ := List.cons.inj parts
        rw [first, second, toInt32_of_nonneg kept]

/-- Both positions are in use if and only if the quotes count as such. -/
theorem select_eq_iff {positions : List Nat} {before : Int} (negative : before < 0) {start stop : Int}
    (closed : 0 ≤ stop) : select positions before = (start, stop) ↔
      ∃ opening closing, Selects positions opening closing ∧ start = ((opening + 1) % 2 ^ 32 : Nat) ∧
        stop = (closing % 2 ^ 32 : Nat) := by
  induction positions generalizing before with
  | nil =>
      constructor
      · intro same
        have minus : -1 = stop := (Prod.mk.inj same).2
        omega
      · rintro ⟨opening, closing, ⟨skipped, rest, parts, -⟩, -⟩
        simp at parts
  | cons q positions inductionHypothesis =>
      rw [select, if_pos negative]
      by_cases opens : (q + 1) % 2 ^ 32 < 2 ^ 31
      · have sign : ¬toInt32 (q + 1 : Nat) < 0 := Int.not_lt.mpr ((toInt32_nonneg_iff _).mpr opens)
        rw [select_of_opened sign closed, toInt32_of_nonneg opens]
        simp only [selects_cons_of_opens opens]
        constructor
        · rintro ⟨closing, counts, first, second⟩
          exact ⟨q, closing, ⟨rfl, counts⟩, first, second⟩
        · rintro ⟨opening, closing, ⟨rfl, counts⟩, first, second⟩
          exact ⟨closing, counts, first, second⟩
      · have sign : toInt32 (q + 1 : Nat) < 0 := by
          rw [← Int.not_le, toInt32_nonneg_iff]
          exact opens
        simp only [inductionHypothesis sign, selects_cons_of_skips (Nat.le_of_not_lt opens)]

/-- The text that a line adds to the labels, if it adds one. -/
def labelOf (line : List Char) : Option (List Char) :=
  if 0 ≤ (scan line 0 (-1)).1 ∧ 0 ≤ (scan line 0 (-1)).2 then
    some ((line.drop (scan line 0 (-1)).1.toNat).take
      (((scan line 0 (-1)).2 - (scan line 0 (-1)).1) % 2 ^ 64).toNat)
  else none

/-- Counted modulo `2 ^ 32`, two quotes of the line enclose the label, where a negative length counts modulo
`2 ^ 64`. -/
def Encloses (line label : List Char) : Prop :=
  ∃ opening closing, Selects (quotes line 0) opening closing ∧
    label = (line.drop ((opening + 1) % 2 ^ 32)).take
      (((closing % 2 ^ 32 : Nat) - ((opening + 1) % 2 ^ 32 : Nat) : Int) % 2 ^ 64).toNat

/-- A line adds a text if and only if two of its quotes enclose it. -/
theorem labelOf_eq_some_iff {line label : List Char} : labelOf line = some label ↔ Encloses line label := by
  unfold labelOf
  rw [scan_eq_select]
  constructor
  · intro found
    split at found
    · rename_i used
      obtain ⟨opening, closing, selects, start, stop⟩ :=
        (select_eq_iff (by decide) used.2).mp (rfl : select (quotes line 0) (-1) = _)
      rw [start, stop] at found
      exact ⟨opening, closing, selects, (Option.some.inj found).symm⟩
    · cases found
  · rintro ⟨opening, closing, selects, rfl⟩
    have range := (select_eq_iff (by decide : (-1 : Int) < 0) (Int.natCast_nonneg _)).mpr
      ⟨opening, closing, selects, rfl, rfl⟩
    rw [range, if_pos ⟨Int.natCast_nonneg _, Int.natCast_nonneg _⟩]
    rfl

/-- No position in use is behind the end of the line, so nothing is thrown. -/
theorem addLabel_eq (objs : List (List Char)) (line : List Char) :
    addLabel objs line = some (objs ++ (labelOf line).toList) := by
  simp only [addLabel, labelOf]
  split
  · rename_i used
    rw [scan_eq_select] at used
    obtain ⟨opening, closing, ⟨skipped, rest, parts, -⟩, start, -⟩ :=
      (select_eq_iff (by decide) used.2).mp (rfl : select (quotes line 0) (-1) = _)
    have member : opening ∈ quotes line 0 := by
      rw [parts]
      exact List.mem_append_right _ List.mem_cons_self
    have bound := (mem_quotes_range member).2
    have inside : (scan line 0 (-1)).1.toNat ≤ line.length := by
      rw [scan_eq_select, start, Int.toNat_natCast]
      have small := Nat.mod_le (opening + 1) (2 ^ 32)
      omega
    rw [substr, if_pos inside]
    rfl
  · exact congrArg some (List.append_nil objs).symm

theorem foldlM_addLabel (lines objs : List (List Char)) :
    lines.foldlM addLabel objs = some (objs ++ lines.filterMap labelOf) := by
  induction lines generalizing objs with
  | nil => exact congrArg some (List.append_nil objs).symm
  | cons line lines inductionHypothesis =>
      rw [List.foldlM_cons, addLabel_eq]
      change lines.foldlM addLabel (objs ++ (labelOf line).toList) = _
      rw [inductionHypothesis, List.append_assoc]
      cases found : labelOf line with
      | none => rw [List.filterMap_cons_none found, Option.toList_none, List.nil_append]
      | some label => rw [List.filterMap_cons_some found, Option.toList_some, List.singleton_append]

/-- A line with fewer than two quotes adds nothing. -/
theorem labelOf_of_few {line : List Char} (few : line.count '"' < 2) : labelOf line = none := by
  cases found : labelOf line with
  | none => rfl
  | some label =>
      obtain ⟨opening, closing, ⟨skipped, rest, parts, -⟩, -⟩ := labelOf_eq_some_iff.mp found
      rw [← length_quotes line 0, parts, List.length_append, List.length_cons, List.length_cons] at few
      omega

/-- A line of the format holds a label between its first two quotes. -/
structure LabelLine where
  before : List Char
  label : List Char
  after : List Char
  opened : '"' ∉ before
  closed : '"' ∉ label
  single : '\n' ∉ before ++ label ++ after

namespace LabelLine

variable (line : LabelLine)

def text : List Char := line.before ++ '"' :: (line.label ++ '"' :: line.after)

/-- This is the position of the second quote. -/
def second : Nat := line.before.length + 1 + line.label.length

variable {line}

theorem quotes_text : quotes line.text 0 =
    line.before.length :: line.second :: quotes line.after (line.second + 1) := by
  rw [text, quotes_append, quotes_eq_nil line.opened, List.nil_append, Nat.zero_add, quotes, if_pos rfl,
    quotes_append, quotes_eq_nil line.closed, List.nil_append, quotes, if_pos rfl]
  rfl

/-- The positions count as they are below `2 ^ 31`. -/
theorem encloses_of_short (short : line.second < 2 ^ 31) : Encloses line.text line.label := by
  have order : line.before.length + 1 ≤ line.second := Nat.le_add_right _ _
  have opening : (line.before.length + 1) % 2 ^ 32 = line.before.length + 1 := Nat.mod_eq_of_lt (by omega)
  have closing : line.second % 2 ^ 32 = line.second := Nat.mod_eq_of_lt (by omega)
  have count : (((line.second : Nat) - (line.before.length + 1 : Nat) : Int) % 2 ^ 64).toNat =
      line.label.length := by
    have length : line.second = line.before.length + 1 + line.label.length := rfl
    omega
  have behind : line.text.drop (line.before.length + 1) = line.label ++ '"' :: line.after := by
    rw [text, ← List.drop_drop, List.drop_left]
    rfl
  refine ⟨line.before.length, line.second, ⟨[], _, quotes_text, fun _ member => absurd member List.not_mem_nil,
    by omega, by omega⟩, ?_⟩
  rw [opening, closing, count, behind, List.take_left]

/-- On a line that is not longer than `2 ^ 32 - 2` characters no other quotes count. -/
theorem short_of_encloses (few : line.text.length < 2 ^ 32 - 1) (encloses : Encloses line.text line.label) :
    line.second < 2 ^ 31 := by
  obtain ⟨opening, closing, ⟨skipped, rest, parts, passed, opens, kept⟩, -⟩ := encloses
  have inside {q : Nat} (member : q ∈ quotes line.text 0) : q < 2 ^ 32 - 1 := by
    have range := (mem_quotes_range member).2
    omega
  have openingInside : opening < 2 ^ 32 - 1 := inside (parts ▸ List.mem_append_right _ List.mem_cons_self)
  have closingInside : closing < 2 ^ 32 - 1 :=
    inside (parts ▸ List.mem_append_right _ (List.mem_cons_of_mem _ List.mem_cons_self))
  rw [quotes_text] at parts
  cases skipped with
  | nil =>
      have second := (List.cons.inj (List.cons.inj parts).2).1
      omega
  | cons other skipped =>
      -- A skipped first quote is already too far to the right for the next ones to count.
      obtain ⟨first, others⟩ := List.cons.inj parts
      have wide := passed other List.mem_cons_self
      have later : opening ∈ line.second :: quotes line.after (line.second + 1) :=
        others ▸ List.mem_append_right _ List.mem_cons_self
      have order : line.before.length + 1 ≤ line.second := Nat.le_add_right _ _
      rcases List.mem_cons.mp later with same | member
      · omega
      · have range := (mem_quotes_range member).1
        omega

end LabelLine

end VisionServer.Inference
