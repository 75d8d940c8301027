/-
This file decides when the object labels of a model come back from their file.
-/

import VisionServer.Inference.Labels

namespace VisionServer.Inference
open Library

/-- The second quote has an `int32_t` position, or the line is so long that quotes enclose the label once more
modulo `2 ^ 32`. -/
def LabelLine.Readable (line : LabelLine) : Prop :=
  line.second < 2 ^ 31 ∨ 2 ^ 32 - 1 ≤ line.text.length ∧ Encloses line.text line.label

theorem LabelLine.labelOf_text_iff {line : LabelLine} : labelOf line.text = some line.label ↔ line.Readable := by
  rw [labelOf_eq_some_iff]
  constructor
  · intro encloses
    by_cases few : line.text.length < 2 ^ 32 - 1
    · exact Or.inl (short_of_encloses few encloses)
    · exact Or.inr ⟨Nat.le_of_not_lt few, encloses⟩
  · rintro (short | long)
    · exact encloses_of_short short
    · exact long.2

/-- Any other line of the format has fewer than two quotes. -/
structure QuietLine where
  text : List Char
  few : text.count '"' < 2
  single : '\n' ∉ text

inductive BodyLine where
  | label (line : LabelLine)
  | quiet (line : QuietLine)

namespace BodyLine

def text : BodyLine → List Char
  | .label line => line.text
  | .quiet line => line.text

def label? : BodyLine → Option (List Char)
  | .label line => some line.label
  | .quiet _ => none

theorem single (line : BodyLine) : '\n' ∉ line.text := by
  cases line with
  | label line =>
      have parts := line.single
      simp only [List.mem_append, not_or] at parts
      simp [text, LabelLine.text, parts]
  | quiet line => exact line.single

end BodyLine

/-- Below the line `item {`, every label is on a line of its own. -/
structure ItemFile where
  body : List BodyLine
  final : Bool

def ItemFile.text (file : ItemFile) : List Char := writeLines file.final (itemLine :: file.body.map BodyLine.text)

def ItemFile.labels (file : ItemFile) : List (List Char) := file.body.filterMap BodyLine.label?

/-- Every line is a label, and the last one has characters or a newline. -/
structure PlainFile where
  first : List Char
  others : List (List Char)
  final : Bool
  plain : first ≠ itemLine
  single : ∀ line ∈ first :: others, '\n' ∉ line
  written : final = true ∨ (first :: others).getLast? ≠ some []

def PlainFile.lines (file : PlainFile) : List (List Char) := file.first :: file.others

def PlainFile.text (file : PlainFile) : List Char := writeLines file.final file.lines

theorem labelOf_quiet (line : QuietLine) : labelOf (BodyLine.quiet line).text = none := labelOf_of_few line.few

theorem length_filterMap_labelOf_le (body : List BodyLine) :
    ((body.map BodyLine.text).filterMap labelOf).length ≤ (body.filterMap BodyLine.label?).length := by
  induction body with
  | nil => exact le_rfl
  | cons line body inductionHypothesis =>
      rw [List.map_cons]
      cases line with
      | quiet line =>
          rw [List.filterMap_cons_none (labelOf_quiet line), List.filterMap_cons_none rfl]
          exact inductionHypothesis
      | label line =>
          rw [List.filterMap_cons_some (rfl : BodyLine.label? (.label line) = some line.label), List.length_cons,
            List.filterMap_cons]
          split
          · exact Nat.le_succ_of_le inductionHypothesis
          · exact Nat.succ_le_succ inductionHypothesis

/-- The lines give the labels if and only if each line gives its own. -/
theorem filterMap_labelOf_iff (body : List BodyLine) :
    (body.map BodyLine.text).filterMap labelOf = body.filterMap BodyLine.label? ↔
      ∀ line, BodyLine.label line ∈ body → line.Readable := by
  induction body with
  | nil => exact iff_of_true rfl fun _ member => absurd member List.not_mem_nil
  | cons line body inductionHypothesis =>
      rw [List.map_cons]
      cases line with
      | quiet line =>
          rw [List.filterMap_cons_none (labelOf_quiet line), List.filterMap_cons_none rfl,
            inductionHypothesis]
          simp only [List.mem_cons, reduceCtorEq, false_or]
      | label line =>
          rw [List.filterMap_cons_some (rfl : BodyLine.label? (.label line) = some line.label)]
          have own : labelOf line.text = some line.label ↔ line.Readable := LabelLine.labelOf_text_iff
          have split : (∀ other, BodyLine.label other ∈ BodyLine.label line :: body → other.Readable) ↔
              line.Readable ∧ ∀ other, BodyLine.label other ∈ body → other.Readable := by
            simp only [List.mem_cons, BodyLine.label.injEq, forall_eq_or_imp]
          rw [split, ← own, ← inductionHypothesis]
          cases found : labelOf (BodyLine.label line).text with
          | none =>
              have absent : labelOf line.text = none := found
              have few := length_filterMap_labelOf_le body
              rw [List.filterMap_cons_none found, absent]
              refine iff_of_false (fun same => ?_) fun both => absurd both.1.symm (Option.some_ne_none _)
              have lengths := congrArg List.length same
              rw [List.length_cons] at lengths
              omega
          | some label =>
              have added : labelOf line.text = some label := found
              rw [List.filterMap_cons_some found, List.cons.injEq, added, Option.some.injEq]

theorem loadObjectLabels_item (file : ItemFile) (objs : List (List Char)) :
    loadObjectLabels file.text objs = some ((file.body.map BodyLine.text).filterMap labelOf) := by
  have single : ∀ line ∈ itemLine :: file.body.map BodyLine.text, '\n' ∉ line := by
    intro line member
    rcases List.mem_cons.mp member with rfl | inside
    · decide
    · obtain ⟨bodyLine, -, rfl⟩ := List.mem_map.mp inside
      exact bodyLine.single
  obtain ⟨tail, read, last⟩ := @readLines_writeLines_cons file.final _ _ (by decide) single
  have same : tail.filterMap labelOf = (file.body.map BodyLine.text).filterMap labelOf := by
    rcases last with rfl | parts
    · rfl
    · rw [parts, List.filterMap_append, List.filterMap_cons_none (labelOf_of_few (by decide)), List.filterMap_nil,
        List.append_nil]
  simp only [loadObjectLabels, ItemFile.text, read, List.headD_cons, List.tail_cons, if_true]
  rw [foldlM_addLabel, List.nil_append, same]

theorem foldl_push (lines objs : List (List Char)) :
    lines.foldl (fun objs line => objs ++ [line]) objs = objs ++ lines := by
  induction lines generalizing objs with
  | nil => exact (List.append_nil objs).symm
  | cons line lines inductionHypothesis =>
      rw [List.foldl_cons, inductionHypothesis, List.append_assoc, List.singleton_append]

/-- A plain file gives its lines back. -/
theorem loadObjectLabels_plain (file : PlainFile) (objs : List (List Char)) :
    loadObjectLabels file.text objs = some file.lines := by
  have read : readLines file.text = file.lines := readLines_writeLines file.single file.written
  simp only [loadObjectLabels, read, PlainFile.lines, List.headD_cons, List.tail_cons, if_neg file.plain]
  rw [foldl_push]
  rfl

/-- Both formats come back, the one with quotes if and only if the positions of the quotes are in range or wrap
around to the label. -/
theorem loadsLabels_iff_readable (file : ItemFile) (plain : PlainFile) (objs : List (List Char)) :
    (loadObjectLabels file.text objs = some file.labels ↔
      ∀ line, BodyLine.label line ∈ file.body → line.Readable) ∧
    loadObjectLabels plain.text objs = some plain.lines := by
  refine ⟨?_, loadObjectLabels_plain plain objs⟩
  rw [loadObjectLabels_item, Option.some.injEq]
  exact filterMap_labelOf_iff file.body

/-- The quotes around the label `a` are behind blanks. -/
def indentedLabel (blanks : Nat) : LabelLine where
  before := List.replicate blanks ' '
  label := ['a']
  after := []
  opened := fun member => absurd (List.eq_of_mem_replicate member) (by decide)
  closed := by decide
  single := by
    simp only [List.mem_append, not_or]
    exact ⟨⟨fun member => absurd (List.eq_of_mem_replicate member) (by decide), by decide⟩, List.not_mem_nil⟩

theorem indentedLabel_not_readable {blanks : Nat} (far : blanks = 2 ^ 31) : ¬(indentedLabel blanks).Readable := by
  have length : (indentedLabel blanks).before.length = blanks := List.length_replicate
  rintro (short | long)
  · have second : (indentedLabel blanks).second = (indentedLabel blanks).before.length + 1 + 1 := rfl
    omega
  · have whole : (indentedLabel blanks).text.length = (indentedLabel blanks).before.length + 3 := by
      rw [LabelLine.text, List.length_append]
      rfl
    omega

/-- The only line of this file has its label far to the right. -/
def farLabel : ItemFile where
  body := [.label (indentedLabel (2 ^ 31))]
  final := true

/-- The label is lost. -/
theorem farLabel_not_loaded : farLabel.labels ≠ [] ∧
    loadObjectLabels farLabel.text [] ≠ some farLabel.labels := by
  constructor
  · exact List.cons_ne_nil _ _
  · intro loaded
    rw [loadObjectLabels_item, Option.some.injEq] at loaded
    exact indentedLabel_not_readable rfl ((filterMap_labelOf_iff _).mp loaded _ List.mem_cons_self)

end VisionServer.Inference
