/-
This file gives the lines of a text as calls of `std::getline` read them.
-/

import Mathlib.Data.List.Basic

namespace VisionServer.Library

/-- Each call takes the characters up to a newline or to the end, and the last one fails at the end. -/
def readLines : List Char → List (List Char)
  | [] => []
  | c :: rest =>
      if c = '\n' then [] :: readLines rest
      else
        match readLines rest with
        | [] => [[c]]
        | line :: lines => (c :: line) :: lines

/-- Lines are written one behind the other, with or without a newline behind the last one. -/
def writeLines (final : Bool) : List (List Char) → List Char
  | [] => []
  | [line] => if final then line ++ ['\n'] else line
  | line :: next :: lines => line ++ '\n' :: writeLines final (next :: lines)

@[simp] theorem readLines_nil : readLines [] = [] := rfl

theorem readLines_cons {c : Char} (other : c ≠ '\n') {rest line : List Char} {lines : List (List Char)}
    (read : readLines rest = line :: lines) : readLines (c :: rest) = (c :: line) :: lines := by
  rw [readLines, if_neg other, read]

/-- A line ends at its newline. -/
theorem readLines_append {line : List Char} (single : '\n' ∉ line) (rest : List Char) :
    readLines (line ++ '\n' :: rest) = line :: readLines rest := by
  induction line with
  | nil => rfl
  | cons c line inductionHypothesis =>
      have parts := List.ne_and_not_mem_of_not_mem_cons single
      exact readLines_cons (Ne.symm parts.1) (inductionHypothesis parts.2)

/-- A last line without a newline is a line unless it is empty. -/
theorem readLines_last {c : Char} {line : List Char} (single : '\n' ∉ c :: line) :
    readLines (c :: line) = [c :: line] := by
  induction line generalizing c with
  | nil => rw [readLines, if_neg (Ne.symm (List.ne_and_not_mem_of_not_mem_cons single).1), readLines_nil]
  | cons next line inductionHypothesis =>
      have parts := List.ne_and_not_mem_of_not_mem_cons single
      exact readLines_cons (Ne.symm parts.1) (inductionHypothesis parts.2)

/-- Reading gives the written lines back, except an empty last line without a newline. -/
theorem readLines_writeLines {final : Bool} {lines : List (List Char)} (single : ∀ line ∈ lines, '\n' ∉ line)
    (written : final = true ∨ lines.getLast? ≠ some []) : readLines (writeLines final lines) = lines := by
  induction lines with
  | nil => rfl
  | cons line lines inductionHypothesis =>
      obtain ⟨first, others⟩ := List.forall_mem_cons.mp single
      cases lines with
      | nil =>
          cases final with
          | true => exact readLines_append first []
          | false =>
              cases line with
              | nil => exact absurd (written.resolve_left Bool.false_ne_true) fun other => other rfl
              | cons c line => exact readLines_last first
      | cons next lines =>
          rw [List.getLast?_cons_cons] at written
          rw [writeLines, readLines_append first, inductionHypothesis others written]

/-- Without the newline behind it an empty last line is lost, and nothing else. -/
theorem readLines_writeLines_concat {lines : List (List Char)} (single : ∀ line ∈ lines, '\n' ∉ line) :
    readLines (writeLines false (lines ++ [[]])) = lines := by
  induction lines with
  | nil => rfl
  | cons line lines inductionHypothesis =>
      obtain ⟨first, others⟩ := List.forall_mem_cons.mp single
      have tail := inductionHypothesis others
      cases lines with
      | nil => exact readLines_append first []
      | cons next lines =>
          rw [List.cons_append, List.cons_append, writeLines, readLines_append first, ← List.cons_append, tail]

/-- Behind a first line that is not empty the lines come back, except an empty one at the end. -/
theorem readLines_writeLines_cons {final : Bool} {line : List Char} {lines : List (List Char)} (some : line ≠ [])
    (single : ∀ other ∈ line :: lines, '\n' ∉ other) : ∃ tail,
      readLines (writeLines final (line :: lines)) = line :: tail ∧ (lines = tail ∨ lines = tail ++ [[]]) := by
  by_cases written : final = true ∨ (line :: lines).getLast? ≠ Option.some []
  · exact ⟨lines, readLines_writeLines single written, Or.inl rfl⟩
  · obtain ⟨unfinished, last⟩ := not_or.mp written
    obtain ⟨before, parts⟩ := List.getLast?_eq_some_iff.mp (not_not.mp last)
    cases before with
    | nil => exact absurd (List.cons.inj parts).1 some
    | cons first tail =>
        obtain ⟨rfl, rest⟩ := List.cons.inj parts
        have kept (other : List Char) (member : other ∈ line :: tail) : '\n' ∉ other :=
          single other (parts ▸ List.mem_append_left _ member)
        refine ⟨tail, ?_, Or.inr rest⟩
        rw [parts, eq_false_of_ne_true unfinished]
        exact readLines_writeLines_concat kept

end VisionServer.Library
