/-
This file models how the loops of the pipelines wait for their next frame and decides when they keep to `Max FPS`.
-/

import VisionServer.Library.Quotients

namespace VisionServer.Server.Pacing
open Library

/-- An iteration reads `Max FPS`, which holds no number where it is missing or of another type. The clock counts
nanoseconds in a signed integer of 64 bits, and a sleep takes longer than it has to. -/
structure Frame where
  maxFPS : Option Floating
  elapsed : Nat
  late : Nat
  counted : elapsed < 2 ^ 63

/-- The quotient is a `double`, and the conversion to `uint64_t` has the range of the one to `size_t`. -/
def maxNanos (fpsCap : Floating) : Option Nat := (binary64.divide (.finite 1000000000) fpsCap).toSizeT

/-- The nanoseconds become a signed integer, from which the time behind the beginning of the iteration is
subtracted. -/
def remaining (nanos : Nat) (frame : Frame) : Int := (nanos : Int).bmod (2 ^ 64) - frame.elapsed

/-- This is the time from the beginning of an iteration to the next one. A subtraction that overflows is undefined, and
a sleep that is not positive returns at once. -/
def sleepFor (nanos : Nat) (frame : Frame) : Option Nat :=
  if -2 ^ 63 ≤ remaining nanos frame then some (frame.elapsed + (remaining nanos frame).toNat + frame.late) else none

/-- The last `Max FPS` remains where no number is read, and a `float` holds it. -/
def readCap (fpsCap : Floating) (maxFPS : Option Floating) : Floating := binary32.convert (maxFPS.getD fpsCap)

structure Loop where
  fpsCap : Floating
  begFrame : Nat

/-- This is the part of an iteration of `pipelineRunner` and of `runSingle` behind the frame. -/
def Loop.iterate (loop : Loop) (frame : Frame) : Option Loop := do
  let fpsCap := readCap loop.fpsCap frame.maxFPS
  let nanos ← maxNanos fpsCap
  return ⟨fpsCap, loop.begFrame + (← sleepFor nanos frame)⟩

/-- These are the values of `fps_cap` that a loop uses. -/
def caps (fpsCap : Floating) : List (Option Floating) → List Floating
  | [] => []
  | entry :: entries => readCap fpsCap entry :: caps (readCap fpsCap entry) entries

/-- Each iteration is defined, and the next one does not begin before its time. -/
def Loop.Keeps (loop : Loop) : List Frame → Prop
  | [] => True
  | frame :: frames => ∃ next nanos, loop.iterate frame = some next ∧ maxNanos next.fpsCap = some nanos ∧
      loop.begFrame + nanos ≤ next.begFrame ∧ next.Keeps frames

/-- The nanoseconds of these numbers of frames fit into a signed integer. Those of a negative number are only defined
where they are truncated to zero. -/
def Bounded : Floating → Prop
  | .finite cap => 1000000000 < cap * (2 ^ 63 - 2 ^ 9) ∨ cap < 0 ∧ 1000000000 < -cap * (1 - 1 / 2 ^ 54)
  | .infinite _ => True
  | .nan => False

theorem bounded_finite {cap : ℚ} : Bounded (.finite cap) ↔
    1000000000 < cap * (2 ^ 63 - 2 ^ 9) ∨ cap < 0 ∧ 1000000000 < -cap * (1 - 1 / 2 ^ 54) := Iff.rfl

section Times

variable {cap : ℚ} {nanos : Nat} {frame : Frame}

theorem maxNanos_of_pos (positive : 0 < cap) : maxNanos (.finite cap) =
    if binary64.round (1000000000 / cap) < 2 ^ 64 then some ⌊binary64.round (1000000000 / cap)⌋.toNat else none := by
  rw [maxNanos, FloatFormat.divide, if_neg positive.ne']
  exact toSizeT_store (by decide) (by positivity)

theorem maxNanos_of_neg (negative : cap < 0) : maxNanos (.finite cap) =
    if binary64.round (1000000000 / -cap) < 1 then some 0 else none := by
  rw [maxNanos, FloatFormat.divide, if_neg negative.ne]
  have opposite : 1000000000 / cap = -(1000000000 / -cap) := by rw [div_neg, neg_neg]
  rw [opposite]
  exact toSizeT_store_neg (by decide) (div_nonneg (by norm_num) (by linarith))

theorem round_lt_one_iff {value : ℚ} (nonneg : 0 ≤ value) : binary64.round value < 1 ↔ value < 1 - 1 / 2 ^ 54 := by
  have bound := @FloatFormat.round_lt_iff binary64 value 0 (by decide) (by decide) nonneg
  norm_num [binary64] at bound ⊢
  exact bound

theorem round_lt_signed_iff {value : ℚ} (nonneg : 0 ≤ value) :
    binary64.round value < 2 ^ 63 ↔ value < 2 ^ 63 - 2 ^ 9 := by
  have bound := @FloatFormat.round_lt_iff binary64 value 63 (by decide) (by decide) nonneg
  norm_num [binary64] at bound ⊢
  exact bound

/-- The time is a signed number if and only if the number of frames is bounded. -/
theorem exists_maxNanos_iff (fpsCap : Floating) :
    (∃ nanos < 2 ^ 63, maxNanos fpsCap = some nanos) ↔ Bounded fpsCap := by
  cases fpsCap with
  | infinite negative => exact iff_of_true ⟨0, by decide, rfl⟩ trivial
  | nan => exact iff_of_false (by rintro ⟨_, _, found⟩; cases found) id
  | finite cap =>
      rw [bounded_finite]
      rcases lt_trichotomy cap 0 with negative | rfl | positive
      · have nonneg : 0 ≤ 1000000000 / -cap := div_nonneg (by norm_num) (by linarith)
        have first : ¬1000000000 < cap * (2 ^ 63 - 2 ^ 9) := by linarith
        rw [or_iff_right first, and_iff_right negative, mul_comm, ← div_lt_iff₀ (neg_pos.mpr negative),
          ← round_lt_one_iff nonneg, maxNanos_of_neg negative]
        constructor
        · intro ⟨nanos, _, found⟩
          by_contra beyond
          rw [if_neg beyond] at found
          cases found
        · intro near
          exact ⟨0, by decide, if_pos near⟩
      · exact iff_of_false (by rintro ⟨_, _, found⟩; cases found) (by norm_num)
      · have nonneg : 0 ≤ 1000000000 / cap := by positivity
        have rounded := @FloatFormat.round_nonneg binary64 _ nonneg
        rw [or_iff_left (fun other => absurd other.1 (not_lt.mpr positive.le)), mul_comm, ← div_lt_iff₀ positive,
          ← round_lt_signed_iff nonneg, maxNanos_of_pos positive]
        constructor
        · intro ⟨nanos, small, found⟩
          split at found
          · cases found
            rw [Int.toNat_lt (Int.floor_nonneg.mpr rounded), Int.floor_lt] at small
            exact_mod_cast small
          · cases found
        · intro small
          refine ⟨_, ?_, if_pos (small.trans (by norm_num))⟩
          rw [Int.toNat_lt (Int.floor_nonneg.mpr rounded), Int.floor_lt]
          exact_mod_cast small

theorem maxNanos_lt {fpsCap : Floating} (found : maxNanos fpsCap = some nanos) : nanos < 2 ^ 64 := by
  unfold maxNanos at found
  exact toSizeT_lt found

/-- A sleep of a signed time ends behind it. -/
theorem exists_sleepFor (small : nanos < 2 ^ 63) (frame : Frame) :
    ∃ rest, sleepFor nanos frame = some rest ∧ nanos ≤ rest := by
  have counted := frame.counted
  have signed : remaining nanos frame = (nanos : Int) - frame.elapsed := by
    unfold remaining
    rw [Int.bmod_eq_of_le_mul_two (by omega) (by omega)]
  have range : -2 ^ 63 ≤ remaining nanos frame := by omega
  exact ⟨_, if_pos range, by omega⟩

/-- Nothing is done and nothing is late in this iteration. -/
def prompt (maxFPS : Option Floating) : Frame where
  maxFPS := maxFPS
  elapsed := 0
  late := 0
  counted := by decide

/-- A greater time becomes a negative one. -/
theorem sleepFor_prompt (large : 2 ^ 63 ≤ nanos) (range : nanos < 2 ^ 64) (maxFPS : Option Floating) :
    sleepFor nanos (prompt maxFPS) = some 0 := by
  have signed : remaining nanos (prompt maxFPS) = (nanos : Int) - 2 ^ 64 := by
    unfold remaining
    rw [Int.bmod_def]
    change _ - ((0 : Nat) : Int) = _
    split <;> omega
  have low : -2 ^ 63 ≤ remaining nanos (prompt maxFPS) := by omega
  have none : (remaining nanos (prompt maxFPS)).toNat = 0 := by omega
  rw [sleepFor, if_pos low, none]
  rfl

end Times

section Runs

variable {loop : Loop}

/-- An iteration keeps to a bounded number of frames. -/
theorem exists_iterate (frame : Frame) (bounded : Bounded (readCap loop.fpsCap frame.maxFPS)) :
    ∃ next nanos, loop.iterate frame = some next ∧ maxNanos next.fpsCap = some nanos ∧
      loop.begFrame + nanos ≤ next.begFrame ∧ next.fpsCap = readCap loop.fpsCap frame.maxFPS := by
  obtain ⟨nanos, small, found⟩ := (exists_maxNanos_iff _).mpr bounded
  obtain ⟨rest, slept, behind⟩ := exists_sleepFor small frame
  refine ⟨⟨_, loop.begFrame + rest⟩, nanos, ?_, found, Nat.add_le_add_left behind _, rfl⟩
  exact Option.bind_eq_some_iff.mpr ⟨nanos, found, Option.bind_eq_some_iff.mpr ⟨rest, slept, rfl⟩⟩

/-- An iteration without any work keeps to no other number of frames. -/
theorem bounded_of_iterate {maxFPS : Option Floating} {next : Loop} {nanos : Nat}
    (iterated : loop.iterate (prompt maxFPS) = some next) (found : maxNanos next.fpsCap = some nanos)
    (behind : loop.begFrame + nanos ≤ next.begFrame) :
    next.fpsCap = readCap loop.fpsCap maxFPS ∧ Bounded (readCap loop.fpsCap maxFPS) := by
  obtain ⟨time, same, iterated⟩ := Option.bind_eq_some_iff.mp iterated
  obtain ⟨rest, slept, done⟩ := Option.bind_eq_some_iff.mp iterated
  cases done
  cases same.symm.trans found
  refine ⟨rfl, (exists_maxNanos_iff _).mp ⟨nanos, ?_, same⟩⟩
  by_contra large
  rw [sleepFor_prompt (not_lt.mp large) (maxNanos_lt same)] at slept
  cases slept
  have still : loop.begFrame + nanos ≤ loop.begFrame + 0 := behind
  omega

/-- A loop keeps to `Max FPS` whatever its frames cost, if and only if each number of frames is bounded. -/
theorem keeps_iff (loop : Loop) (entries : List (Option Floating)) :
    (∀ frames : List Frame, frames.map Frame.maxFPS = entries → loop.Keeps frames) ↔
      ∀ fpsCap ∈ caps loop.fpsCap entries, Bounded fpsCap := by
  induction entries generalizing loop with
  | nil =>
      refine iff_of_true (fun frames none => ?_) (by simp [caps])
      rw [List.map_eq_nil_iff.mp none]
      trivial
  | cons entry entries inductionHypothesis =>
      rw [caps, List.forall_mem_cons]
      constructor
      · intro keeps
        have quick := keeps (prompt entry :: entries.map prompt) (by simp [prompt, Function.comp_def])
        obtain ⟨next, nanos, iterated, found, behind, _⟩ := quick
        obtain ⟨same, bounded⟩ := bounded_of_iterate iterated found behind
        refine ⟨bounded, same ▸ (inductionHypothesis next).mp fun frames given => ?_⟩
        obtain ⟨other, _, again, _, _, rest⟩ := keeps (prompt entry :: frames) (by rw [List.map_cons, given]; rfl)
        cases iterated.symm.trans again
        exact rest
      · intro ⟨bounded, rest⟩ frames given
        obtain ⟨frame, others, rfl, rfl, tail⟩ := List.map_eq_cons_iff.mp given
        obtain ⟨next, nanos, iterated, found, behind, same⟩ := exists_iterate frame bounded
        exact ⟨next, nanos, iterated, found, behind, (inductionHypothesis next).mpr (same ▸ rest) others tail⟩

/-- The time of a tenth of a billionth frame a second is negative as a signed integer, so the loop does not wait. -/
example : ((Loop.mk (.finite 30) 5).iterate (prompt (some (.finite (1 / 10 ^ 10))))).map Loop.begFrame = some 5 := by
  decide +kernel

/-- This is the whole run of a loop. -/
def Loop.run (loop : Loop) (frames : List Frame) : Option Loop := frames.foldlM Loop.iterate loop

/-- A number of frames is at least one and not above another one. -/
def Within (top : ℚ) : Floating → Prop
  | .finite cap => 1 ≤ cap ∧ cap ≤ top
  | _ => False

/-- A loop uses such a number, or an infinite one where a `float` does not hold the greatest one. -/
def Capped (top : ℚ) : Floating → Prop
  | .finite cap => 1 ≤ cap ∧ cap ≤ top
  | .infinite _ => 2 ^ 128 ≤ top
  | .nan => False

variable {top : ℚ} {fpsCap : Floating}

theorem Within.capped (within : Within top fpsCap) : Capped top fpsCap := by
  cases fpsCap with
  | finite cap => exact within
  | infinite => exact within.elim
  | nan => exact within.elim

theorem Capped.bounded (capped : Capped top fpsCap) : Bounded fpsCap := by
  cases fpsCap with
  | infinite => trivial
  | nan => exact capped.elim
  | finite cap =>
      have least := capped.1
      exact Or.inl (by linarith)

/-- The bounds are kept in a `float` when they are numbers of a `float`. -/
theorem Capped.convert (exact : binary32.round top = top) (capped : Capped top fpsCap) :
    Capped top (binary32.convert fpsCap) := by
  cases fpsCap with
  | infinite => exact capped
  | nan => exact capped
  | finite cap =>
      obtain ⟨least, most⟩ := capped
      have positive : 0 ≤ cap := by linarith
      have one : (2 : ℚ) ^ (0 : Int) ≤ binary32.round cap :=
        FloatFormat.pow_le_round (by decide) (by decide) (by simpa using least)
      have below : binary32.round cap ≤ top :=
        (FloatFormat.round_mono (by decide) positive most).trans_eq exact
      have nonneg : 0 ≤ binary32.round cap := FloatFormat.round_nonneg positive
      rw [FloatFormat.convert, FloatFormat.store, abs_of_nonneg nonneg]
      split
      · exact ⟨by simpa using one, below⟩
      · next beyond =>
        have large : (2 : ℚ) ^ (128 : Int) ≤ binary32.round cap := not_lt.mp beyond
        exact (by exact_mod_cast large.trans below : (2 : ℚ) ^ 128 ≤ top)

/-- Fewer frames take a longer time each, and an infinite number of them takes none, as the greatest one does then. -/
theorem exists_maxNanos_of_capped (capped : Capped top fpsCap) :
    ∃ least most, maxNanos (.finite top) = some least ∧ maxNanos fpsCap = some most ∧ least ≤ most := by
  cases fpsCap with
  | nan => exact capped.elim
  | infinite negative =>
      have large : (2 : ℚ) ^ 128 ≤ top := capped
      have positive : 0 < top := by linarith
      have nonneg : 0 ≤ 1000000000 / top := div_nonneg (by norm_num) positive.le
      have less : 1000000000 / top < 1 - 1 / 2 ^ 54 := by
        rw [div_lt_iff₀ positive]
        linarith
      have below : binary64.round (1000000000 / top) < 1 := (round_lt_one_iff nonneg).mpr less
      have none : ⌊binary64.round (1000000000 / top)⌋ = 0 :=
        Int.floor_eq_iff.mpr ⟨by simpa using FloatFormat.round_nonneg nonneg, by simpa using below⟩
      rw [maxNanos_of_pos positive, if_pos (by linarith), none]
      exact ⟨0, 0, rfl, rfl, le_rfl⟩
  | finite cap =>
      obtain ⟨least, most⟩ := capped
      have positive : 0 < cap := by linarith
      have quotients : 1000000000 / top ≤ 1000000000 / cap :=
        div_le_div_of_nonneg_left (by norm_num) positive most
      have nonneg : 0 ≤ 1000000000 / top := div_nonneg (by norm_num) (by linarith)
      have rounded := @FloatFormat.round_mono binary64 _ _ (by decide) nonneg quotients
      have signed : 1000000000 / cap < 2 ^ 63 - 2 ^ 9 := by
        rw [div_lt_iff₀ positive]
        linarith
      have below := (round_lt_signed_iff (nonneg.trans quotients)).mpr signed
      rw [maxNanos_of_pos positive, maxNanos_of_pos (positive.trans_le most), if_pos (by linarith),
        if_pos (by linarith)]
      exact ⟨_, _, rfl, rfl, Int.toNat_le_toNat (Int.floor_mono rounded)⟩

/-- Each frame of a loop with such a number takes its time. -/
theorem exists_run_of_capped {nanos : Nat} (found : maxNanos (.finite top) = some nanos)
    (exact : binary32.round top = top) (frames : List Frame) (loop : Loop) (capped : Capped top loop.fpsCap)
    (written : ∀ frame ∈ frames, ∀ number ∈ frame.maxFPS, Within top number) :
    ∃ final, loop.run frames = some final ∧ loop.begFrame + frames.length * nanos ≤ final.begFrame := by
  induction frames generalizing loop with
  | nil => exact ⟨loop, rfl, by simp⟩
  | cons frame frames inductionHypothesis =>
      obtain ⟨first, later⟩ := List.forall_mem_cons.mp written
      have read : Capped top (readCap loop.fpsCap frame.maxFPS) := by
        refine Capped.convert exact ?_
        cases entry : frame.maxFPS with
        | none => exact capped
        | some number => exact (first number entry).capped
      obtain ⟨next, time, iterated, taken, behind, same⟩ := exists_iterate frame read.bounded
      obtain ⟨least, most, shortest, longer, less⟩ := exists_maxNanos_of_capped read
      cases found.symm.trans shortest
      rw [same, longer] at taken
      cases taken
      obtain ⟨final, rest, last⟩ := inductionHypothesis next (same ▸ read) later
      refine ⟨final, Option.bind_eq_some_iff.mpr ⟨next, iterated, rest⟩, ?_⟩
      rw [List.length_cons, Nat.succ_mul]
      omega

/-- Whatever a client writes between one frame and the greatest number of frames, each frame takes its time. -/
theorem frames_last {nanos : Nat} (found : maxNanos (.finite top) = some nanos) (exact : binary32.round top = top)
    (frames : List Frame) (loop : Loop) (within : Within top loop.fpsCap)
    (written : ∀ frame ∈ frames, ∀ number ∈ frame.maxFPS, Within top number) :
    ∃ final, loop.run frames = some final ∧ loop.begFrame + frames.length * nanos ≤ final.begFrame :=
  exists_run_of_capped found exact frames loop within.capped written

/-- A client asks for one frame a second behind the first of three frames. -/
def slowed : List Frame := [prompt none, prompt (some (.finite 1)), prompt none]

theorem slowed_lasts : ∃ final, Loop.run ⟨.finite 30, 0⟩ slowed = some final ∧ 0 + 3 * 33333333 ≤ final.begFrame := by
  refine @frames_last 30 33333333 (by decide +kernel) (by decide +kernel) slowed ⟨.finite 30, 0⟩ ?_ ?_
  · exact ⟨by norm_num, le_rfl⟩
  · intro frame member number read
    simp only [slowed, List.mem_cons, List.not_mem_nil, or_false] at member
    rcases member with rfl | rfl | rfl
    · cases read
    · cases read
      exact ⟨le_rfl, by norm_num⟩
    · cases read

end Runs

end VisionServer.Server.Pacing
