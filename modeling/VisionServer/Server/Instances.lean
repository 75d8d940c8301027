/-
This file models whole calls of the run functions and decides which histories keep their contract.
-/

import VisionServer.Server.RunControl

namespace VisionServer.Server.Instances
open Library
open RunControl (Mode)

/-- The thread `head` is not joinable, or it has returned already, or it loops. -/
inductive Head where
  | none
  | ended
  | active (mode : Mode)
deriving DecidableEq

/-- A client that called a blocking run function executes its loop. No pipeline is added or removed
between the calls. -/
structure RunState where
  pipelines : Nat
  isRunning : Bool
  head : Head
  clients : Nat → Option Mode

namespace RunState

def joinable (s : RunState) : Bool := s.head ≠ .none

/-- The processing runs need a pipeline. -/
def Passes (s : RunState) (mode : Mode) : Prop := mode = .runRaw ∨ 0 < s.pipelines

instance (s : RunState) (mode : Mode) : Decidable (s.Passes mode) :=
  inferInstanceAs (Decidable (_ ∨ _))

/-- These are `run`, `runSingle` and `runRaw`. The caller loops, or the call returns at once. -/
def run (n : Nat) (mode : Mode) (s : RunState) : RunState :=
  if s.isRunning = false ∧ s.Passes mode then
    { s with isRunning := true, clients := Function.update s.clients n (some mode) }
  else s

/-- The new thread executes a run function, which loops or returns at once. -/
def spawnHead (mode : Mode) (s : RunState) : RunState :=
  if s.Passes mode then { s with isRunning := true, head := .active mode } else { s with head := .ended }

/-- These are `runThread`, `runSingleThread` and `runRawThread`. -/
def runThread (mode : Mode) (s : RunState) : Bool × RunState :=
  if s.isRunning = false ∧ s.joinable = false then (true, s.spawnHead mode) else (false, s)

/-- The join waits until `head` has left its loop. -/
def stop (s : RunState) : Bool × RunState :=
  let s := { s with isRunning := false }
  if s.joinable then (true, { s with head := .none }) else (false, s)

/-- A loop on the thread of a client leaves after it reads the flag as false. -/
def leave (n : Nat) (s : RunState) : RunState :=
  { s with clients := Function.update s.clients n none }

/-- Some instance on the thread of a client loops. -/
def ClientActive (s : RunState) : Prop := ∃ n mode, s.clients n = some mode

def HeadActive (s : RunState) : Prop := ∃ mode, s.head = .active mode

/-- A processing or raw instance loops. -/
def Active (s : RunState) : Prop := s.ClientActive ∨ s.HeadActive

/-- An instance of `runRaw` loops. -/
def RawActive (s : RunState) : Prop := (∃ n, s.clients n = some .runRaw) ∨ s.head = .active .runRaw

/-- An instance of `run` or `runSingle` loops. -/
def ProcessingActive (s : RunState) : Prop :=
  ∃ mode, mode ≠ .runRaw ∧ ((∃ n, s.clients n = some mode) ∨ s.head = .active mode)

end RunState

/-- A client that executes no loop calls a function, and a loop leaves. -/
inductive Label where
  | run (n : Nat) (mode : Mode)
  | runThread (n : Nat) (mode : Mode)
  | stop (n : Nat)
  | leave (n : Nat)

def step (s : RunState) : Label → Option RunState
  | .run n mode => if s.clients n = none then some (s.run n mode) else none
  | .runThread n mode => if s.clients n = none then some (s.runThread mode).2 else none
  | .stop n => if s.clients n = none then some s.stop.2 else none
  | .leave n => if s.isRunning = false ∧ s.clients n ≠ none then some (s.leave n) else none

def machine : Machine RunState Label := ⟨step⟩

/-- No function was called yet. -/
def initial (pipelines : Nat) : RunState := ⟨pipelines, false, .none, fun _ => none⟩

/-- A processing run that is started ends the raw instances. -/
def EndsRaw (mode : Mode) (s next : RunState) : Prop :=
  mode ≠ .runRaw → s.RawActive → ¬ next.RawActive ∧ next.ProcessingActive

/-- The documented contract of the calls. -/
def Contract (s : RunState) (label : Label) (next : RunState) : Prop :=
  match label with
  | .stop _ => (s.stop.1 = true ↔ s.Active) ∧ ¬ next.Active
  | .runThread _ mode =>
      ((s.runThread mode).1 = true ↔ ¬ s.HeadActive ∧ next.HeadActive) ∧ EndsRaw mode s next
  | .run _ mode => EndsRaw mode s next
  | .leave _ => True

/-- A stop request finds no loop on the thread of a client and no `head` that has returned. A thread
variant of a processing run is refused or finds a pipeline. No processing run is started while a raw
instance loops. -/
def Coherent (s : RunState) : Label → Prop
  | .stop _ => ¬ s.ClientActive ∧ s.head ≠ .ended
  | .runThread _ mode =>
      (s.isRunning = true ∨ s.head ≠ .none ∨ s.Passes mode) ∧ (mode ≠ .runRaw → ¬ s.RawActive)
  | .run _ mode => mode ≠ .runRaw → ¬ s.RawActive
  | .leave _ => True

/-- A call that keeps the raw instances meets the contract only when there are none. -/
theorem endsRaw_iff {s next : RunState} (kept : s.RawActive → next.RawActive) (mode : Mode) :
    EndsRaw mode s next ↔ (mode ≠ .runRaw → ¬ s.RawActive) := by
  constructor
  · intro ends processing raw
    exact (ends processing raw).1 (kept raw)
  · intro absent processing raw
    exact absurd raw (absent processing)

/-- A blocking run ends no raw instance. -/
theorem run_rawActive {s : RunState} {n : Nat} (free : s.clients n = none) (mode : Mode)
    (raw : s.RawActive) : (s.run n mode).RawActive := by
  unfold RunState.run
  split
  · rcases raw with ⟨other, loops⟩ | looping
    · have different : other ≠ n := fun same => by
        rw [same, free] at loops
        cases loops
      exact Or.inl ⟨other, (Function.update_of_ne different ..).trans loops⟩
    · exact Or.inr looping
  · exact raw

/-- A thread variant ends no raw instance. -/
theorem runThread_rawActive {s : RunState} (mode : Mode) (raw : s.RawActive) :
    (s.runThread mode).2.RawActive := by
  unfold RunState.runThread
  split
  · rename_i free
    rcases raw with loops | looping
    · unfold RunState.spawnHead
      split <;> exact Or.inl loops
    · have impossible := free.2
      rw [RunState.joinable, looping] at impossible
      exact absurd impossible (by decide)
  · exact raw

theorem joinable_iff (s : RunState) : s.joinable = true ↔ s.head ≠ .none := decide_eq_true_iff

/-- A joinable thread has returned or loops. -/
theorem headActive_iff (s : RunState) : s.HeadActive ↔ s.head ≠ .none ∧ s.head ≠ .ended := by
  unfold RunState.HeadActive
  cases s.head <;> simp

/-- A stop request answers whether there was a thread to join. -/
theorem stop_answer (s : RunState) : s.stop.1 = true ↔ s.head ≠ .none := by
  rw [← joinable_iff]
  unfold RunState.stop
  dsimp only
  change (if s.joinable = true then (true, _) else (false, _)).1 = true ↔ s.joinable = true
  split <;> simp_all

/-- After a stop request the flag is false and there is no thread to join. -/
theorem stop_state (s : RunState) : s.stop.2 = { s with isRunning := false, head := .none } := by
  unfold RunState.stop
  dsimp only
  split
  · rfl
  · rename_i refused
    have absent : s.head = .none := not_not.mp fun present => refused ((joinable_iff s).mpr present)
    simp only [absent]

/-- A stop request tells the truth exactly when nothing but an active `head` can be looping. -/
theorem stop_contract_iff (s : RunState) :
    ((s.stop.1 = true ↔ s.Active) ∧ ¬ s.stop.2.Active) ↔ ¬ s.ClientActive ∧ s.head ≠ .ended := by
  have left : s.stop.2.Active ↔ s.ClientActive := by
    rw [stop_state, RunState.Active, headActive_iff]
    exact or_iff_left fun looping => looping.1 rfl
  rw [stop_answer, left, RunState.Active, headActive_iff]
  by_cases blocking : s.ClientActive
  · exact iff_of_false (fun given => given.2 blocking) fun given => given.1 blocking
  · simp only [blocking, false_or, not_false_eq_true, and_true, true_and]
    constructor
    · intro truth returned
      exact (truth.mp (by simp [returned])).2 returned
    · intro alive
      exact ⟨fun present => ⟨present, alive⟩, fun looping => looping.1⟩

/-- A thread variant that is not refused answers the truth exactly when its run passes its guard. -/
theorem runThread_answer_iff (s : RunState) (mode : Mode) :
    ((s.runThread mode).1 = true ↔ ¬ s.HeadActive ∧ (s.runThread mode).2.HeadActive) ↔
      s.isRunning = true ∨ s.head ≠ .none ∨ s.Passes mode := by
  by_cases free : s.isRunning = false ∧ s.joinable = false
  · have absent : s.head = .none :=
      not_not.mp fun present => absurd ((joinable_iff s).mpr present) (by simp [free.2])
    have quiet : ¬ s.HeadActive := by
      rw [headActive_iff]
      exact fun looping => looping.1 absent
    rw [RunState.runThread, if_pos free]
    simp only [free.1, absent, quiet, not_false_eq_true, true_and, true_iff, Bool.false_eq_true,
      ne_eq, not_true_eq_false, false_or]
    by_cases passes : s.Passes mode
    · rw [RunState.spawnHead, if_pos passes]
      exact iff_of_true ⟨mode, rfl⟩ passes
    · rw [RunState.spawnHead, if_neg passes, headActive_iff]
      exact iff_of_false (fun looping => looping.2 rfl) passes
  · rw [RunState.runThread, if_neg free]
    refine iff_of_true (iff_of_false Bool.false_ne_true fun made => made.1 made.2) ?_
    by_cases running : s.isRunning = true
    · exact Or.inl running
    · have present : s.joinable = true :=
        eq_true_of_ne_false fun absent => free ⟨eq_false_of_ne_true running, absent⟩
      exact Or.inr (Or.inl ((joinable_iff s).mp present))

/-- A step meets the contract exactly when the flag, `head` and the loops agree. -/
theorem step_contract_iff {s next : RunState} {label : Label} (taken : step s label = some next) :
    Contract s label next ↔ Coherent s label := by
  cases label with
  | run n mode =>
      obtain ⟨free, shape⟩ := Option.ite_none_right_eq_some.mp taken
      rw [← Option.some.inj shape]
      exact endsRaw_iff (run_rawActive free mode) mode
  | runThread n mode =>
      obtain ⟨_, shape⟩ := Option.ite_none_right_eq_some.mp taken
      rw [← Option.some.inj shape]
      exact and_congr (runThread_answer_iff s mode) (endsRaw_iff (runThread_rawActive mode) mode)
  | stop n =>
      obtain ⟨_, shape⟩ := Option.ite_none_right_eq_some.mp taken
      rw [← Option.some.inj shape]
      exact stop_contract_iff s
  | leave n => exact Iff.rfl

/-- Every call of a history meets the contract exactly when the flag, `head` and the loops agree
before each of them. -/
theorem contract_iff_coherent (pipelines : Nat) (labels : List Label) :
    machine.Along Contract (initial pipelines) labels ↔
      machine.Meets Coherent (initial pipelines) labels := by
  have exact_step (s : RunState) (label : Label) (next : RunState) (_ : True)
      (taken : machine.step s label = some next) : Contract s label next ↔ Coherent s label :=
    step_contract_iff taken
  exact machine.along_iff_meets (fun _ _ _ _ _ _ => trivial) exact_step trivial labels

/-- A client blocks in `run`, and the stop request of another client returns false. -/
theorem blockingRun_not_contract :
    ¬ machine.Along Contract (initial 1) [.run 0 .run, .stop 1] := by
  intro along
  have stopped := ((along _ rfl).2 _ rfl).1
  exact absurd (stopped.1.mpr (Or.inl ⟨0, .run, rfl⟩)) (by decide)

end VisionServer.Server.Instances
