/-
This file models how the thread of a pipeline selects its source and decides when the selection is
right.
-/

import VisionServer.Server.Registry

namespace VisionServer.Server
open Library

/-- An exception leaves the thread, and a negation that overflows has no defined result. -/
inductive Fault where
  | exception (thrown : CppException)
  | overflow
deriving DecidableEq

/-- The thread of a pipeline remembers the last index that it read. -/
structure Runner where
  idx : Int
  server : Registry

namespace Runner

/-- The thread publishes 1 as its `Source Index`. -/
def start (s : Registry) : Runner := ⟨1, s⟩

/-- The range check negates the address of the function `numPipelines`, since the call has no
parentheses. The result is the change of the source that the iteration makes. -/
def selectSource (address : Nat) (pipe : BasePipe) (n : Int) (s : Runner) :
    Except Fault (Option Sources.Op) :=
  if n ≠ s.idx then
    if n > 0 ∧ n ≤ s.server.numCameras then
      match s.server.cameras[n.toNat - 1]? with
      | none => .error (.exception .outOfRange)
      | some cam => .ok (some (.setCamera pipe cam))
    else if n < 0 then
      if toInt32 address = -2 ^ 31 then .error .overflow
      else if n ≥ -toInt32 address then
        match s.server.pipelines[(-n).toNat - 1]? with
        | none => .error (.exception .outOfRange)
        | some upstream => .ok (some (.setPipeline pipe upstream))
      else .ok none
    else .ok none
  else .ok none

/-- This is a change of one source. -/
def perform (op : Sources.Op) (s : Runner) : Runner :=
  { s with server := { s.server with inputs := Sources.apply s.server.inputs op } }

/-- Every iteration remembers the index that it read. -/
def iterate (address : Nat) (pipe : BasePipe) (n : Int) (s : Runner) : Except Fault Runner :=
  (s.selectSource address pipe n).map fun call =>
    { (call.elim s fun op => s.perform op) with idx := n }

end Runner

/-- The selection step attaches the element that the index names, or nothing. -/
structure Selects (s : Registry) (pipe : BasePipe) (n : Int)
    (result : Except Fault (Option Sources.Op)) : Prop where
  camera : 1 ≤ n → n ≤ s.numCameras →
    ∃ cam, s.cameras[(n - 1).toNat]? = some cam ∧ result = .ok (some (.setCamera pipe cam))
  pipeline : -(s.numPipelines : Int) ≤ n → n ≤ -1 →
    ∃ upstream, s.pipelines[(-n - 1).toNat]? = some upstream ∧
      result = .ok (some (.setPipeline pipe upstream))
  other : ¬ (1 ≤ n ∧ n ≤ s.numCameras) → ¬ (-(s.numPipelines : Int) ≤ n ∧ n ≤ -1) →
    result = .ok none

/-- The index is not negative, or the comparison with the address agrees with the comparison with
the number of pipelines. -/
def Linked (address : Nat) (s : Registry) (n : Int) : Prop :=
  0 ≤ n ∨ toInt32 address ≠ -2 ^ 31 ∧ (-toInt32 address ≤ n ↔ -(s.numPipelines : Int) ≤ n)

/-- An index that is not negative selects a camera or nothing. -/
theorem selectSource_of_nonneg (address : Nat) (pipe : BasePipe) {n : Int} {s : Runner}
    (different : n ≠ s.idx) (nonneg : 0 ≤ n) :
    Selects s.server pipe n (s.selectSource address pipe n) := by
  unfold Runner.selectSource
  rw [if_pos different]
  by_cases camera : n > 0 ∧ n ≤ s.server.numCameras
  · have index : (n - 1).toNat < s.server.cameras.length := by
      have within := camera.2
      simp only [Registry.numCameras] at within
      omega
    have position : n.toNat - 1 = (n - 1).toNat := by omega
    rw [if_pos camera, position, List.getElem?_eq_getElem index]
    refine ⟨fun _ _ => ⟨_, List.getElem?_eq_getElem index, rfl⟩, fun _ _ => by omega, fun none_ _ => ?_⟩
    exact absurd ⟨by omega, camera.2⟩ none_
  · rw [if_neg camera, if_neg (by omega)]
    exact ⟨fun low high => absurd ⟨by omega, high⟩ camera, fun _ _ => by omega, fun _ _ => rfl⟩

/-- For a negative index the right selection is the named pipeline, if there is one. -/
theorem selects_iff_of_neg {s : Registry} {pipe : BasePipe} {n : Int} (negative : n < 0)
    (result : Except Fault (Option Sources.Op)) :
    Selects s pipe n result ↔
      result = .ok ((s.pipelines[(-n - 1).toNat]?).map (.setPipeline pipe)) := by
  by_cases within : -(s.numPipelines : Int) ≤ n
  · have index : (-n - 1).toNat < s.pipelines.length := by
      simp only [Registry.numPipelines] at within
      omega
    have found := List.getElem?_eq_getElem index
    constructor
    · intro selects
      obtain ⟨upstream, named, attached⟩ := selects.pipeline within (by omega)
      rw [attached, named, Option.map_some]
    · intro attached
      rw [found, Option.map_some] at attached
      exact ⟨fun low _ => by omega, fun _ _ => ⟨_, found, attached⟩,
        fun _ outside => absurd ⟨within, by omega⟩ outside⟩
  · have missing : s.pipelines[(-n - 1).toNat]? = none := by
      apply List.getElem?_eq_none
      simp only [Registry.numPipelines] at within
      omega
    rw [missing, Option.map_none]
    exact ⟨fun selects => selects.other (by omega) fun both => within both.1,
      fun kept => ⟨fun low _ => by omega, fun low _ => absurd low within, fun _ _ => kept⟩⟩

/-- A negative index is compared with the negated address. -/
theorem selectSource_of_neg (address : Nat) (pipe : BasePipe) {n : Int} {s : Runner}
    (different : n ≠ s.idx) (negative : n < 0) :
    s.selectSource address pipe n =
      if toInt32 address = -2 ^ 31 then .error .overflow
      else if n ≥ -toInt32 address then
        match s.server.pipelines[(-n - 1).toNat]? with
        | none => .error (.exception .outOfRange)
        | some upstream => .ok (some (.setPipeline pipe upstream))
      else .ok none := by
  have position : (-n).toNat - 1 = (-n - 1).toNat := by omega
  unfold Runner.selectSource
  rw [if_pos different, if_neg (by omega), if_pos negative, position]

/-- The selection is right exactly when the address does not mislead the range check. -/
theorem selects_iff {n : Int} {s : Runner} (different : n ≠ s.idx) (address : Nat)
    (pipe : BasePipe) :
    Selects s.server pipe n (s.selectSource address pipe n) ↔ Linked address s.server n := by
  by_cases nonneg : 0 ≤ n
  · exact iff_of_true (selectSource_of_nonneg address pipe different nonneg) (Or.inl nonneg)
  · have negative : n < 0 := by omega
    have linked_iff : Linked address s.server n ↔ toInt32 address ≠ -2 ^ 31 ∧
        (-toInt32 address ≤ n ↔ -(s.server.numPipelines : Int) ≤ n) :=
      or_iff_right nonneg
    rw [selects_iff_of_neg negative, selectSource_of_neg address pipe different negative, linked_iff]
    by_cases overflow : toInt32 address = -2 ^ 31
    · rw [if_pos overflow]
      exact iff_of_false (by simp) fun linked => linked.1 overflow
    · rw [if_neg overflow, and_iff_right overflow]
      cases found : s.server.pipelines[(-n - 1).toNat]? with
      | none =>
          have outside : ¬ -(s.server.numPipelines : Int) ≤ n := by
            have length := List.getElem?_eq_none_iff.mp found
            simp only [Registry.numPipelines]
            omega
          by_cases passed : n ≥ -toInt32 address
          · rw [if_pos passed]
            exact iff_of_false (by simp) fun agree => outside (agree.mp passed)
          · rw [if_neg passed]
            exact iff_of_true (by simp) (iff_of_false passed outside)
      | some upstream =>
          have within : -(s.server.numPipelines : Int) ≤ n := by
            have length := (List.getElem?_eq_some_iff.mp found).1
            simp only [Registry.numPipelines]
            omega
          by_cases passed : n ≥ -toInt32 address
          · rw [if_pos passed]
            exact iff_of_true (by simp) (iff_of_true passed within)
          · rw [if_neg passed]
            exact iff_of_false (by simp) fun agree => passed (agree.mpr within)

/-- The function is linked at a small address, and the only pipeline has no upstream. -/
theorem smallAddress_selects_iff :
    Selects (initial.addPipeline (.user 1)).server (.user 1) (-2)
        ((Runner.start (initial.addPipeline (.user 1)).server).selectSource 1 (.user 1) (-2)) ↔
      Linked 1 (initial.addPipeline (.user 1)).server (-2) :=
  selects_iff (s := Runner.start (initial.addPipeline (.user 1)).server) (by decide) 1 (.user 1)

/-- The index -2 passes the check with one pipeline, and `at` throws. -/
theorem secondUpstream_not_selects :
    ¬ Selects (initial.addPipeline (.user 1)).server (.user 1) (-2)
      ((Runner.start (initial.addPipeline (.user 1)).server).selectSource 0x10000 (.user 1) (-2)) := by
  intro selects
  have kept := selects.other (by decide) (by decide)
  have thrown : (Runner.start (initial.addPipeline (.user 1)).server).selectSource 0x10000 (.user 1)
      (-2) = .error (.exception .outOfRange) := rfl
  rw [thrown] at kept
  cases kept

/-- The thread reads an index in each iteration, and other threads attach other pipelines. -/
inductive RunnerStep where
  | iterate (n : Int)
  | others (op : Sources.Op)

/-- A fault ends the thread. -/
def runnerMachine (address : Nat) (pipe : BasePipe) : Machine Runner RunnerStep where
  step s
    | .iterate n => if IsInt n then (s.iterate address pipe n).toOption else none
    | .others op => if op.pipe ≠ pipe then some (s.perform op) else none

/-- The frame of an iteration comes from the camera that the last read index names. -/
def GrabsNamed (pipe : BasePipe) (_ : Runner) (label : RunnerStep) (next : Runner) : Prop :=
  ∀ n, label = .iterate n → 1 ≤ n → n ≤ next.server.numCameras →
    next.server.inputs.input pipe = (next.server.cameras[(n - 1).toNat]?).map .camera

/-- These are the indices that the thread reads. -/
def readIndices (steps : List RunnerStep) : List Int :=
  steps.filterMap fun label =>
    match label with
    | .iterate n => some n
    | .others _ => none

/-- There is no camera to name, or the first index that is read differs from the initial one, or the
pipeline is attached to the first camera already. -/
def StartsRight (pipe : BasePipe) (s : Registry) (steps : List RunnerStep) : Prop :=
  s.cameras = [] ∨ (readIndices steps).head? ≠ some 1 ∨
    s.inputs.input pipe = (s.cameras[0]?).map .camera

/-- The source is the one that the remembered index names. -/
def Agrees (pipe : BasePipe) (s : Runner) : Prop :=
  1 ≤ s.idx → s.idx ≤ s.server.numCameras →
    s.server.inputs.input pipe = (s.server.cameras[(s.idx - 1).toNat]?).map .camera

section Iterations

variable {address : Nat} {pipe : BasePipe}

/-- A change of another pipeline keeps the source. -/
theorem perform_input {op : Sources.Op} (other : op.pipe ≠ pipe) (s : Runner) :
    (s.perform op).server.inputs.input pipe = s.server.inputs.input pipe := by
  have away : pipe ≠ op.pipe := Ne.symm other
  cases op with
  | setCamera given cam => exact Function.update_of_ne away ..
  | setPipeline given upstream => exact Function.update_of_ne away ..
  | setSource given src => exact Function.update_of_ne away ..

/-- An iteration that reads the remembered index changes nothing. -/
theorem iterate_same (s : Runner) : s.iterate address pipe s.idx = .ok s := by
  have kept : s.selectSource address pipe s.idx = .ok none := if_neg (not_not.mpr rfl)
  rw [Runner.iterate, kept]
  rfl

/-- An iteration without a fault performs the selected change and remembers the index. -/
theorem iterate_ok {n : Int} {s next : Runner} (taken : s.iterate address pipe n = .ok next) :
    ∃ call, s.selectSource address pipe n = .ok call ∧
      next = { (call.elim s fun op => s.perform op) with idx := n } := by
  cases selected : s.selectSource address pipe n with
  | error fault =>
      rw [Runner.iterate, selected] at taken
      cases taken
  | ok call =>
      rw [Runner.iterate, selected] at taken
      exact ⟨call, rfl, (Except.ok.inj taken).symm⟩

/-- An iteration leaves the registry of the cameras as it is. -/
theorem iterate_cameras {n : Int} {s next : Runner} (taken : s.iterate address pipe n = .ok next) :
    next.server.cameras = s.server.cameras := by
  obtain ⟨call, _, shape⟩ := iterate_ok taken
  rw [shape]
  cases call <;> rfl

/-- An iteration that reads a new index attaches the camera that it names. -/
theorem iterate_agrees {n : Int} {s next : Runner} (different : n ≠ s.idx)
    (taken : s.iterate address pipe n = .ok next) : Agrees pipe next := by
  have registries := iterate_cameras taken
  obtain ⟨call, selected, shape⟩ := iterate_ok taken
  have index : next.idx = n := by rw [shape]
  intro low high
  rw [index] at low high ⊢
  rw [Registry.numCameras, registries] at high
  obtain ⟨cam, found, result⟩ :=
    (selectSource_of_nonneg address pipe different (by omega)).camera low high
  rw [selected] at result
  have called := Except.ok.inj result
  rw [registries, found, shape, called]
  exact Function.update_self ..

/-- The thread goes on after an iteration without a fault. -/
theorem step_iterate {s next : Runner} {n : Int}
    (taken : (runnerMachine address pipe).step s (.iterate n) = some next) :
    s.iterate address pipe n = .ok next := by
  obtain ⟨_, taken⟩ := Option.ite_none_right_eq_some.mp taken
  cases result : s.iterate address pipe n with
  | error fault =>
      rw [result] at taken
      cases taken
  | ok reached =>
      rw [result] at taken
      exact congrArg Except.ok (Option.some.inj taken)

/-- An iteration keeps the agreement. -/
theorem step_agrees {s next : Runner} {label : RunnerStep} (agrees : Agrees pipe s)
    (taken : (runnerMachine address pipe).step s label = some next) : Agrees pipe next := by
  cases label with
  | iterate n =>
      have iterated := step_iterate taken
      by_cases same : n = s.idx
      · rw [same, iterate_same] at iterated
        exact Except.ok.inj iterated ▸ agrees
      · exact iterate_agrees same iterated
  | others op =>
      simp only [runnerMachine, Option.ite_none_right_eq_some, Option.some.injEq] at taken
      obtain ⟨other, shape⟩ := taken
      rw [← shape]
      intro low high
      rw [perform_input other]
      exact agrees low high

/-- The frame of an iteration comes from the named camera when the source agrees after it. -/
theorem grabsNamed_of_step {s next : Runner} {label : RunnerStep}
    (taken : (runnerMachine address pipe).step s label = some next) (after : Agrees pipe next) :
    GrabsNamed pipe s label next := by
  intro n here low high
  subst here
  obtain ⟨call, _, shape⟩ := iterate_ok (step_iterate taken)
  have index : next.idx = n := by rw [shape]
  rw [← index] at low high ⊢
  exact after low high

/-- While the source is the one that the remembered index names, the frames come from there. -/
theorem grabsNamed_of_agrees {s : Runner} (agrees : Agrees pipe s) (steps : List RunnerStep) :
    (runnerMachine address pipe).Along (GrabsNamed pipe) s steps := by
  apply (runnerMachine address pipe).along_of_invariant _ agrees steps
  intro s label next before taken
  have after := step_agrees before taken
  exact ⟨grabsNamed_of_step taken after, after⟩

/-- A change of another pipeline does not matter for the start. -/
theorem startsRight_others {op : Sources.Op} (other : op.pipe ≠ pipe) (s : Runner)
    (rest : List RunnerStep) :
    StartsRight pipe s.server (.others op :: rest) ↔ StartsRight pipe (s.perform op).server rest := by
  have source := perform_input other s
  rw [StartsRight, StartsRight, source]
  rfl

/-- An iteration that reads the remembered index 1 attaches nothing, so camera 1 has to be attached
already. -/
theorem grabsNamed_iff_of_same {s : Runner} (first : s.idx = 1) {rest : List RunnerStep}
    (here : (runnerMachine address pipe).step s (.iterate 1) = some s) :
    (runnerMachine address pipe).Along (GrabsNamed pipe) s (.iterate 1 :: rest) ↔
      StartsRight pipe s.server (.iterate 1 :: rest) := by
  constructor
  · intro along
    by_cases empty : s.server.cameras = []
    · exact Or.inl empty
    · have one : (1 : Int) ≤ s.server.numCameras := by
        have length := List.length_pos_iff.mpr empty
        rw [Registry.numCameras]
        omega
      exact Or.inr (Or.inr ((along s here).1 1 rfl (Int.le_refl _) one))
  · intro right
    apply grabsNamed_of_agrees
    intro low high
    rw [first] at high ⊢
    rcases right with empty | other | attached
    · rw [Registry.numCameras, empty] at high
      exact absurd high (by decide)
    · exact absurd rfl other
    · exact attached

/-- A thread that remembers the initial index grabs from the named camera exactly when it starts
right. -/
theorem grabsNamed_iff_of_first {s final : Runner} (first : s.idx = 1) {steps : List RunnerStep}
    (taken : (runnerMachine address pipe).run s steps = some final) :
    (runnerMachine address pipe).Along (GrabsNamed pipe) s steps ↔ StartsRight pipe s.server steps := by
  induction steps generalizing s with
  | nil => exact iff_of_true trivial (Or.inr (Or.inl (Option.some_ne_none 1).symm))
  | cons label rest ih =>
      obtain ⟨next, here, later⟩ := Option.bind_eq_some_iff.mp taken
      cases label with
      | others op =>
          obtain ⟨other, shape⟩ := Option.ite_none_right_eq_some.mp here
          have performed := Option.some.inj shape
          subst performed
          rw [startsRight_others other, ← ih (s := s.perform op) first later]
          constructor
          · intro along
            exact (along _ here).2
          · intro along reached same
            obtain rfl : s.perform op = reached := Option.some.inj (here.symm.trans same)
            exact ⟨fun n impossible => RunnerStep.noConfusion impossible, along⟩
      | iterate n =>
          have iterated := step_iterate here
          by_cases same : n = 1
          · rw [same, ← first, iterate_same] at iterated
            have unchanged := Except.ok.inj iterated
            subst unchanged same
            exact grabsNamed_iff_of_same first here
          · refine iff_of_true (fun reached other => ?_) (Or.inr (Or.inl fun read => same ?_))
            · obtain rfl : next = reached := Option.some.inj (here.symm.trans other)
              have agrees := iterate_agrees (by rw [first]; exact same) iterated
              exact ⟨grabsNamed_of_step here agrees, grabsNamed_of_agrees agrees rest⟩
            · exact Option.some.inj read

end Iterations

/-- The frames come from the named cameras throughout a run of a pipeline's thread exactly when the
first index read is not the initial one, which is never attached, or is attached already. -/
theorem grabsNamed_iff {address : Nat} {pipe : BasePipe} {s : Registry} {steps : List RunnerStep}
    {final : Runner} (taken : (runnerMachine address pipe).run (Runner.start s) steps = some final) :
    (runnerMachine address pipe).Along (GrabsNamed pipe) (Runner.start s) steps ↔
      StartsRight pipe s steps :=
  grabsNamed_iff_of_first rfl taken

/-- A client asks for the second camera before the first iteration and for the first one later. -/
theorem secondCamera_grabsNamed_iff :
    (runnerMachine 0x10000 (.user 1)).Along (GrabsNamed (.user 1))
        (Runner.start (initial.addCameras [7, 8]).server) [.iterate 2, .iterate 1] ↔
      StartsRight (.user 1) (initial.addCameras [7, 8]).server [.iterate 2, .iterate 1] :=
  grabsNamed_iff rfl

/-- Without a compensation the initial index names a camera that is not attached. -/
theorem firstCamera_not_grabsNamed :
    ¬ (runnerMachine 0x10000 (.user 1)).Along (GrabsNamed (.user 1))
      (Runner.start (initial.addCamera 7).server) [.iterate 1] := by
  intro along
  have named := (along _ rfl).1 1 rfl (by decide) (by decide)
  exact absurd named (by decide)

end VisionServer.Server
