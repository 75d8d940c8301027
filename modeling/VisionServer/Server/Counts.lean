/-
This file decides in which histories the published numbers of cameras and pipelines are the sizes
of the registries.
-/

import VisionServer.Server.Frames
import Mathlib.Data.List.TakeDrop

namespace VisionServer.Server
open Library

/-- These are the objects that the server allocates for some types. -/
def newPipes (created count : Nat) : List BasePipe := (List.range' created count).map .heap

/-- The expansion makes one object for each type. -/
theorem pipeExpander_eq (types : List String) (s : Registry) :
    Registry.pipeExpander types s = (types.length, { s with
      heapAllocated := s.heapAllocated ++ newPipes s.created types.length
      created := s.created + types.length }) := by
  induction types generalizing s with
  | nil => simp [Registry.pipeExpander, newPipes]
  | cons type rest ih =>
      rw [Registry.pipeExpander, ih]
      simp [Registry.emplaceHeap, newPipes, List.range'_succ, Nat.add_comm, Nat.add_left_comm]

/-- The difference of two sizes is exact when it is not negative. -/
theorem sizeSub_of_le {a b : Nat} (le : b ≤ a) (bound : a < Registry.sizeModulus) :
    Registry.sizeSub a b = a - b := by
  unfold Registry.sizeSub
  have shape : a + (Registry.sizeModulus - b) = a - b + Registry.sizeModulus := by omega
  rw [shape, Nat.add_mod_right, Nat.mod_eq_of_lt (by omega)]

/-- The index wraps around after the pass for zero, and the next access throws. -/
theorem addLoop_wrapped (fuel : Nat) {s : Registry} (bound : s.heapAllocated.length < maxSize) :
    Registry.addLoop (fuel + 1) (Registry.sizeSub 0 1) s = some ⟨.error .outOfRange, s⟩ := by
  have index : Registry.sizeSub (Registry.sizeSub s.heapAllocated.length (Registry.sizeSub 0 1)) 1 =
      s.heapAllocated.length := by
    simp only [Registry.sizeSub, Registry.sizeModulus, maxSize] at bound ⊢
    omega
  rw [Registry.addLoop, index, List.getElem?_eq_none (Nat.le_refl _)]

/-- Without an earlier allocation the first access throws. -/
theorem addLoop_first (fuel : Nat) {i : Nat} {s : Registry} (same : i = s.heapAllocated.length)
    (bound : s.heapAllocated.length < maxSize) :
    Registry.addLoop (fuel + 1) i s = some ⟨.error .outOfRange, s⟩ := by
  have index : s.heapAllocated.length ≤
      Registry.sizeSub (Registry.sizeSub s.heapAllocated.length i) 1 := by
    simp only [Registry.sizeSub, Registry.sizeModulus, maxSize] at bound ⊢
    omega
  rw [Registry.addLoop, List.getElem?_eq_none index]

/-- A pass in range pushes one pointer. -/
theorem addLoop_push (fuel : Nat) {i : Nat} {s : Registry} (within : i < s.heapAllocated.length)
    (bound : s.heapAllocated.length < maxSize) :
    Registry.addLoop (fuel + 1) i s = Registry.addLoop fuel (Registry.sizeSub i 1) { s with
      pipelines := s.pipelines ++ [s.heapAllocated[s.heapAllocated.length - i - 1]] } := by
  have limit : s.heapAllocated.length < Registry.sizeModulus := by
    simp only [Registry.sizeModulus, maxSize] at bound ⊢
    omega
  have position : s.heapAllocated.length - i - 1 < s.heapAllocated.length := by omega
  rw [Registry.addLoop, sizeSub_of_le (by omega) limit, sizeSub_of_le (by omega) (by omega),
    List.getElem?_eq_getElem position]

/-- The loop pushes one pointer more than its first index says, and then throws. -/
theorem addLoop_eq (i : Nat) {s : Registry} (within : i < s.heapAllocated.length)
    (bound : s.heapAllocated.length < maxSize) :
    Registry.addLoop (i + 2) i s = some ⟨.error .outOfRange, { s with
      pipelines := s.pipelines ++ s.heapAllocated.drop (s.heapAllocated.length - i - 1) }⟩ := by
  induction i generalizing s with
  | zero =>
      have last : s.heapAllocated.length - 0 - 1 < s.heapAllocated.length := by omega
      rw [List.drop_eq_getElem_cons last, List.drop_eq_nil_of_le (by omega)]
      exact (addLoop_push 1 within bound).trans (addLoop_wrapped 0 bound)
  | succ i ih =>
      have limit : i + 1 < Registry.sizeModulus := by
        simp only [Registry.sizeModulus, maxSize] at bound ⊢
        omega
      have one : Registry.sizeSub (i + 1) 1 = i := sizeSub_of_le (by omega) limit
      have position : s.heapAllocated.length - (i + 1) - 1 < s.heapAllocated.length := by omega
      have next : s.heapAllocated.length - (i + 1) - 1 + 1 = s.heapAllocated.length - i - 1 := by
        omega
      have later := @ih { s with pipelines := s.pipelines ++
        [s.heapAllocated[s.heapAllocated.length - (i + 1) - 1]] } (Nat.lt_of_succ_lt within) bound
      apply (addLoop_push (i + 2) within bound).trans
      rw [one, later, List.drop_eq_getElem_cons position, next]
      simp

/-- The template `addPipelines<P...>()` always throws. After an earlier allocation it first pushes
one pointer more than there are types. -/
theorem addPipelinesTypes_eq {types : List String} {s : Registry} (idle : s.isRunning = false)
    (bound : s.heapAllocated.length + types.length < maxSize) :
    s.addPipelinesTypes types = some ⟨.error .outOfRange, { s with
      heapAllocated := s.heapAllocated ++ newPipes s.created types.length
      created := s.created + types.length
      pipelines := s.pipelines ++
        if s.heapAllocated = [] then []
        else s.heapAllocated.getLast?.toList ++ newPipes s.created types.length }⟩ := by
  have length : (newPipes s.created types.length).length = types.length := by
    simp [newPipes]
  unfold Registry.addPipelinesTypes
  rw [if_neg (by rw [idle]; exact Bool.false_ne_true), pipeExpander_eq]
  dsimp only
  by_cases empty : s.heapAllocated = []
  · rw [if_pos empty, List.append_nil]
    apply addLoop_first
    · simp [empty, length]
    · simpa [empty, length] using bound
  · rw [if_neg empty]
    have nonempty := List.length_pos_iff.mpr empty
    rw [addLoop_eq types.length (by simp [length]; omega) (by simpa [length] using bound)]
    have start : (s.heapAllocated ++ newPipes s.created types.length).length - types.length - 1 =
        s.heapAllocated.length - 1 := by
      rw [List.length_append, length]
      omega
    have last := List.drop_length_sub_one empty
    dsimp only
    rw [start, List.drop_append_of_le_length (by omega), last, List.getLast?_eq_getLast_of_ne_nil empty]
    rfl

/-- The template succeeds and registers exactly its own objects in their order. -/
def AppendsTypes (types : List String) (s : Registry) : Prop :=
  ∃ after, s.addPipelinesTypes types = some ⟨.ok true, after⟩ ∧
    after.pipelines = s.pipelines ++ newPipes s.created types.length ∧
    after.heapAllocated = s.heapAllocated ++ newPipes s.created types.length

/-- The loop ends with an exception or not at all. -/
theorem addLoop_not_ok (fuel i : Nat) (s : Registry) {result : Bool} {after : Registry} :
    Registry.addLoop fuel i s ≠ some ⟨.ok result, after⟩ := by
  induction fuel generalizing i s with
  | zero => exact fun ended => nomatch ended
  | succ fuel ih =>
      rw [Registry.addLoop]
      cases s.heapAllocated[Registry.sizeSub (Registry.sizeSub s.heapAllocated.length i) 1]? with
      | none => exact fun ended => nomatch ended
      | some p => exact ih _ _

/-- The template never keeps its promise: its loop runs until `at` throws. -/
theorem addPipelinesTypes_never (types : List String) {s : Registry} (idle : s.isRunning = false) :
    ¬ AppendsTypes types s := by
  intro appends
  obtain ⟨after, ended, _⟩ := appends
  unfold Registry.addPipelinesTypes at ended
  rw [if_neg (by rw [idle]; exact Bool.false_ne_true)] at ended
  exact addLoop_not_ok _ _ _ ended

/-- An empty registry gets no pipeline for one type. -/
theorem addPipelinesTypes_first_throws : ¬ AppendsTypes ["Pipeline"] initial := by
  intro appends
  obtain ⟨after, ended, _⟩ := appends
  rw [addPipelinesTypes_eq rfl (by decide)] at ended
  cases ended

/-- The result applies to two types behind an earlier pipeline. -/
theorem addPipelinesTypes_never_later :
    (initial.addPipelineType "Pipeline").server.isRunning = false ∧
      (initial.addPipelineType "Pipeline").server.pipelines = [.heap 0] ∧
      ¬ AppendsTypes ["Left", "Right"] (initial.addPipelineType "Pipeline").server :=
  ⟨rfl, rfl, addPipelinesTypes_never ["Left", "Right"] rfl⟩

/-- The template `setPipelines<P...>()` replaces both vectors by the new objects. -/
theorem setPipelinesTypes_server (types : List String) (s : Registry) :
    (s.setPipelinesTypes types).server = if s.isRunning then s else { s with
      heapAllocated := newPipes s.created types.length
      created := s.created + types.length
      pipelines := newPipes s.created types.length } := by
  rw [Registry.setPipelinesTypes, unlessRunning_server]
  split
  · rfl
  · rw [pipeExpander_eq]
    rfl

/-- The published numbers are the sizes of the registries. -/
structure Counted (s : Registry) : Prop where
  cameras : s.camerasAvailable = s.numCameras
  pipelines : s.pipelinesAvailable = s.numPipelines

/-- The number stays right without a new publication. -/
def Republished (s : Registry) : Op → Prop
  | .addPipelineType _ => s.isRunning = true
  | .addPipelinesTypes _ => s.isRunning = true ∨ s.heapAllocated = []
  | .setPipelinesTypes types => s.isRunning = true ∨ types.length = s.numPipelines
  | _ => True

/-- The numbers are facts about the registries alone. -/
theorem framed_counted : Framed Counted :=
  Framed.of_registries fun _ _ _ _ _ counted => ⟨counted.cameras, counted.pipelines⟩

/-- The operations that publish what they changed keep the numbers right. -/
theorem unlessRunning_counted {s : Registry} (counted : Counted s) {body : Registry → Registry}
    (published : Counted (body s)) : Counted (Registry.unlessRunning body s).server := by
  rw [unlessRunning_server]
  split
  · exact counted
  · exact published

section Templates

variable {s : Registry} (counted : Counted s)
include counted

/-- The template for one type pushes a pointer, so it keeps the number right only while running. -/
theorem addPipelineType_counted_iff (type : String) :
    Counted (s.addPipelineType type).server ↔ s.isRunning = true := by
  rw [Registry.addPipelineType, unlessRunning_server]
  by_cases running : s.isRunning = true
  · rw [if_pos running]
    exact iff_of_true counted running
  · rw [if_neg running]
    refine iff_of_false (fun after => ?_) running
    have published := after.pipelines
    have before := counted.pipelines
    simp only [Registry.emplaceHeap, Registry.numPipelines, List.getLast?_append, List.getLast?_singleton,
      Option.some_or, Option.toList_some, List.length_append, List.length_singleton] at published before
    omega

/-- The template for several types pushes pointers when the server owns a pipeline already. -/
theorem addPipelinesTypes_counted_iff {types : List String} {next : Registry}
    (bound : s.heapAllocated.length + types.length < maxSize)
    (taken : (s.addPipelinesTypes types).map Outcome.server = some next) :
    Counted next ↔ s.isRunning = true ∨ s.heapAllocated = [] := by
  by_cases running : s.isRunning = true
  · rw [Registry.addPipelinesTypes, if_pos running, Option.map_some, Option.some.injEq] at taken
    rw [← taken]
    exact iff_of_true counted (Or.inl running)
  · have idle := eq_false_of_ne_true running
    rw [addPipelinesTypes_eq idle bound, Option.map_some, Option.some.injEq] at taken
    rw [← taken]
    by_cases empty : s.heapAllocated = []
    · refine iff_of_true ⟨counted.cameras, ?_⟩ (Or.inr empty)
      simpa [Registry.numPipelines, empty] using counted.pipelines
    · refine iff_of_false (fun after => ?_) (not_or.mpr ⟨running, empty⟩)
      have published := after.pipelines
      have before := counted.pipelines
      simp only [Registry.numPipelines, if_neg empty, List.getLast?_eq_getLast_of_ne_nil empty,
        Option.toList_some, List.length_append, List.length_singleton] at published before
      omega

/-- The template that replaces the pipelines keeps the number right when it keeps their number. -/
theorem setPipelinesTypes_counted_iff (types : List String) :
    Counted (s.setPipelinesTypes types).server ↔
      s.isRunning = true ∨ types.length = s.numPipelines := by
  rw [setPipelinesTypes_server]
  by_cases running : s.isRunning = true
  · rw [if_pos running]
    exact iff_of_true counted (Or.inl running)
  · rw [if_neg running]
    have before := counted.pipelines
    have length : (newPipes s.created types.length).length = types.length := by
      simp [newPipes]
    constructor
    · intro after
      have published := after.pipelines
      simp only [Registry.numPipelines, length] at published before ⊢
      omega
    · intro given
      rcases given with refused | same
      · exact absurd refused running
      · refine ⟨counted.cameras, ?_⟩
        simp only [Registry.numPipelines, length] at before same ⊢
        omega

end Templates

/-- A step keeps the numbers right exactly when no template changes the number of pipelines. -/
theorem step_counted_iff (s : Registry) (op : Op) (next : Registry) (counted : Counted s)
    (taken : step s op = some next) : Counted next ↔ Republished s op := by
  cases op with
  | addCamera | addCameras | setCameras =>
      rw [← Option.some.inj taken]
      exact iff_of_true (unlessRunning_counted counted ⟨rfl, counted.pipelines⟩) trivial
  | addPipeline | addPipelines | setPipelines =>
      rw [← Option.some.inj taken]
      exact iff_of_true (unlessRunning_counted counted ⟨counted.cameras, rfl⟩) trivial
  | addPipelineType type =>
      rw [← Option.some.inj taken]
      exact addPipelineType_counted_iff counted type
  | addPipelinesTypes types =>
      simp only [step, Option.ite_none_right_eq_some] at taken
      exact addPipelinesTypes_counted_iff counted taken.1 taken.2
  | setPipelinesTypes types =>
      rw [← Option.some.inj taken]
      exact setPipelinesTypes_counted_iff counted types
  | addStreams | addStreamsCount | compensate | start | stop | syncIdx | setSourceIdx
  | remoteWrite => exact iff_of_true (framed_counted.step rfl taken counted) trivial

/-- The published numbers are right in every state of a history exactly when the templates, which
publish nothing, never change the number of pipelines. -/
theorem always_counted_iff (ops : List Op) :
    machine.Always Counted initial ops ↔ machine.Meets Republished initial ops :=
  machine.always_iff_meets (fun _ _ _ _ _ => trivial)
    (fun s op next _ => step_counted_iff s op next) trivial ⟨rfl, rfl⟩ ops

/-- The template registers a pipeline, and the published number stays zero. -/
theorem addPipelineType_not_counted :
    ¬ machine.Always Counted initial [.addPipelineType "Pipeline"] := by
  intro always
  have last := always.last machine rfl
  exact absurd last.pipelines (by decide)

end VisionServer.Server
