/-
This file decides in which histories every registered pipeline is a live object.
-/

import VisionServer.Server.Counts

namespace VisionServer.Server
open Library

/-- A pointer refers to a live object when a user owns the object or the server still does. -/
def Live (s : Registry) : BasePipe → Prop
  | .user _ => True
  | .heap id => .heap id ∈ s.heapAllocated

instance (s : Registry) : (p : BasePipe) → Decidable (Live s p)
  | .user _ => isTrue trivial
  | .heap id => inferInstanceAs (Decidable (BasePipe.heap id ∈ s.heapAllocated))

/-- These are the pointers that the caller passes. -/
def Op.pointers : Op → List BasePipe
  | .addPipeline p => [p]
  | .addPipelines ps => ps
  | .setPipelines ps => ps
  | _ => []

/-- The caller passes pointers to live objects only. -/
def liveMachine : Machine Registry Op :=
  machine.restrict fun s op => ∀ p ∈ op.pointers, Live s p

/-- Every registered pipeline is a live object. -/
def AllLive (s : Registry) : Prop := ∀ p ∈ s.pipelines, Live s p

instance (s : Registry) : Decidable (AllLive s) := inferInstanceAs (Decidable (∀ _ ∈ _, _))

/-- A new list of pipelines names no object of the server, because `heap_allocated` is cleared
before the list is installed. -/
def UserOwned (s : Registry) : Op → Prop
  | .setPipelines ps => s.isRunning = true ∨ ∀ id, .heap id ∉ ps
  | _ => True

/-- A pointer to an object of the server is live while the server owns it. -/
theorem live_of_mem {s : Registry} {p : BasePipe} (owned : p ∈ s.heapAllocated) : Live s p := by
  cases p with
  | user id => trivial
  | heap id => exact owned

/-- A pointer stays live when the server keeps its objects. -/
theorem Live.mono {s t : Registry} (kept : s.heapAllocated ⊆ t.heapAllocated) {p : BasePipe}
    (live : Live s p) : Live t p := by
  cases p with
  | user id => trivial
  | heap id => exact kept live

/-- New live pointers join the registry, and the server keeps its objects. -/
theorem AllLive.append {s t : Registry} (all : AllLive s) {added : List BasePipe}
    (kept : s.heapAllocated ⊆ t.heapAllocated) (pipelines : t.pipelines = s.pipelines ++ added)
    (new : ∀ p ∈ added, Live t p) : AllLive t := by
  intro p member
  rw [pipelines] at member
  rcases List.mem_append.mp member with old | fresh
  · exact (all p old).mono kept
  · exact new p fresh

/-- The ownership is a fact about the registries alone. -/
theorem framed_allLive : Framed AllLive :=
  Framed.of_registries fun _ _ _ _ _ all p member => (all p member).mono (List.Subset.refl _)

/-- A change that is refused while running keeps the ownership. -/
theorem unlessRunning_allLive {s : Registry} (all : AllLive s) {body : Registry → Registry}
    (after : AllLive (body s)) : AllLive (Registry.unlessRunning body s).server := by
  rw [unlessRunning_server]
  split
  · exact all
  · exact after

/-- A list that replaces the pipelines is live when no object of the server is in it. -/
theorem setPipelines_allLive_iff {s : Registry} (all : AllLive s) (ps : List BasePipe) :
    AllLive (s.setPipelines ps).server ↔ s.isRunning = true ∨ ∀ id, .heap id ∉ ps := by
  rw [Registry.setPipelines, unlessRunning_server]
  by_cases running : s.isRunning = true
  · rw [if_pos running]
    exact iff_of_true all (Or.inl running)
  · rw [if_neg running]
    constructor
    · intro after
      refine Or.inr fun id member => ?_
      have owned : BasePipe.heap id ∈ ([] : List BasePipe) := after (.heap id) member
      cases owned
    · intro given p member
      have foreign := given.resolve_left running
      cases p with
      | user id => trivial
      | heap id => exact absurd member (foreign id)

/-- The template for one type registers the object that it allocates. -/
theorem addPipelineType_allLive {s : Registry} (all : AllLive s) (type : String) :
    AllLive (s.addPipelineType type).server := by
  apply unlessRunning_allLive all
  apply all.append (List.subset_append_left _ _) rfl
  intro p member
  have last : p ∈ s.emplaceHeap.heapAllocated.getLast? := Option.mem_toList.mp member
  exact live_of_mem (List.mem_of_getLast? last)

/-- The template for several types registers objects of the server. -/
theorem addPipelinesTypes_allLive {s next : Registry} (all : AllLive s) {types : List String}
    (bound : s.heapAllocated.length + types.length < maxSize)
    (taken : (s.addPipelinesTypes types).map Outcome.server = some next) : AllLive next := by
  by_cases running : s.isRunning = true
  · rw [Registry.addPipelinesTypes, if_pos running, Option.map_some, Option.some.injEq] at taken
    exact taken ▸ all
  · rw [addPipelinesTypes_eq (eq_false_of_ne_true running) bound, Option.map_some,
      Option.some.injEq] at taken
    subst taken
    apply all.append (List.subset_append_left _ _) rfl
    intro p member
    apply live_of_mem
    by_cases empty : s.heapAllocated = []
    · rw [if_pos empty] at member
      cases member
    · rw [if_neg empty] at member
      rcases List.mem_append.mp member with last | new
      · exact List.mem_append_left _ (List.mem_of_getLast? (Option.mem_toList.mp last))
      · exact List.mem_append_right _ new

/-- The template that replaces the pipelines registers its own objects. -/
theorem setPipelinesTypes_allLive {s : Registry} (all : AllLive s) (types : List String) :
    AllLive (s.setPipelinesTypes types).server := by
  rw [setPipelinesTypes_server]
  split
  · exact all
  · exact fun p member => live_of_mem member

/-- A step keeps every registered pipeline live exactly when it does not free one of them. -/
theorem step_allLive_iff (s : Registry) (op : Op) (next : Registry) (all : AllLive s)
    (taken : liveMachine.step s op = some next) : AllLive next ↔ UserOwned s op := by
  obtain ⟨live, taken⟩ := (machine.restrict_step).mp taken
  change step s op = some next at taken
  cases op with
  | addCamera | addCameras | setCameras =>
      rw [← Option.some.inj taken]
      exact iff_of_true (unlessRunning_allLive all all) trivial
  | addPipeline p =>
      rw [← Option.some.inj taken]
      have after : AllLive (Registry.publishPipelines { s with pipelines := s.pipelines ++ [p] }) :=
        all.append (List.Subset.refl _) rfl live
      exact iff_of_true (unlessRunning_allLive all after) trivial
  | addPipelines ps =>
      rw [← Option.some.inj taken]
      have after : AllLive (Registry.publishPipelines { s with pipelines := s.pipelines ++ ps }) :=
        all.append (List.Subset.refl _) rfl live
      exact iff_of_true (unlessRunning_allLive all after) trivial
  | setPipelines ps =>
      rw [← Option.some.inj taken]
      exact setPipelines_allLive_iff all ps
  | addPipelineType type =>
      rw [← Option.some.inj taken]
      exact iff_of_true (addPipelineType_allLive all type) trivial
  | addPipelinesTypes types =>
      simp only [step, Option.ite_none_right_eq_some] at taken
      exact iff_of_true (addPipelinesTypes_allLive all taken.1 taken.2) trivial
  | setPipelinesTypes types =>
      rw [← Option.some.inj taken]
      exact iff_of_true (setPipelinesTypes_allLive all types) trivial
  | addStreams | addStreamsCount | compensate | start | stop | syncIdx | setSourceIdx
  | remoteWrite => exact iff_of_true (framed_allLive.step rfl taken all) trivial

/-- Every registered pipeline is live in every state of a history exactly when no list that
replaces the pipelines names an object that the server frees first. -/
theorem always_allLive_iff (ops : List Op) :
    liveMachine.Always AllLive initial ops ↔ liveMachine.Meets UserOwned initial ops :=
  liveMachine.always_iff_meets (fun _ _ _ _ _ => trivial)
    (fun s op next _ => step_allLive_iff s op next) trivial
    (fun _ member => absurd member List.not_mem_nil) ops

/-- The list of `getPipelines()` is registered again, and its object is freed before that. -/
theorem reregisteredPipe_not_allLive :
    ¬ liveMachine.Always AllLive initial [.addPipelineType "Pipeline", .setPipelines [.heap 0]] := by
  intro always
  have last := always.last liveMachine rfl
  exact absurd last (by decide)

end VisionServer.Server
