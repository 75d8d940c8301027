/-
This file proves which histories keep the sources of the streams in line with the indices that the
streams remember.
-/

import VisionServer.Server.Counts

namespace VisionServer.Server
open Library

/-- A stream shows the element of the registry that its index names. -/
structure Shows (cameras : List Nat) (pipelines : List BasePipe) (stream : OutputStream) : Prop where
  pipeline : 1 ≤ stream.localIdx → stream.localIdx ≤ pipelines.length →
    stream.source = (pipelines[(stream.localIdx - 1).toNat]?).map .pipe
  camera : -(cameras.length : Int) ≤ stream.localIdx → stream.localIdx ≤ -1 →
    stream.source = (cameras[(-stream.localIdx - 1).toNat]?).map .camera

instance (cameras : List Nat) (pipelines : List BasePipe) (stream : OutputStream) :
    Decidable (Shows cameras pipelines stream) :=
  decidable_of_iff (_ ∧ _) ⟨fun both => ⟨both.1, both.2⟩, fun shows => ⟨shows.1, shows.2⟩⟩

/-- The sizes fit in an `int`. -/
def Small (cameras : List Nat) (pipelines : List BasePipe) : Prop :=
  cameras.length < 2 ^ 31 ∧ pipelines.length < 2 ^ 31

instance (cameras : List Nat) (pipelines : List BasePipe) : Decidable (Small cameras pipelines) :=
  inferInstanceAs (Decidable (_ ∧ _))

/-- Every stream shows what the index that it remembers names. -/
structure Synced (s : Registry) : Prop where
  small : Small s.cameras s.pipelines
  shown : ∀ stream ∈ s.streams, Shows s.cameras s.pipelines stream

/-- These are the registries after an operation that changes them. -/
def registriesAfter (s : Registry) : Op → Option (List Nat × List BasePipe)
  | .addCamera c => some (s.cameras ++ [c], s.pipelines)
  | .addCameras cms => some (s.cameras ++ cms, s.pipelines)
  | .setCameras cms => some (cms, s.pipelines)
  | .addPipeline p => some (s.cameras, s.pipelines ++ [p])
  | .addPipelines ps => some (s.cameras, s.pipelines ++ ps)
  | .setPipelines ps => some (s.cameras, ps)
  | .addPipelineType _ => some (s.cameras, s.pipelines ++ [.heap s.created])
  | .addPipelinesTypes types => some (s.cameras, s.pipelines ++
      if s.heapAllocated = [] then []
      else s.heapAllocated.getLast?.toList ++ newPipes s.created types.length)
  | .setPipelinesTypes types => some (s.cameras, newPipes s.created types.length)
  | _ => none

/-- A change of a registry leaves an index that a stream remembers without a source, or with the
source that the stream shows. The sizes stay in the range of `int`. -/
def Stable (s : Registry) (op : Op) : Prop :=
  s.isRunning = true ∨ ∀ registries ∈ registriesAfter s op,
    Small registries.1 registries.2 ∧
      ∀ stream ∈ s.streams, Shows registries.1 registries.2 stream

instance (s : Registry) (op : Op) : Decidable (Stable s op) :=
  inferInstanceAs (Decidable (_ ∨ _))

/-- After a synchronization the stream shows what its index names. -/
def SyncShows (_ : Registry) (op : Op) (next : Registry) : Prop :=
  ∀ position stream, op = .syncIdx position → next.streams[position]? = some stream →
    Shows next.cameras next.pipelines stream

/-- A new source is the one that the index names, when the sizes fit in an `int`. -/
theorem attach_shows {s : Registry} (small : Small s.cameras s.pipelines) (i : Int)
    (stream : OutputStream) : Shows s.cameras s.pipelines (s.attach i stream) := by
  obtain ⟨cameras, pipelines⟩ := small
  have cameraBound : toInt32 s.numCameras = s.cameras.length :=
    toInt32_of_range (by simp only [Registry.numCameras]; omega)
      (by simp only [Registry.numCameras]; omega)
  have pipelineBound : toInt32 s.numPipelines = s.pipelines.length :=
    toInt32_of_range (by simp only [Registry.numPipelines]; omega)
      (by simp only [Registry.numPipelines]; omega)
  constructor
  · intro positive within
    change 1 ≤ i at positive
    change i ≤ s.pipelines.length at within
    have index : (i - 1).toNat < s.pipelines.length := by omega
    have position : i.toNat - 1 = (i - 1).toNat := by omega
    change (s.selected i).orElse _ = (s.pipelines[(i - 1).toNat]?).map VideoSource.pipe
    rw [Registry.selected, cameraBound, pipelineBound, if_neg (by omega), if_pos (by omega),
      position, List.getElem?_eq_getElem index]
    rfl
  · intro within negative
    change -(s.cameras.length : Int) ≤ i at within
    change i ≤ -1 at negative
    have index : (-i - 1).toNat < s.cameras.length := by omega
    have position : (-i).toNat - 1 = (-i - 1).toNat := by omega
    change (s.selected i).orElse _ = (s.cameras[(-i - 1).toNat]?).map VideoSource.camera
    rw [Registry.selected, cameraBound, if_pos (by omega), position,
      List.getElem?_eq_getElem index]
    rfl

/-- An index of zero names nothing. -/
theorem shows_of_zero (cameras : List Nat) (pipelines : List BasePipe) (name : String)
    (source : Option VideoSource) : Shows cameras pipelines ⟨name, 0, source⟩ :=
  ⟨fun positive => absurd positive (show ¬ (1 : Int) ≤ 0 by decide),
    fun _ negative => absurd negative (show ¬ (0 : Int) ≤ -1 by decide)⟩

theorem Synced.update {s : Registry} (synced : Synced s) {stream : OutputStream}
    (shows_ : Shows s.cameras s.pipelines stream) (position : Nat) :
    Synced (s.updateStream position stream) := by
  refine ⟨synced.small, fun other member => ?_⟩
  rcases List.mem_or_eq_of_mem_set member with old | new
  · exact synced.shown other old
  · rw [new]
    exact shows_

theorem Synced.setSourceIdx {s : Registry} (synced : Synced s) (position : Nat) (i : Int) :
    Synced (s.setSourceIdx position i) := by
  rw [Registry.setSourceIdx_eq]
  cases s.streams[position]? with
  | none => exact synced
  | some stream =>
      dsimp only
      split
      · have updated := synced.update (attach_shows synced.small i stream) position
        exact ⟨updated.small, updated.shown⟩
      · exact synced

theorem Synced.syncIdx {s : Registry} (synced : Synced s) (position : Nat) :
    Synced (s.syncIdx position) := by
  rw [Registry.syncIdx_eq]
  split
  · exact synced
  · split
    · exact synced.update (attach_shows synced.small _ _) position
    · exact synced

theorem Synced.emplaceStream {s : Registry} (synced : Synced s) (name : String)
    (source : Option VideoSource) : Synced (s.emplaceStream name source) := by
  refine ⟨synced.small, fun stream member => ?_⟩
  rcases List.mem_append.mp member with old | new
  · exact synced.shown stream old
  · rw [List.mem_singleton.mp new]
    exact shows_of_zero _ _ _ _

/-- The other operations keep the streams in line. -/
theorem framed_synced : Framed Synced where
  inputs _ _ synced := ⟨synced.small, synced.shown⟩
  flag _ _ synced := ⟨synced.small, synced.shown⟩
  entries _ _ synced := ⟨synced.small, synced.shown⟩
  emplaceStream _ name source synced := synced.emplaceStream name source
  setSourceIdx _ position i synced := synced.setSourceIdx position i
  syncIdx _ position synced := synced.syncIdx position

/-- The registries are replaced unless the server runs, and the streams are kept. -/
structure Installs (s next : Registry) (registries : List Nat × List BasePipe) : Prop where
  streams : next.streams = s.streams
  cases : s.isRunning = true ∧ next.cameras = s.cameras ∧ next.pipelines = s.pipelines ∨
    s.isRunning = false ∧ next.cameras = registries.1 ∧ next.pipelines = registries.2

/-- A change that is made unless the server runs installs its registries. -/
theorem Installs.of_ite {s changed : Registry} {registries : List Nat × List BasePipe}
    (streams : changed.streams = s.streams)
    (after : changed.cameras = registries.1 ∧ changed.pipelines = registries.2) :
    Installs s (if s.isRunning then s else changed) registries := by
  by_cases running : s.isRunning = true
  · rw [if_pos running]
    exact ⟨rfl, Or.inl ⟨running, rfl, rfl⟩⟩
  · rw [if_neg running]
    exact ⟨streams, Or.inr ⟨eq_false_of_ne_true running, after⟩⟩

/-- The streams are not touched by a change of a registry. -/
theorem registriesAfter_spec {s next : Registry} {op : Op} (taken : step s op = some next)
    {registries : List Nat × List BasePipe} (changes : registriesAfter s op = some registries) :
    Installs s next registries := by
  have simple (body : Registry → Registry) (streams : (body s).streams = s.streams)
      (same : (Registry.unlessRunning body s).server = next)
      (after : (body s).cameras = registries.1 ∧ (body s).pipelines = registries.2) :
      Installs s next registries := by
    rw [← same, unlessRunning_server]
    exact .of_ite streams after
  cases op with
  | addCamera | addCameras | setCameras | addPipeline | addPipelines | setPipelines =>
      cases changes
      exact simple _ rfl (Option.some.inj taken) ⟨rfl, rfl⟩
  | addPipelineType type =>
      cases changes
      refine simple _ rfl (Option.some.inj taken) ⟨rfl, ?_⟩
      simp [Registry.emplaceHeap]
  | addPipelinesTypes types =>
      cases changes
      simp only [step, Option.ite_none_right_eq_some] at taken
      obtain ⟨bound, taken⟩ := taken
      by_cases running : s.isRunning = true
      · rw [Registry.addPipelinesTypes, if_pos running] at taken
        rw [← Option.some.inj taken]
        exact ⟨rfl, Or.inl ⟨running, rfl, rfl⟩⟩
      · have idle := eq_false_of_ne_true running
        rw [addPipelinesTypes_eq idle bound] at taken
        rw [← Option.some.inj taken]
        exact ⟨rfl, Or.inr ⟨idle, rfl, rfl⟩⟩
  | setPipelinesTypes types =>
      cases changes
      rw [← Option.some.inj taken, setPipelinesTypes_server]
      exact .of_ite rfl ⟨rfl, rfl⟩
  | addStreams | addStreamsCount | compensate | start | stop | syncIdx | setSourceIdx
  | remoteWrite => cases changes

/-- A step that is stable keeps the streams in line. -/
theorem step_synced (s : Registry) (op : Op) (next : Registry) (synced : Synced s)
    (stable : Stable s op) (taken : step s op = some next) : Synced next := by
  cases changes : registriesAfter s op with
  | some registries =>
      obtain ⟨streams, cases⟩ := registriesAfter_spec taken changes
      rcases cases with ⟨_, cameras, pipelines⟩ | ⟨idle, cameras, pipelines⟩
      · constructor
        · rw [cameras, pipelines]
          exact synced.small
        · rw [cameras, pipelines, streams]
          exact synced.shown
      · have running : s.isRunning ≠ true := by
          rw [idle]
          exact Bool.false_ne_true
        obtain ⟨small, shown⟩ := stable.resolve_left running registries changes
        constructor
        · rw [cameras, pipelines]
          exact small
        · rw [cameras, pipelines, streams]
          exact shown
  | none =>
      have outside : op.changesRegistries = false := by
        cases op <;> first | rfl | cases changes
      exact framed_synced.step outside taken synced

theorem initial_synced : Synced initial :=
  ⟨by decide, fun _ member => absurd member List.not_mem_nil⟩

/-- In a history whose changes of the registries are stable, each synchronization leaves its stream
with the source that the index names. -/
theorem syncShows_of_stable {ops : List Op} (meets : machine.Meets Stable initial ops) :
    machine.Along SyncShows initial ops := by
  apply meets.along machine _ initial_synced
  intro s op next synced stable taken
  have after := step_synced s op next synced stable taken
  refine ⟨fun position stream _ found => ?_, after⟩
  exact after.shown stream (List.mem_of_getElem? found)

/-- A client switches a stream to the first pipeline, and a second pipeline is added later. -/
theorem switchedStream_shows : machine.Along SyncShows initial
    [.addPipeline (.user 1), .addStreams [("Stream 1", none)], .start .processing,
      .remoteWrite "Stream 1" 1, .syncIdx 0, .stop, .addPipeline (.user 2), .start .raw,
      .syncIdx 0] :=
  syncShows_of_stable (by decide)

/-- A raw run remembers the index of a pipeline that is added later, and the stream never gets it. -/
theorem rawIndex_not_syncShows : ¬ machine.Along SyncShows initial
    [.addStreams [("Stream 1", none)], .start .raw, .remoteWrite "Stream 1" 1, .syncIdx 0, .stop,
      .addPipeline (.user 1), .start .processing, .syncIdx 0] := by
  intro along
  have last := (along _ rfl).2 _ rfl |>.2 _ rfl |>.2 _ rfl |>.2 _ rfl |>.2 _ rfl |>.2 _ rfl |>.2 _ rfl
  have shows_ := last.1 0 ⟨"Stream 1", 1, none⟩ rfl rfl
  exact absurd (shows_.pipeline (by decide) (by decide)) (by decide)

/-- A client can turn every stream that does not show its index into a wrong synchronization. -/
theorem wrong_sync_of_not_shows {s : Registry} {position : Nat} {stream : OutputStream}
    (found : s.streams[position]? = some stream) (int : IsInt stream.localIdx)
    (wrong : ¬ Shows s.cameras s.pipelines stream) :
    ¬ machine.Along SyncShows s [.remoteWrite stream.name stream.localIdx, .syncIdx position] := by
  intro along
  have written := (along _ (if_pos int)).2
  have synced := (written _ rfl).1 position stream rfl
  have unchanged : Registry.syncIdx position
      { s with sourceIndex := Function.update s.sourceIndex stream.name stream.localIdx } =
      { s with sourceIndex := Function.update s.sourceIndex stream.name stream.localIdx } := by
    rw [Registry.syncIdx_eq]
    simp only [found, Function.update_self, ne_eq, not_true_eq_false, if_false]
  rw [unchanged] at synced
  exact wrong (synced found)

end VisionServer.Server
