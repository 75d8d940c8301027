/-
This file proves which parts of the server the operations leave as they are.
-/

import VisionServer.Server.Registry

namespace VisionServer.Server
open Library

/-- A direct index change touches the streams and their entries only. -/
theorem setSourceIdx_frame (position : Nat) (i : Int) (s : Registry) :
    ∃ streams sourceIndex, s.setSourceIdx position i =
      { s with streams := streams, sourceIndex := sourceIndex } := by
  rw [Registry.setSourceIdx_eq]
  split
  · exact ⟨s.streams, s.sourceIndex, rfl⟩
  · split
    · exact ⟨_, _, rfl⟩
    · exact ⟨s.streams, s.sourceIndex, rfl⟩

/-- A synchronization touches the streams only. -/
theorem syncIdx_frame (position : Nat) (s : Registry) :
    ∃ streams, s.syncIdx position = { s with streams := streams } := by
  rw [Registry.syncIdx_eq]
  split
  · exact ⟨s.streams, rfl⟩
  · split
    · exact ⟨_, rfl⟩
    · exact ⟨s.streams, rfl⟩

/-- A refused change leaves the server as it is. -/
theorem unlessRunning_server (body : Registry → Registry) (s : Registry) :
    (Registry.unlessRunning body s).server = if s.isRunning then s else body s := by
  unfold Registry.unlessRunning
  split <;> rfl

/-- A property that the body of a loop over a list keeps holds after the loop. -/
theorem foldl_keeps {Item : Type} {property : Registry → Prop} {body : Registry → Item → Registry}
    (preserve : ∀ s item, property s → property (body s item)) (items : List Item) {s : Registry}
    (start : property s) : property (items.foldl body s) :=
  List.foldlRecOn items body start fun t holds item _ => preserve t item holds

/-- A property that the body keeps holds after any number of its turns. -/
theorem repeat_keeps {property : Registry → Prop} {body : Registry → Registry}
    (preserve : ∀ s, property s → property (body s)) (n : Nat) {s : Registry} (start : property s) :
    property (n.repeat body s) := by
  induction n with
  | zero => exact start
  | succ n ih => exact preserve _ ih

/-- The loop over the streams keeps what its body keeps. -/
theorem forStreams_keeps {property : Registry → Prop} {body : Nat → Registry → Registry}
    (preserve : ∀ position s, property s → property (body position s)) {s : Registry}
    (start : property s) : property (s.forStreams body) :=
  foldl_keeps (fun s position => preserve position s) _ start

/-- Two servers have the same registries and the same inputs. -/
structure SameSources (s t : Registry) : Prop where
  cameras : t.cameras = s.cameras
  pipelines : t.pipelines = s.pipelines
  inputs : t.inputs = s.inputs

theorem SameSources.refl (s : Registry) : SameSources s s := ⟨rfl, rfl, rfl⟩

/-- A direct index change touches no source of a pipeline. -/
theorem SameSources.setSourceIdx {s t : Registry} (same : SameSources s t) (position : Nat) (i : Int) :
    SameSources s (t.setSourceIdx position i) := by
  obtain ⟨streams, sourceIndex, shape⟩ := setSourceIdx_frame position i t
  rw [shape]
  exact ⟨same.cameras, same.pipelines, same.inputs⟩

/-- The indices of all streams can be set without touching a source of a pipeline. -/
theorem forStreams_setSourceIdx_same (i : Int) (s : Registry) :
    SameSources s (s.forStreams fun position => Registry.setSourceIdx position i) :=
  forStreams_keeps (fun position _ same => same.setSourceIdx position i) (SameSources.refl s)

/-- The streams can be synchronized without touching a source of a pipeline. -/
theorem forStreams_syncIdx_same (s : Registry) : SameSources s (s.forStreams Registry.syncIdx) := by
  apply forStreams_keeps _ (SameSources.refl s)
  intro position t same
  obtain ⟨streams, shape⟩ := syncIdx_frame position t
  rw [shape]
  exact ⟨same.cameras, same.pipelines, same.inputs⟩

/-- A compensation only changes inputs and streams, through `setSourceIdx`. -/
theorem compensate_keeps {property : Registry → Prop}
    (inputs : ∀ s given, property s → property { s with inputs := given })
    (streams : ∀ s position i, IsInt i → property s → property (s.setSourceIdx position i))
    (connected : Nat → Bool) {s : Registry} (start : property s) :
    property (s.compensate connected).server := by
  have pipe (position : Nat) (s : Registry) (before : property s) :
      property (s.setPipelineIdx position 1) :=
    streams s position _ (by decide) before
  have camera (i : Int) (position : Nat) (s : Registry) (before : property s) :
      property (s.setCameraIdx position i) := by
    apply streams s position _ _ before
    constructor <;> omega
  unfold Registry.compensate
  dsimp only
  split
  · split
    · split
      · exact start
      · exact forStreams_keeps pipe (inputs _ _ start)
    · split
      · exact camera _ 0 s start
      · exact forStreams_keeps (camera _) start
  · exact start

/-- Some operations change the cameras or the pipelines. -/
def Op.changesRegistries : Op → Bool
  | .addCamera _ | .addCameras _ | .setCameras _ => true
  | .addPipeline _ | .addPipelines _ | .setPipelines _ => true
  | .addPipelineType _ | .addPipelinesTypes _ | .setPipelinesTypes _ => true
  | _ => false

/-- The property is kept by every change of the inputs, the streams, their entries and the flag. -/
structure Framed (property : Registry → Prop) : Prop where
  inputs : ∀ s given, property s → property { s with inputs := given }
  flag : ∀ s given, property s → property { s with isRunning := given }
  entries : ∀ s given, property s → property { s with sourceIndex := given }
  emplaceStream : ∀ s name source, property s → property (s.emplaceStream name source)
  setSourceIdx : ∀ s position i, property s → property (s.setSourceIdx position i)
  syncIdx : ∀ s position, property s → property (s.syncIdx position)

/-- A property of the registries alone is kept by the other operations. -/
theorem Framed.of_registries {property : Registry → Prop}
    (alone : ∀ (s : Registry) inputs streams flag sourceIndex, property s →
      property { s with
        inputs := inputs, streams := streams, isRunning := flag, sourceIndex := sourceIndex }) :
    Framed property where
  inputs s given holds := alone s given s.streams s.isRunning s.sourceIndex holds
  flag s given holds := alone s s.inputs s.streams given s.sourceIndex holds
  entries s given holds := alone s s.inputs s.streams s.isRunning given holds
  emplaceStream s _ _ holds := alone s s.inputs _ s.isRunning _ holds
  setSourceIdx s position i holds := by
    obtain ⟨streams, sourceIndex, shape⟩ := setSourceIdx_frame position i s
    rw [shape]
    exact alone s s.inputs streams s.isRunning sourceIndex holds
  syncIdx s position holds := by
    obtain ⟨streams, shape⟩ := syncIdx_frame position s
    rw [shape]
    exact alone s s.inputs streams s.isRunning s.sourceIndex holds

/-- A step that changes no registry keeps such a property. -/
theorem Framed.step {property : Registry → Prop} (framed : Framed property) {s next : Registry}
    {op : Op} (outside : op.changesRegistries = false) (taken : step s op = some next)
    (holds : property s) : property next := by
  cases op with
  | addStreams strms =>
      rw [← Option.some.inj taken, Registry.addStreams, unlessRunning_server]
      split
      · exact holds
      · exact foldl_keeps (fun t strm => framed.emplaceStream t strm.1 strm.2) strms holds
  | addStreamsCount n =>
      rw [← Option.some.inj taken, Registry.addStreamsCount, unlessRunning_server]
      split
      · exact holds
      · exact repeat_keeps (fun t => framed.emplaceStream t _ none) n holds
  | compensate connected =>
      rw [← Option.some.inj taken]
      exact compensate_keeps framed.inputs (fun t position i _ => framed.setSourceIdx t position i)
        connected holds
  | start mode =>
      cases mode with
      | processing =>
          simp only [VisionServer.Server.step] at taken
          split at taken
          · rw [← Option.some.inj taken]
            exact framed.flag s true holds
          · rw [← Option.some.inj taken]
            exact holds
      | raw =>
          rw [← Option.some.inj taken]
          exact framed.flag s true holds
  | stop =>
      rw [← Option.some.inj taken]
      exact framed.flag s false holds
  | syncIdx position =>
      rw [← Option.some.inj taken]
      exact framed.syncIdx s position holds
  | setSourceIdx position i =>
      simp only [VisionServer.Server.step, Option.ite_none_right_eq_some, Option.some.injEq] at taken
      rw [← taken.2]
      exact framed.setSourceIdx s position i holds
  | remoteWrite name i =>
      simp only [VisionServer.Server.step, Option.ite_none_right_eq_some, Option.some.injEq] at taken
      rw [← taken.2]
      exact framed.entries s _ holds
  | addCamera | addCameras | setCameras | addPipeline | addPipelines | setPipelines
  | addPipelineType | addPipelinesTypes | setPipelinesTypes => cases outside

end VisionServer.Server
