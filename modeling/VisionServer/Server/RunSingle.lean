/-
This file models the loop of `runSingle` and decides when it feeds the active pipeline from the
selected camera.
-/

import VisionServer.Library.Sessions
import VisionServer.Server.Frames

namespace VisionServer.Server
open Library

/-- The loop remembers the two indices. The calls on the pipelines are recorded, and so is an access
outside a vector, after which the source language promises nothing. -/
structure SingleLoop where
  pIdx : Nat
  cIdx : Int
  server : Registry
  calls : List (Event BasePipe)
  outside : Bool

namespace SingleLoop

def call (event : Event BasePipe) (s : SingleLoop) : SingleLoop :=
  { s with calls := s.calls ++ [event] }

/-- This is an access to `pipelines[p_idx]`. -/
def onActive (body : BasePipe → SingleLoop → SingleLoop) (s : SingleLoop) : SingleLoop :=
  match s.server.pipelines[s.pIdx]? with
  | none => { s with outside := true }
  | some pipe => body pipe s

/-- The call returns at once while a loop runs and without a pipeline. Otherwise it opens the first
pipeline. -/
def start (s : Registry) : Option SingleLoop :=
  if s.isRunning = false ∧ s.numPipelines > 0 then
    some (onActive (fun pipe => call (.opened pipe)) ⟨0, 0, { s with isRunning := true }, [], false⟩)
  else none

/-- A new index in range closes the active pipeline and opens another one, which every stream shows. -/
def switchPipeline (n : Int) (s : SingleLoop) : SingleLoop :=
  if n ≠ s.pIdx + 1 ∧ n > 0 ∧ n ≤ s.server.numPipelines then
    let s := s.onActive fun pipe => call (.closed pipe)
    let s := { s with pIdx := n.toNat - 1 }
    let s := s.onActive fun pipe => call (.opened pipe)
    { s with server := s.server.forStreams fun position => Registry.setSourceIdx position n }
  else s

/-- This is `setCamera` for the active pipeline. -/
def attachCamera (cam : Nat) : SingleLoop → SingleLoop :=
  onActive fun pipe s =>
    { s with server := { s.server with inputs := s.server.inputs.setCamera pipe cam } }

/-- The index counts from one, and the access takes it as it is. -/
def switchCamera (m : Int) (s : SingleLoop) : SingleLoop :=
  if m ≠ s.cIdx then
    let s := { s with cIdx := m }
    if m > 0 ∧ m ≤ s.server.numCameras then
      match s.server.cameras[m.toNat]? with
      | none => { s with outside := true }
      | some cam => s.attachCamera cam
    else s
  else s

def syncStreams (s : SingleLoop) : SingleLoop :=
  { s with server := s.server.forStreams Registry.syncIdx }

/-- This is an iteration up to its processing step. -/
def handleIndices (n m : Int) (s : SingleLoop) : SingleLoop :=
  ((s.switchPipeline n).switchCamera m).syncStreams

/-- A frame is processed when processing is enabled and the input has one. -/
def processFrame (grabbed : Bool) (s : SingleLoop) : SingleLoop :=
  if grabbed then s.onActive fun pipe => call (.used pipe) else s

/-- This is the end of the call. -/
def finish : SingleLoop → SingleLoop := onActive fun pipe => call (.closed pipe)

end SingleLoop

/-- An iteration reads two indices. Clients write to the tables of the streams in between. -/
inductive SingleStep where
  | iterate (n m : Int) (grabbed : Bool)
  | remoteWrite (name : String) (i : Int)

def singleMachine : Machine SingleLoop SingleStep where
  step s
    | .iterate n m grabbed =>
        if IsInt n ∧ IsInt m then some ((s.handleIndices n m).processFrame grabbed) else none
    | .remoteWrite name i =>
        if IsInt i then
          some { s with server := { s.server with
            sourceIndex := Function.update s.server.sourceIndex name i } }
        else none

/-- This is the place of the pipeline that an index makes active. -/
def activeAfter (s : SingleLoop) (n : Int) : Nat :=
  if n > 0 ∧ n ≤ s.server.numPipelines then n.toNat - 1 else s.pIdx

/-- The active pipeline is registered. -/
def Active (s : SingleLoop) : Prop := s.pIdx < s.server.pipelines.length

/-- The registered pipeline at the active place. -/
theorem Active.exists_pipe {s : SingleLoop} (active : Active s) :
    ∃ pipe, s.server.pipelines[s.pIdx]? = some pipe :=
  ⟨_, List.getElem?_eq_getElem active⟩

theorem onActive_eq {s : SingleLoop} {pipe : BasePipe}
    (active : s.server.pipelines[s.pIdx]? = some pipe) (body : BasePipe → SingleLoop → SingleLoop) :
    s.onActive body = body pipe s := by
  rw [SingleLoop.onActive, active]

theorem attachCamera_eq {s : SingleLoop} {pipe : BasePipe}
    (active : s.server.pipelines[s.pIdx]? = some pipe) (cam : Nat) :
    s.attachCamera cam =
      { s with server := { s.server with inputs := s.server.inputs.setCamera pipe cam } } :=
  onActive_eq active _

/-- The active pipeline stays open, or an index in range closes it and opens another one. -/
def Reopened (s : SingleLoop) (n : Int) (next : SingleLoop) : Prop :=
  next.calls = s.calls ∧ next.pIdx = s.pIdx ∨
    ∃ before after, s.server.pipelines[s.pIdx]? = some before ∧
      s.server.pipelines[next.pIdx]? = some after ∧ (1 ≤ n ∧ n ≤ s.server.numPipelines) ∧
        next.calls = s.calls ++ [.closed before, .opened after]

/-- This is what an iteration does with a new pipeline index. -/
structure Switched (s : SingleLoop) (n : Int) (next : SingleLoop) : Prop where
  active : next.pIdx = activeAfter s n
  camera : next.cIdx = s.cIdx
  sources : SameSources s.server next.server
  inside : next.outside = s.outside
  calls : Reopened s n next

theorem switchPipeline_switched {s : SingleLoop} (active : Active s) (n : Int) :
    Switched s n (s.switchPipeline n) := by
  obtain ⟨before, old⟩ := active.exists_pipe
  unfold SingleLoop.switchPipeline
  by_cases switches : n ≠ s.pIdx + 1 ∧ n > 0 ∧ n ≤ s.server.numPipelines
  · have within := switches.2.2
    have index : n.toNat - 1 < s.server.pipelines.length := by
      simp only [Registry.numPipelines] at within
      omega
    have new := List.getElem?_eq_getElem index
    have closed : s.onActive (fun pipe => SingleLoop.call (.closed pipe)) = s.call (.closed before) :=
      onActive_eq old _
    have opened : ({ s.call (.closed before) with pIdx := n.toNat - 1 } : SingleLoop).onActive
          (fun pipe => SingleLoop.call (.opened pipe)) =
        SingleLoop.call (.opened (s.server.pipelines[n.toNat - 1]))
          { s.call (.closed before) with pIdx := n.toNat - 1 } := onActive_eq new _
    rw [if_pos switches]
    dsimp only
    rw [closed, opened]
    refine ⟨?_, rfl, forStreams_setSourceIdx_same n s.server, rfl, Or.inr ?_⟩
    · rw [activeAfter, if_pos switches.2]
      rfl
    · refine ⟨before, _, old, new, ⟨by omega, within⟩, ?_⟩
      exact List.append_assoc s.calls _ _
  · rw [if_neg switches]
    refine ⟨?_, rfl, SameSources.refl _, rfl, Or.inl ⟨rfl, rfl⟩⟩
    unfold activeAfter
    split
    · omega
    · rfl

/-- The pipeline that an index makes active is registered. -/
theorem activeAfter_lt {s : SingleLoop} (active : Active s) (n : Int) :
    activeAfter s n < s.server.pipelines.length := by
  unfold activeAfter
  split
  · rename_i within
    have high := within.2
    simp only [Registry.numPipelines] at high
    omega
  · exact active

/-- This is what an iteration does with a camera index. -/
inductive CameraSwitched (s : SingleLoop) (m : Int) (next : SingleLoop) : Prop where
  | kept (idle : m = s.cIdx ∨ ¬ (1 ≤ m ∧ m ≤ s.server.numCameras))
      (inputs : next.server.inputs = s.server.inputs) (inside : next.outside = s.outside)
  | outside (new : m ≠ s.cIdx) (range : 1 ≤ m ∧ m ≤ s.server.numCameras)
      (missing : s.server.cameras[m.toNat]? = none) (left : next.outside = true)
  | attached (new : m ≠ s.cIdx) (range : 1 ≤ m ∧ m ≤ s.server.numCameras) (cam : Nat)
      (found : s.server.cameras[m.toNat]? = some cam) (pipe : BasePipe)
      (active : s.server.pipelines[next.pIdx]? = some pipe)
      (inputs : next.server.inputs = s.server.inputs.setCamera pipe cam)
      (inside : next.outside = s.outside)

/-- The change of the camera leaves the rest of the loop alone. -/
structure SameLoop (s next : SingleLoop) : Prop where
  active : next.pIdx = s.pIdx
  cameras : next.server.cameras = s.server.cameras
  pipelines : next.server.pipelines = s.server.pipelines
  calls : next.calls = s.calls

theorem switchCamera_switched {s : SingleLoop} (active : Active s) (m : Int) :
    CameraSwitched s m (s.switchCamera m) ∧ SameLoop s (s.switchCamera m) := by
  obtain ⟨pipe, here⟩ := active.exists_pipe
  unfold SingleLoop.switchCamera
  by_cases new : m = s.cIdx
  · rw [if_neg (not_not.mpr new)]
    exact ⟨.kept (Or.inl new) rfl rfl, rfl, rfl, rfl, rfl⟩
  · rw [if_pos new]
    dsimp only
    by_cases range : m > 0 ∧ m ≤ s.server.numCameras
    · have low : 1 ≤ m := by omega
      rw [if_pos range]
      cases found : s.server.cameras[m.toNat]? with
      | none => exact ⟨.outside new ⟨low, range.2⟩ found rfl, rfl, rfl, rfl, rfl⟩
      | some cam =>
          dsimp only
          rw [attachCamera_eq (s := { s with cIdx := m }) here]
          exact ⟨.attached new ⟨low, range.2⟩ cam found pipe here rfl rfl, rfl, rfl, rfl, rfl⟩
    · rw [if_neg range]
      exact ⟨.kept (Or.inr fun given => range ⟨by omega, given.2⟩) rfl rfl, rfl, rfl, rfl, rfl⟩

/-- The change of the camera can be seen before the pipeline was switched and after the streams were
synchronized. -/
theorem CameraSwitched.congr {s t u v : SingleLoop} {m : Int} (switched : CameraSwitched t m u)
    (camera : t.cIdx = s.cIdx) (before : SameSources s.server t.server) (old : t.outside = s.outside)
    (after : SameSources u.server v.server) (active : v.pIdx = u.pIdx) (last : v.outside = u.outside) :
    CameraSwitched s m v := by
  have count : t.server.numCameras = s.server.numCameras := congrArg List.length before.cameras
  cases switched with
  | kept idle inputs inside =>
      rw [camera, count] at idle
      refine .kept idle ?_ (last.trans (inside.trans old))
      rw [after.inputs, inputs, before.inputs]
  | outside new range missing left =>
      rw [camera] at new
      rw [count] at range
      rw [before.cameras] at missing
      exact .outside new range missing (last.trans left)
  | attached new range cam found pipe here inputs inside =>
      rw [camera] at new
      rw [count] at range
      rw [before.cameras] at found
      rw [before.pipelines, ← active] at here
      refine .attached new range cam found pipe here ?_ (last.trans (inside.trans old))
      rw [after.inputs, inputs, before.inputs]

/-- This is what an iteration does before its processing step. -/
structure Handled (s : SingleLoop) (n m : Int) (next : SingleLoop) : Prop where
  active : next.pIdx = activeAfter s n
  cameras : next.server.cameras = s.server.cameras
  pipelines : next.server.pipelines = s.server.pipelines
  calls : Reopened s n next
  camera : CameraSwitched s m next

theorem handleIndices_handled {s : SingleLoop} (sound : Active s) (n m : Int) :
    Handled s n m (s.handleIndices n m) := by
  have pipeline := switchPipeline_switched sound n
  have next : Active (s.switchPipeline n) := by
    rw [Active, pipeline.sources.pipelines, pipeline.active]
    exact activeAfter_lt sound n
  obtain ⟨camera, same⟩ := switchCamera_switched next m
  have synced := forStreams_syncIdx_same ((s.switchPipeline n).switchCamera m).server
  constructor
  · exact same.active.trans pipeline.active
  · exact synced.cameras.trans (same.cameras.trans pipeline.sources.cameras)
  · exact synced.pipelines.trans (same.pipelines.trans pipeline.sources.pipelines)
  · have calls := pipeline.calls
    rw [Reopened, ← same.calls, ← same.active] at calls
    exact calls
  · exact camera.congr pipeline.camera pipeline.sources pipeline.inside synced rfl rfl

/-- The processing step only calls the active pipeline. -/
theorem processFrame_eq {s : SingleLoop} {pipe : BasePipe}
    (active : s.server.pipelines[s.pIdx]? = some pipe) (grabbed : Bool) :
    s.processFrame grabbed =
      { s with calls := s.calls ++ if grabbed then [.used pipe] else [] } := by
  cases grabbed with
  | false => simp [SingleLoop.processFrame]
  | true => exact onActive_eq active _

/-- After an iteration the active pipeline is registered. -/
theorem Handled.active_next {s next : SingleLoop} {n m : Int} (active : Active s)
    (handled : Handled s n m next) : Active next := by
  rw [Active, handled.pipelines, handled.active]
  exact activeAfter_lt active n

/-- The accesses stay inside the vectors, and the active pipeline is fed by the selected camera. -/
def SelectsCamera (_ : SingleLoop) (label : SingleStep) (next : SingleLoop) : Prop :=
  next.outside = false ∧ ∀ n m grabbed, label = .iterate n m grabbed →
    1 ≤ m → m ≤ next.server.numCameras → ∃ pipe,
      next.server.pipelines[next.pIdx]? = some pipe ∧
        next.server.inputs.input pipe = (next.server.cameras[(m - 1).toNat]?).map .camera

/-- A new camera index in range names an element that is followed by the same camera. An old one
names the camera that feeds the pipeline which the iteration makes active. -/
def CameraReady (s : SingleLoop) : SingleStep → Prop
  | .iterate n m _ => 1 ≤ m → m ≤ s.server.numCameras →
      if m = s.cIdx then
        ∀ pipe ∈ s.server.pipelines[activeAfter s n]?,
          s.server.inputs.input pipe = (s.server.cameras[(m - 1).toNat]?).map .camera
      else s.server.cameras[m.toNat]? = s.server.cameras[(m - 1).toNat]?
  | .remoteWrite _ _ => True

/-- An index in range names an element. -/
theorem camera_of_range {s : Registry} {m : Int} (low : 1 ≤ m) (high : m ≤ s.numCameras) :
    ∃ cam, s.cameras[(m - 1).toNat]? = some cam := by
  have index : (m - 1).toNat < s.cameras.length := by
    simp only [Registry.numCameras] at high
    omega
  exact ⟨_, List.getElem?_eq_getElem index⟩

/-- The index handling is right exactly when the camera was ready. -/
theorem handled_selectsCamera_iff {s next : SingleLoop} (before : Active s)
    (clean : s.outside = false) {n m : Int} (handled : Handled s n m next) (grabbed : Bool) :
    SelectsCamera s (.iterate n m grabbed) next ↔ CameraReady s (.iterate n m grabbed) := by
  obtain ⟨pipe, active⟩ := (handled.active_next before).exists_pipe
  have registered : s.server.pipelines[activeAfter s n]? = some pipe := by
    rw [← handled.pipelines, ← handled.active, active]
  have count : next.server.numCameras = s.server.numCameras := congrArg List.length handled.cameras
  have feeds_iff : (∀ n' m' grabbed', SingleStep.iterate n m grabbed = .iterate n' m' grabbed' →
      1 ≤ m' → m' ≤ next.server.numCameras → ∃ pipe,
        next.server.pipelines[next.pIdx]? = some pipe ∧
          next.server.inputs.input pipe = (next.server.cameras[(m' - 1).toNat]?).map .camera) ↔
      (1 ≤ m → m ≤ s.server.numCameras →
        next.server.inputs.input pipe = (s.server.cameras[(m - 1).toNat]?).map .camera) := by
    rw [count, handled.cameras]
    constructor
    · intro feeds low high
      obtain ⟨other, here, input⟩ := feeds n m grabbed rfl low high
      obtain rfl : pipe = other := Option.some.inj (active.symm.trans here)
      exact input
    · intro feeds n' m' grabbed' same low high
      cases same
      exact ⟨pipe, active, feeds low high⟩
  rw [SelectsCamera, feeds_iff, CameraReady]
  cases handled.camera with
  | kept idle inputs inside =>
      rw [inside, clean, inputs]
      rcases idle with old | beyond
      · rw [if_pos old, registered]
        simp only [true_and, Option.mem_some, forall_eq']
      · exact iff_of_true ⟨rfl, fun low high => absurd ⟨low, high⟩ beyond⟩
          fun low high => absurd ⟨low, high⟩ beyond
  | outside new range missing left =>
      obtain ⟨cam, found⟩ := camera_of_range range.1 range.2
      rw [left, if_neg new, missing, found]
      exact iff_of_false (fun given => Bool.noConfusion given.1)
        fun ready => (Option.some_ne_none cam).symm (ready range.1 range.2)
  | attached new range cam found other here inputs inside =>
      obtain ⟨named, shown⟩ := camera_of_range range.1 range.2
      obtain rfl : pipe = other := by
        rw [← handled.pipelines] at here
        exact Option.some.inj (active.symm.trans here)
      have input : next.server.inputs.input pipe = some (.camera cam) := by
        rw [inputs]
        exact Function.update_self ..
      rw [inside, clean, if_neg new, found, input, shown]
      simp only [true_and, Option.map_some, Option.some.injEq, VideoSource.camera.injEq]

/-- The first pipeline is open when the loop starts. -/
theorem start_eq {s : Registry} {first : SingleLoop} (started : SingleLoop.start s = some first) :
    ∃ pipe, s.pipelines[0]? = some pipe ∧
      first = ⟨0, 0, { s with isRunning := true }, [.opened pipe], false⟩ := by
  obtain ⟨idle, shape⟩ := Option.ite_none_right_eq_some.mp started
  have registered := List.getElem?_eq_getElem (l := s.pipelines) idle.2
  have opened : SingleLoop.onActive (fun pipe => SingleLoop.call (.opened pipe))
      ⟨0, 0, { s with isRunning := true }, [], false⟩ = _ := onActive_eq registered _
  rw [opened] at shape
  exact ⟨_, registered, (Option.some.inj shape).symm⟩

/-- An iteration handles the indices and may process a frame. -/
theorem step_iterate_eq {s next : SingleLoop} (active : Active s) {n m : Int} {grabbed : Bool}
    (taken : singleMachine.step s (.iterate n m grabbed) = some next) :
    ∃ pipe, (s.handleIndices n m).server.pipelines[(s.handleIndices n m).pIdx]? = some pipe ∧
      next = { s.handleIndices n m with
        calls := (s.handleIndices n m).calls ++ if grabbed then [.used pipe] else [] } := by
  have shape := Option.some.inj (Option.ite_none_right_eq_some.mp taken).2
  obtain ⟨pipe, here⟩ := ((handleIndices_handled active n m).active_next active).exists_pipe
  refine ⟨pipe, here, ?_⟩
  rw [← shape]
  exact processFrame_eq here grabbed

/-- The active pipeline stays registered. -/
theorem step_active {s next : SingleLoop} (active : Active s) {label : SingleStep}
    (taken : singleMachine.step s label = some next) : Active next := by
  cases label with
  | iterate n m grabbed =>
      obtain ⟨pipe, _, shape⟩ := step_iterate_eq active taken
      have handled : Active (s.handleIndices n m) :=
        (handleIndices_handled active n m).active_next active
      rw [shape]
      exact handled
  | remoteWrite name i =>
      have shape := Option.some.inj (Option.ite_none_right_eq_some.mp taken).2
      rw [← shape]
      exact active

/-- A step selects the camera exactly when the camera was ready. -/
theorem step_selectsCamera_iff {s next : SingleLoop} (active : Active s) (clean : s.outside = false)
    {label : SingleStep} (taken : singleMachine.step s label = some next) :
    SelectsCamera s label next ↔ CameraReady s label := by
  cases label with
  | iterate n m grabbed =>
      obtain ⟨pipe, _, shape⟩ := step_iterate_eq active taken
      rw [shape]
      exact handled_selectsCamera_iff active clean (handleIndices_handled active n m) grabbed
  | remoteWrite name i =>
      have shape := Option.some.inj (Option.ite_none_right_eq_some.mp taken).2
      rw [← shape]
      exact iff_of_true ⟨clean, fun _ _ _ other => SingleStep.noConfusion other⟩ trivial

/-- Every iteration of a run selects its camera exactly when each camera was ready. -/
theorem selectsCamera_iff {s : Registry} {first : SingleLoop}
    (started : SingleLoop.start s = some first) (steps : List SingleStep) :
    singleMachine.Along SelectsCamera first steps ↔ singleMachine.Meets CameraReady first steps := by
  obtain ⟨pipe, registered, shape⟩ := start_eq started
  have ground : Active first ∧ first.outside = false := by
    rw [shape]
    exact ⟨(List.getElem?_eq_some_iff.mp registered).1, rfl⟩
  have supported (t : SingleLoop) (label : SingleStep) (next : SingleLoop)
      (before : Active t ∧ t.outside = false) (taken : singleMachine.step t label = some next)
      (selects : SelectsCamera t label next) : Active next ∧ next.outside = false :=
    ⟨step_active before.1 taken, selects.1⟩
  have exact_step (t : SingleLoop) (label : SingleStep) (next : SingleLoop)
      (before : Active t ∧ t.outside = false) (taken : singleMachine.step t label = some next) :
      SelectsCamera t label next ↔ CameraReady t label :=
    step_selectsCamera_iff before.1 before.2 taken
  exact singleMachine.along_iff_meets supported exact_step ground steps

/-- Two cameras are registered, and a client asks for the first one and then for the second one. -/
theorem twoCameras_selectsCamera_iff :
    ∃ first, SingleLoop.start ((initial.addCameras [7, 8]).server.addPipeline (.user 1)).server =
        some first ∧
      (singleMachine.Along SelectsCamera first [.iterate 1 1 true, .iterate 1 2 true] ↔
        singleMachine.Meets CameraReady first [.iterate 1 1 true, .iterate 1 2 true]) :=
  ⟨_, rfl, selectsCamera_iff
    (s := ((initial.addCameras [7, 8]).server.addPipeline (.user 1)).server) rfl _⟩

/-- The loop starts with the index of the only camera and reads behind the vector. -/
theorem oneCamera_not_selectsCamera :
    ∃ first, SingleLoop.start ((initial.addCamera 7).server.addPipeline (.user 1)).server =
        some first ∧
      ¬ singleMachine.Along SelectsCamera first [.iterate 1 1 true] := by
  refine ⟨_, rfl, fun along => ?_⟩
  have inside := (along _ rfl).1.1
  exact absurd inside (by decide)

/-- The trace is unbroken, and the active pipeline is the open one. -/
def Opened (s : SingleLoop) : Prop :=
  ∃ pipe, s.server.pipelines[s.pIdx]? = some pipe ∧ scan none s.calls = some (some pipe)

/-- An iteration reaches its processing step with the active pipeline open, calls no other one, and
an index out of range changes nothing. -/
def Bracketed (s : SingleLoop) (label : SingleStep) (next : SingleLoop) : Prop :=
  ∀ n m grabbed, label = .iterate n m grabbed →
    Opened (s.handleIndices n m) ∧ Opened next ∧
      (∃ pipe, (s.handleIndices n m).server.pipelines[(s.handleIndices n m).pIdx]? = some pipe ∧
        next.calls = (s.handleIndices n m).calls ++ if grabbed then [.used pipe] else []) ∧
      (¬ (1 ≤ n ∧ n ≤ s.server.numPipelines) →
        next.pIdx = s.pIdx ∧ (s.handleIndices n m).calls = s.calls)

theorem Opened.active {s : SingleLoop} (opened : Opened s) : Active s := by
  obtain ⟨pipe, here, _⟩ := opened
  exact (List.getElem?_eq_some_iff.mp here).1

/-- A switch closes the open pipeline and opens another one. -/
theorem handled_opened {s next : SingleLoop} {n m : Int} (opened : Opened s)
    (handled : Handled s n m next) : Opened next := by
  obtain ⟨current, here, trace⟩ := opened
  rcases handled.calls with ⟨calls, place⟩ | ⟨before, after, old, new, _, calls⟩
  · refine ⟨current, ?_, ?_⟩
    · rw [handled.pipelines, place]
      exact here
    · rw [calls]
      exact trace
  · obtain rfl : current = before := Option.some.inj (here.symm.trans old)
    refine ⟨after, ?_, ?_⟩
    · rw [handled.pipelines]
      exact new
    · rw [calls, scan_append_of trace, scan, follow, if_pos rfl]
      rfl

/-- The processing of a frame keeps the active pipeline open. -/
theorem opened_used {s : SingleLoop} (opened : Opened s) {pipe : BasePipe}
    (active : s.server.pipelines[s.pIdx]? = some pipe) (grabbed : Bool) :
    Opened { s with calls := s.calls ++ if grabbed then [.used pipe] else [] } := by
  obtain ⟨current, here, trace⟩ := opened
  obtain rfl : pipe = current := Option.some.inj (active.symm.trans here)
  refine ⟨pipe, here, ?_⟩
  dsimp only
  rw [scan_append_of trace]
  cases grabbed with
  | false => rfl
  | true =>
      rw [if_pos rfl, scan, follow, if_pos rfl]
      rfl

/-- Every step keeps the brackets. -/
theorem step_bracketed {s next : SingleLoop} (opened : Opened s) {label : SingleStep}
    (taken : singleMachine.step s label = some next) : Bracketed s label next ∧ Opened next := by
  cases label with
  | iterate n m grabbed =>
      have handled := handleIndices_handled opened.active n m
      have ready := handled_opened opened handled
      obtain ⟨pipe, here, shape⟩ := step_iterate_eq opened.active taken
      have after : Opened next := by
        rw [shape]
        exact opened_used ready here grabbed
      refine ⟨fun n' m' grabbed' same => ?_, after⟩
      cases same
      refine ⟨ready, after, ⟨pipe, here, by rw [shape]⟩, fun outside => ?_⟩
      rcases handled.calls with ⟨calls, place⟩ | ⟨_, _, _, _, inRange, _⟩
      · rw [shape]
        exact ⟨place, calls⟩
      · exact absurd inRange outside
  | remoteWrite name i =>
      have shape := Option.some.inj (Option.ite_none_right_eq_some.mp taken).2
      rw [← shape]
      exact ⟨fun _ _ _ other => SingleStep.noConfusion other, opened⟩

/-- The exit closes the open pipeline. -/
theorem finish_settled {s : SingleLoop} (opened : Opened s) : scan none s.finish.calls = some none := by
  obtain ⟨pipe, here, trace⟩ := opened
  have closed : s.finish = s.call (.closed pipe) := onActive_eq here _
  rw [closed]
  change scan none (s.calls ++ [.closed pipe]) = some none
  rw [scan_append_of trace, scan, follow, if_pos rfl]
  rfl

/-- Every run brackets its calls: each iteration processes with the active pipeline open, at most one
pipeline is open at any time, and the whole trace is a sequence of closed sessions. -/
theorem calls_bracketed {s : Registry} {first : SingleLoop}
    (started : SingleLoop.start s = some first) (steps : List SingleStep) :
    singleMachine.Along Bracketed first steps ∧
      ∀ reached, singleMachine.run first steps = some reached →
        (∀ done rest, reached.finish.calls = done ++ rest → ∃ state, scan none done = some state) ∧
          ∃ sessions : List (Session BasePipe),
            reached.finish.calls = sessions.flatMap Session.events := by
  obtain ⟨pipe, registered, shape⟩ := start_eq started
  have ground : Opened first := by
    rw [shape]
    exact ⟨pipe, registered, rfl⟩
  have bracketed := singleMachine.along_of_invariant
    (fun t label next (before : Opened t) taken => step_bracketed before taken) ground steps
  have always := singleMachine.always_of_invariant
    (fun t label next (before : Opened t) taken => (step_bracketed before taken).2) ground steps
  refine ⟨bracketed, fun reached taken => ?_⟩
  have settled := finish_settled (always.last singleMachine taken)
  refine ⟨fun done rest split => ?_, (scan_settled_iff _).mp settled⟩
  rw [split] at settled
  exact scan_prefix settled

/-- A client switches to the second pipeline and back. -/
theorem twoPipelines_bracketed :
    ∃ first, SingleLoop.start (initial.addPipelines [.user 1, .user 2]).server = some first ∧
      singleMachine.Along Bracketed first [.iterate 2 1 true, .iterate 1 1 false, .iterate 9 1 true] :=
  ⟨_, rfl, (calls_bracketed (s := (initial.addPipelines [.user 1, .user 2]).server) rfl _).1⟩

end VisionServer.Server
