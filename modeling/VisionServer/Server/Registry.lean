/-
This file models the registries of cameras, pipelines and streams, their published entries and the
runs in between.
-/

import VisionServer.Library.Integers
import VisionServer.Server.Sources

namespace VisionServer.Server
open Library

/-- The access `at` throws outside its vector, and for an unchecked access the language promises
nothing there. -/
inductive CppException where
  | outOfRange
  | undefined
deriving DecidableEq

/-- A stream remembers the last index that it handled. Its table has the name of the stream. -/
structure OutputStream where
  name : String
  localIdx : Int
  source : Option VideoSource
deriving DecidableEq

/-- The cameras are named by their capture sources. The entries hold the published numbers. -/
structure Registry where
  cameras : List Nat
  pipelines : List BasePipe
  heapAllocated : List BasePipe
  created : Nat
  inputs : Inputs
  streams : List OutputStream
  isRunning : Bool
  camerasAvailable : Nat
  pipelinesAvailable : Nat
  sourceIndex : String → Int

/-- A call ends with its result or with an exception, and changes the server in both cases. -/
structure Outcome where
  result : Except CppException Bool
  server : Registry

namespace Registry

def numCameras (s : Registry) : Nat := s.cameras.length

def numPipelines (s : Registry) : Nat := s.pipelines.length

/-- The registries are not changed while a loop runs. -/
def unlessRunning (body : Registry → Registry) (s : Registry) : Outcome :=
  if s.isRunning then ⟨.ok false, s⟩ else ⟨.ok true, body s⟩

/-- This publishes `Cameras Available`. -/
def publishCameras (s : Registry) : Registry := { s with camerasAvailable := s.numCameras }

/-- This publishes `Pipelines Available`. -/
def publishPipelines (s : Registry) : Registry :=
  { s with pipelinesAvailable := s.numPipelines }

def addCamera (c : Nat) : Registry → Outcome :=
  unlessRunning fun s => publishCameras { s with cameras := s.cameras ++ [c] }

def addCameras (cms : List Nat) : Registry → Outcome :=
  unlessRunning fun s => publishCameras { s with cameras := s.cameras ++ cms }

def setCameras (cms : List Nat) : Registry → Outcome :=
  unlessRunning fun s => publishCameras { s with cameras := cms }

/-- This is the overload for a pointer. -/
def addPipeline (p : BasePipe) : Registry → Outcome :=
  unlessRunning fun s => publishPipelines { s with pipelines := s.pipelines ++ [p] }

/-- These are the overloads for a vector and for an initializer list. -/
def addPipelines (ps : List BasePipe) : Registry → Outcome :=
  unlessRunning fun s => publishPipelines { s with pipelines := s.pipelines ++ ps }

/-- These are the overloads for a vector and for an initializer list. -/
def setPipelines (ps : List BasePipe) : Registry → Outcome :=
  unlessRunning fun s => publishPipelines { s with heapAllocated := [], pipelines := ps }

/-- The server allocates a new pipeline object and owns it. -/
def emplaceHeap (s : Registry) : Registry :=
  { s with heapAllocated := s.heapAllocated ++ [.heap s.created], created := s.created + 1 }

/-- The template makes one object for each type and returns their number. -/
def pipeExpander : List String → Registry → Nat × Registry
  | [], s => (0, s)
  | _ :: rest, s =>
      let (count, s) := pipeExpander rest s.emplaceHeap
      (1 + count, s)

/-- This is the template `addPipeline<P>()`. -/
def addPipelineType (_type : String) : Registry → Outcome :=
  unlessRunning fun s =>
    let s := s.emplaceHeap
    { s with pipelines := s.pipelines ++ s.heapAllocated.getLast?.toList }

/-- A `size_t` counts modulo this number. -/
def sizeModulus : Nat := 2 ^ 64

/-- This is the difference of two values of type `size_t`. -/
def sizeSub (a b : Nat) : Nat := (a + (sizeModulus - b)) % sizeModulus

/-- This is the loop of `addPipelines<P...>()`. Its condition `i >= 0` holds for every `size_t`,
so only an exception of `at` ends it. -/
def addLoop : Nat → Nat → Registry → Option Outcome
  | 0, _, _ => none
  | fuel + 1, i, s =>
      match s.heapAllocated[sizeSub (sizeSub s.heapAllocated.length i) 1]? with
      | none => some ⟨.error .outOfRange, s⟩
      | some p => addLoop fuel (sizeSub i 1) { s with pipelines := s.pipelines ++ [p] }

/-- This is the template `addPipelines<P...>()`, where the loop makes two more passes than there are
types at most. -/
def addPipelinesTypes (types : List String) (s : Registry) : Option Outcome :=
  if s.isRunning then some ⟨.ok false, s⟩
  else
    let (alloc, s) := pipeExpander types s
    addLoop (alloc + 2) alloc s

/-- This is the template `setPipelines<P...>()`. -/
def setPipelinesTypes (types : List String) : Registry → Outcome :=
  unlessRunning fun s =>
    let (_, s) := pipeExpander types { s with heapAllocated := [], pipelines := [] }
    { s with pipelines := s.pipelines ++ s.heapAllocated }

/-- A new stream publishes its index. The server that it wraps can have a source already. -/
def emplaceStream (name : String) (source : Option VideoSource) (s : Registry) : Registry :=
  { s with
    streams := s.streams ++ [⟨name, 0, source⟩]
    sourceIndex := Function.update s.sourceIndex name 0 }

/-- The overloads of `addStream` and `addStreams` give the names and the wrapped servers. -/
def addStreams (strms : List (String × Option VideoSource)) : Registry → Outcome :=
  unlessRunning fun s => strms.foldl (fun s strm => s.emplaceStream strm.1 strm.2) s

/-- These are the overloads that name the streams by their number. -/
def addStreamsCount : Nat → Registry → Outcome := fun n =>
  unlessRunning fun s =>
    n.repeat (fun s => s.emplaceStream ("Stream " ++ toString (s.streams.length + 1)) none) s

/-- The element that `at` returns becomes the source. -/
def setSource (src : Option VideoSource) (stream : OutputStream) : OutputStream :=
  { stream with source := src.orElse fun _ => stream.source }

def updateStream (s : Registry) (position : Nat) (stream : OutputStream) : Registry :=
  { s with streams := s.streams.set position stream }

/-- The numbers of elements are converted to `int`. -/
def setSourceIdx (position : Nat) (i : Int) (s : Registry) : Registry :=
  match s.streams[position]? with
  | none => s
  | some stream =>
      if stream.localIdx ≠ i then
        let stream :=
          if i < 0 ∧ i ≥ -toInt32 s.numCameras then setSource ((s.cameras[(-i).toNat - 1]?).map .camera) stream
          else if i > 0 ∧ i ≤ toInt32 s.numPipelines then setSource ((s.pipelines[i.toNat - 1]?).map .pipe) stream
          else stream
        { s.updateStream position { stream with localIdx := i } with
          sourceIndex := Function.update s.sourceIndex stream.name i }
      else s

def setPipelineIdx (position : Nat) (i : Nat) : Registry → Registry :=
  setSourceIdx position (i % 2 ^ 16 : Nat)

def setCameraIdx (position : Nat) (i : Int) : Registry → Registry :=
  setSourceIdx position (-(i % 2 ^ 16))

/-- The index is remembered before the same checks are made again. -/
def syncIdx (position : Nat) (s : Registry) : Registry :=
  match s.streams[position]? with
  | none => s
  | some stream =>
      let nt := s.sourceIndex stream.name
      if nt ≠ stream.localIdx then
        let stream := { stream with localIdx := nt }
        if nt < 0 ∧ nt ≥ -toInt32 s.numCameras then
          s.updateStream position (setSource ((s.cameras[(-nt).toNat - 1]?).map .camera) stream)
        else if nt > 0 ∧ nt ≤ toInt32 s.numPipelines then
          s.updateStream position (setSource ((s.pipelines[nt.toNat - 1]?).map .pipe) stream)
        else s.updateStream position stream
      else s

/-- The source that an index selects. -/
def selected (s : Registry) (i : Int) : Option VideoSource :=
  if i < 0 ∧ i ≥ -toInt32 s.numCameras then (s.cameras[(-i).toNat - 1]?).map .camera
  else if i > 0 ∧ i ≤ toInt32 s.numPipelines then (s.pipelines[i.toNat - 1]?).map .pipe
  else none

/-- A stream takes the source of an index in range and remembers every index. -/
def attach (s : Registry) (i : Int) (stream : OutputStream) : OutputStream :=
  { stream with localIdx := i, source := (s.selected i).orElse fun _ => stream.source }

/-- The checks decide what a stream takes. -/
theorem attach_eq (s : Registry) (i : Int) (stream : OutputStream) : s.attach i stream =
    if i < 0 ∧ i ≥ -toInt32 s.numCameras then
      setSource ((s.cameras[(-i).toNat - 1]?).map .camera) { stream with localIdx := i }
    else if i > 0 ∧ i ≤ toInt32 s.numPipelines then
      setSource ((s.pipelines[i.toNat - 1]?).map .pipe) { stream with localIdx := i }
    else { stream with localIdx := i } := by
  unfold attach selected
  split
  · rfl
  · split <;> rfl

/-- A direct call attaches what its index selects. -/
theorem setSourceIdx_eq (position : Nat) (i : Int) (s : Registry) : s.setSourceIdx position i =
    match s.streams[position]? with
    | none => s
    | some stream =>
        if stream.localIdx ≠ i then
          { s.updateStream position (s.attach i stream) with
            sourceIndex := Function.update s.sourceIndex stream.name i }
        else s := by
  unfold setSourceIdx
  cases s.streams[position]? with
  | none => rfl
  | some stream =>
      dsimp only
      rw [attach_eq]
      by_cases camera : i < 0 ∧ i ≥ -toInt32 s.numCameras
      · simp only [if_pos camera, setSource]
      · by_cases pipeline : i > 0 ∧ i ≤ toInt32 s.numPipelines
        · simp only [if_neg camera, if_pos pipeline, setSource]
        · simp only [if_neg camera, if_neg pipeline]

/-- A synchronization attaches what the published index selects, in the same way. -/
theorem syncIdx_eq (position : Nat) (s : Registry) : s.syncIdx position =
    match s.streams[position]? with
    | none => s
    | some stream =>
        if s.sourceIndex stream.name ≠ stream.localIdx then
          s.updateStream position (s.attach (s.sourceIndex stream.name) stream)
        else s := by
  unfold syncIdx
  cases s.streams[position]? with
  | none => rfl
  | some stream =>
      dsimp only
      rw [attach_eq, apply_ite (s.updateStream position), apply_ite (s.updateStream position)]

/-- This is the loop over the streams in `compensate`. -/
def forStreams (body : Nat → Registry → Registry) (s : Registry) : Registry :=
  (List.range s.streams.length).foldl (fun s position => body position s) s

/-- The index of the first connected camera is stored as an `int16_t`. -/
def firstConnected (connected : Nat → Bool) (s : Registry) : Int :=
  match s.cameras.findIdx? connected with
  | none => -1
  | some i => Int.bmod i (2 ^ 16)

def compensate (connected : Nat → Bool) (s : Registry) : Outcome :=
  let active := s.firstConnected connected
  if active + 1 ≠ 0 then
    if s.pipelines ≠ [] then
      -- a negative index becomes a huge `size_t`, and `at` throws
      match if active < 0 then none else s.cameras[active.toNat]? with
      | none => ⟨.error .outOfRange, s⟩
      | some cam =>
          let inputs := s.pipelines.foldl (fun inputs pipe => inputs.setCamera pipe cam) s.inputs
          let s := { s with inputs := inputs }
          ⟨.ok true, s.forStreams fun position => setPipelineIdx position 1⟩
    else if active < 0 ∧ s.streams ≠ [] then
      -- the message for the first stream reads `cameras[active]` without a check
      ⟨.error .undefined, s.setCameraIdx 0 (active + 1)⟩
    else
      ⟨.ok true, s.forStreams fun position => setCameraIdx position (active + 1)⟩
  else ⟨.ok false, s⟩

end Registry

/-- The processing runs need a pipeline. The raw run does not. -/
inductive RunMode where
  | processing
  | raw

/-- These are the steps of a history. -/
inductive Op where
  | addCamera (c : Nat)
  | addCameras (cms : List Nat)
  | setCameras (cms : List Nat)
  | addPipeline (p : BasePipe)
  | addPipelines (ps : List BasePipe)
  | setPipelines (ps : List BasePipe)
  | addPipelineType (type : String)
  | addPipelinesTypes (types : List String)
  | setPipelinesTypes (types : List String)
  | addStreams (strms : List (String × Option VideoSource))
  | addStreamsCount (n : Nat)
  | compensate (connected : Nat → Bool)
  | start (mode : RunMode)
  | stop
  | syncIdx (position : Nat)
  | setSourceIdx (position : Nat) (i : Int)
  | remoteWrite (name : String) (i : Int)

/-- A value of the type `int`. -/
def IsInt (i : Int) : Prop := -2 ^ 31 ≤ i ∧ i < 2 ^ 31

instance (i : Int) : Decidable (IsInt i) := inferInstanceAs (Decidable (_ ∧ _))

/-- No vector holds as many elements as this. -/
def maxSize : Nat := 2 ^ 63

/-- A loop in another thread can synchronize a stream at any time. A client writes integers that the
server reads as `int`. -/
def step (s : Registry) : Op → Option Registry
  | .addCamera c => some (s.addCamera c).server
  | .addCameras cms => some (s.addCameras cms).server
  | .setCameras cms => some (s.setCameras cms).server
  | .addPipeline p => some (s.addPipeline p).server
  | .addPipelines ps => some (s.addPipelines ps).server
  | .setPipelines ps => some (s.setPipelines ps).server
  | .addPipelineType type => some (s.addPipelineType type).server
  | .addPipelinesTypes types =>
      if s.heapAllocated.length + types.length < maxSize then
        (s.addPipelinesTypes types).map Outcome.server
      else none
  | .setPipelinesTypes types => some (s.setPipelinesTypes types).server
  | .addStreams strms => some (s.addStreams strms).server
  | .addStreamsCount n => some (s.addStreamsCount n).server
  | .compensate connected => some (s.compensate connected).server
  | .start .processing =>
      if s.isRunning = false ∧ 0 < s.numPipelines then some { s with isRunning := true } else some s
  | .start .raw => some { s with isRunning := true }
  | .stop => some { s with isRunning := false }
  | .syncIdx position => some (s.syncIdx position)
  | .setSourceIdx position i => if IsInt i then some (s.setSourceIdx position i) else none
  | .remoteWrite name i =>
      if IsInt i then some { s with sourceIndex := Function.update s.sourceIndex name i } else none

def machine : Machine Registry Op := ⟨step⟩

/-- The constructor publishes two zeros. -/
def initial : Registry where
  cameras := []
  pipelines := []
  heapAllocated := []
  created := 0
  inputs := Sources.initial
  streams := []
  isRunning := false
  camerasAvailable := 0
  pipelinesAvailable := 0
  sourceIndex := fun _ => 0

end VisionServer.Server
