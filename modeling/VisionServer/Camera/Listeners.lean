/-
This file models the camera registry with the listeners that its cameras register.
-/

import VisionServer.Library.Arena
import VisionServer.Library.Callbacks
import VisionServer.Library.Loop
import VisionServer.Library.Machine

namespace VisionServer.Camera.Listeners
open Library

/-- The name is the one of the source that the handle denotes. A listener handle of zero stands
for no listener. -/
structure VisionCamera where
  name : String
  ntable : String
  topics : Option String
  listener : Nat
deriving DecidableEq

namespace VisionCamera

/-- A new camera has the default table and no listener. -/
def ofSource (name : String) : VisionCamera := ⟨name, "/Cameras/" ++ name, none, 0⟩

/-- The move constructor empties its argument. The table is copied. -/
def movedFrom (camera : VisionCamera) : VisionCamera :=
  { camera with name := "", topics := none, listener := 0 }

/-- The move assignment takes each member from the other camera. -/
def assigned (this other : VisionCamera) : VisionCamera :=
  { this with
    name := other.name
    ntable := other.ntable
    topics := other.topics
    listener := other.listener }

end VisionCamera

/-- The lambda of a listener captures `this`. The topic is the table that it listens to. -/
abbrev Listener := Library.Listener Addr String

/-- The registry is a vector, and the clients hold their cameras at other addresses. -/
structure Server where
  objects : Addr → Option VisionCamera
  registered : List Listener
  cameras : Block
  running : Bool

/-- This is the table of the server. -/
def serverTable : String := "/Vision Server"

namespace Server

def occupied (s : Server) (a : Addr) : Bool := (s.objects a).isSome

def construct (a : Addr) (name : String) (s : Server) : Server :=
  { s with objects := Function.update s.objects a (some (VisionCamera.ofSource name)) }

def moveConstruct (target source : Addr) (s : Server) : Server :=
  { s with objects := moveObject VisionCamera.movedFrom s.objects target source }

def moveAssign (target source : Addr) (s : Server) : Server :=
  match s.objects target, s.objects source with
  | some this, some other =>
      let objects := Function.update s.objects target (some (this.assigned other))
      { s with objects := Function.update objects source (some other.movedFrom) }
  | _, _ => s

/-- The destructor removes the listener of the camera. -/
def destroy (a : Addr) (s : Server) : Server :=
  match s.objects a with
  | none => s
  | some camera =>
      { s with
        objects := Function.update s.objects a none
        registered := removeListener camera.listener s.registered }

/-- The table becomes a subtable of the given one. -/
def setNetworkBase (table : String) (a : Addr) (s : Server) : Server :=
  match s.objects a with
  | none => s
  | some camera =>
      let camera := { camera with ntable := table ++ "/Cameras/" ++ camera.name }
      { s with objects := Function.update s.objects a (some camera) }

/-- The topics are published, the old listener is removed and a new one captures `this`. The new
handle is any unused one. -/
def setNetworkAdjustable (a : Addr) (handle : Nat) (s : Server) : Option Server :=
  match s.objects a with
  | none => none
  | some camera =>
      let kept := removeListener camera.listener s.registered
      if handle ≠ 0 ∧ ∀ listener ∈ kept, listener.id ≠ handle then
        let camera := { camera with topics := some camera.ntable, listener := handle }
        some { s with
          objects := Function.update s.objects a (some camera)
          registered := kept ++ [⟨handle, a, camera.ntable⟩] }
      else none

/-- The body of the loops registers the camera at an index. -/
def register (index handle : Nat) (s : Server) : Option Server :=
  (s.setNetworkBase serverTable (s.cameras.slot index)).setNetworkAdjustable
    (s.cameras.slot index) handle

def registerFrom (index : Nat) : List Nat → Server → Option Server
  | [], s => some s
  | handle :: rest, s => (s.register index handle).bind (registerFrom (index + 1) rest)

/-- The new buffer holds enough elements and overlaps no object. -/
def Allocates (s : Server) (buffer capacity count : Nat) : Prop :=
  count ≤ capacity ∧ ∀ index < capacity,
    s.objects ⟨buffer, index⟩ = none ∧ ¬ s.cameras.Inside ⟨buffer, index⟩

instance (s : Server) (buffer capacity count : Nat) : Decidable (s.Allocates buffer capacity count) :=
  inferInstanceAs (Decidable (_ ∧ _))

/-- A growing vector moves an element to the new buffer and destroys it in the old one. -/
def relocate (buffer index : Nat) (s : Server) : Server :=
  (s.moveConstruct ⟨buffer, index⟩ (s.cameras.slot index)).destroy (s.cameras.slot index)

def grow (buffer capacity : Nat) (s : Server) : Server :=
  { forUp (relocate buffer) s.cameras.size s with cameras := ⟨buffer, s.cameras.size, capacity⟩ }

/-- This is `emplace_back(std::move(c))`. The new element is built before the others move. -/
def emplaceBack (c : Addr) (buffer capacity : Nat) (s : Server) : Option Server :=
  let size := s.cameras.size
  if size < s.cameras.capacity then
    let s := s.moveConstruct (s.cameras.slot size) c
    some { s with cameras := { s.cameras with size := size + 1 } }
  else if s.Allocates buffer capacity (size + 1) then
    let s := (s.moveConstruct ⟨buffer, size⟩ c).grow buffer capacity
    some { s with cameras := { s.cameras with size := size + 1 } }
  else none

def reserve (count buffer capacity : Nat) (s : Server) : Option Server :=
  if count ≤ s.cameras.capacity then some s
  else if s.Allocates buffer capacity count then some (s.grow buffer capacity)
  else none

/-- The insertion at the end goes through move iterators. -/
def insertEnd (source index : Nat) (s : Server) : Server :=
  { s.moveConstruct (s.cameras.slot s.cameras.size) ⟨source, index⟩ with
    cameras := { s.cameras with size := s.cameras.size + 1 } }

/-- This destroys the first elements of a buffer. -/
def clear (buffer count : Nat) (s : Server) : Server :=
  forUp (fun index s => s.destroy ⟨buffer, index⟩) count s

/-- The registry is not changed while a loop runs. -/
def unlessRunning (body : Server → Option Server) (s : Server) : Option (Bool × Server) :=
  if s.running then some (false, s) else (body s).map fun after => (true, after)

def addCamera (c : Addr) (buffer capacity handle : Nat) : Server → Option (Bool × Server) :=
  unlessRunning fun s =>
    (s.emplaceBack c buffer capacity).bind fun s => s.register (s.cameras.size - 1) handle

/-- The argument is a vector at `source` with one handle for each registration to come. -/
def addCameras (source : Nat) (handles : List Nat) (buffer capacity : Nat) :
    Server → Option (Bool × Server) :=
  unlessRunning fun s =>
    let num := handles.length
    (s.reserve (s.cameras.size + num) buffer capacity).bind fun s =>
      let s := forUp (insertEnd source) num s
      let s := s.clear source num
      s.registerFrom (s.cameras.size - num) handles

/-- The old elements are destroyed, and the registry takes over the buffer of its argument. -/
def setCameras (source : Block) (handles : List Nat) : Server → Option (Bool × Server) :=
  unlessRunning fun s =>
    let s := s.clear s.cameras.buffer s.cameras.size
    let s := { s with cameras := source }
    s.registerFrom 0 handles

/-- A remote update of a table runs the callbacks of its listeners at these addresses. -/
def callbacks (s : Server) (table : String) : List Addr :=
  (s.registered.filter fun listener => listener.topic = table).map Listener.captured

end Server

/-- These are the operations of a history. -/
inductive Op where
  | construct (a : Addr) (name : String)
  | moveConstruct (target source : Addr)
  | moveAssign (target source : Addr)
  | setNetworkAdjustable (a : Addr) (handle : Nat)
  | destroy (a : Addr)
  | addCamera (c : Addr) (buffer capacity handle : Nat)
  | addCameras (source : Nat) (handles : List Nat) (buffer capacity : Nat)
  | setCameras (source : Block) (handles : List Nat)
  | setRunning (running : Bool)

/-- The vector of a client lies outside the registry, and its elements are the live objects of
its buffer. -/
def Server.Owns (s : Server) (source : Block) : Prop :=
  source.size ≤ source.capacity ∧ ∀ index < source.capacity,
    ¬ s.cameras.Inside (source.slot index) ∧
      (s.occupied (source.slot index) = true ↔ index < source.size)

instance (s : Server) (source : Block) : Decidable (s.Owns source) :=
  inferInstanceAs (Decidable (_ ∧ _))

/-- A client constructs and destroys objects outside the registry only. -/
def step (s : Server) : Op → Option Server
  | .construct a name =>
      if s.objects a = none ∧ ¬ s.cameras.Inside a then some (s.construct a name) else none
  | .moveConstruct target source =>
      if s.objects target = none ∧ ¬ s.cameras.Inside target ∧ s.occupied source then
        some (s.moveConstruct target source)
      else none
  | .moveAssign target source =>
      if s.occupied target ∧ s.occupied source then some (s.moveAssign target source) else none
  | .setNetworkAdjustable a handle => s.setNetworkAdjustable a handle
  | .destroy a => if s.occupied a ∧ ¬ s.cameras.Inside a then some (s.destroy a) else none
  | .addCamera c buffer capacity handle =>
      if s.occupied c then (s.addCamera c buffer capacity handle).map Prod.snd else none
  | .addCameras source handles buffer capacity =>
      if s.Owns ⟨source, handles.length, handles.length⟩ then
        (s.addCameras source handles buffer capacity).map Prod.snd
      else none
  | .setCameras source handles =>
      if s.Owns source ∧ handles.length = source.size then
        (s.setCameras source handles).map Prod.snd
      else none
  | .setRunning running => some { s with running := running }

def machine : Machine Server Op := ⟨step⟩

def initial : Server := ⟨fun _ => none, [], ⟨0, 0, 0⟩, false⟩

end VisionServer.Camera.Listeners
