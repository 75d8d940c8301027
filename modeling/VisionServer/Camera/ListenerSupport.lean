/-
This file proves what every operation of the camera registry keeps: each listener handle has one
owner, and the vector holds its elements.
-/

import VisionServer.Camera.Listeners

namespace VisionServer.Camera.Listeners
open Library

namespace Server

/-- The listener handle of the object at an address, or zero. -/
def handleAt (s : Server) (a : Addr) : Nat := (s.objects a).elim 0 VisionCamera.listener

theorem handleAt_of_some {s : Server} {a : Addr} {camera : VisionCamera}
    (present : s.objects a = some camera) : s.handleAt a = camera.listener := by
  rw [handleAt, present]
  rfl

theorem occupied_iff {s : Server} {a : Addr} :
    s.occupied a = true ↔ ∃ camera, s.objects a = some camera := Option.isSome_iff_exists

/-- Only an object has a listener. -/
theorem occupied_of_handle {s : Server} {a : Addr} (used : s.handleAt a ≠ 0) :
    s.occupied a = true := by
  unfold handleAt at used
  cases present : s.objects a with
  | none => exact absurd (by rw [present]; rfl) used
  | some camera => rw [occupied, present]; rfl

end Server

/-- The elements of the registry are the live objects of its buffer. -/
structure Laid (s : Server) : Prop where
  bounded : s.cameras.size ≤ s.cameras.capacity
  elements : ∀ index < s.cameras.capacity,
    s.occupied (s.cameras.slot index) = true ↔ index < s.cameras.size

/-- Every history keeps the ownership of the listeners and the layout of the registry. -/
structure Supported (s : Server) : Prop where
  owned : Owned s.handleAt s.registered
  laid : Laid s

theorem Laid.element {s : Server} (laid : Laid s) {index : Nat} (within : index < s.cameras.size) :
    s.occupied (s.cameras.slot index) = true :=
  (laid.elements index (Nat.lt_of_lt_of_le within laid.bounded)).mpr within

/-- The layout depends on the occupied places of the registry only. -/
theorem Laid.congr {s next : Server} (laid : Laid s) (same : next.cameras = s.cameras)
    (occupied : ∀ a, s.cameras.Inside a → next.occupied a = s.occupied a) : Laid next := by
  constructor
  · rw [same]
    exact laid.bounded
  · rw [same]
    intro index within
    rw [occupied _ (Block.slot_inside within)]
    exact laid.elements index within

section Moves

variable {s : Server} {source : Addr} (present : s.occupied source = true) (target : Addr)
include present

theorem handleAt_moveConstruct :
    (s.moveConstruct target source).handleAt = moveHandle s.handleAt target source := by
  obtain ⟨camera, found⟩ := Server.occupied_iff.mp present
  funext a
  change (moveObject VisionCamera.movedFrom s.objects target source a).elim 0
    VisionCamera.listener = _
  unfold moveHandle
  split_ifs with emptied moved
  · rw [emptied, moveObject_source found]
    rfl
  · rw [moved, moveObject_target found (moved ▸ emptied), Server.handleAt_of_some found]
    rfl
  · rw [moveObject_other moved emptied]
    rfl

theorem occupied_moveConstruct (a : Addr) :
    (s.moveConstruct target source).occupied a = (s.occupied a || decide (a = target)) := by
  obtain ⟨camera, found⟩ := Server.occupied_iff.mp present
  change (moveObject VisionCamera.movedFrom s.objects target source a).isSome =
    ((s.objects a).isSome || decide (a = target))
  by_cases emptied : a = source
  · rw [emptied, moveObject_source found, found]
    rfl
  · by_cases moved : a = target
    · rw [moved, moveObject_target found (moved ▸ emptied)]
      simp
    · rw [moveObject_other moved emptied]
      simp [moved]

end Moves

theorem handleAt_moveAssign {s : Server} {target source : Addr}
    (this : s.occupied target = true) (other : s.occupied source = true) :
    (s.moveAssign target source).handleAt = moveHandle s.handleAt target source := by
  obtain ⟨camera, found⟩ := Server.occupied_iff.mp this
  obtain ⟨moved, given⟩ := Server.occupied_iff.mp other
  funext a
  unfold Server.moveAssign moveHandle
  rw [found, given]
  by_cases emptied : a = source
  · subst emptied
    simp [Server.handleAt, VisionCamera.movedFrom]
  · by_cases here : a = target
    · subst here
      simp [Server.handleAt, emptied, given, VisionCamera.assigned]
    · simp [Server.handleAt, emptied, here]

theorem occupied_moveAssign {s : Server} {target source : Addr}
    (this : s.occupied target = true) (other : s.occupied source = true) :
    (s.moveAssign target source).occupied = s.occupied := by
  obtain ⟨camera, found⟩ := Server.occupied_iff.mp this
  obtain ⟨moved, given⟩ := Server.occupied_iff.mp other
  funext a
  unfold Server.moveAssign
  rw [found, given]
  by_cases emptied : a = source
  · subst emptied
    simp [Server.occupied, given]
  · by_cases here : a = target
    · subst here
      simp [Server.occupied, emptied, found]
    · simp [Server.occupied, emptied, here]

theorem handleAt_construct {s : Server} {a : Addr} (free : s.objects a = none) (name : String) :
    (s.construct a name).handleAt = s.handleAt := by
  funext other
  by_cases here : other = a
  · subst here
    simp [Server.handleAt, Server.construct, VisionCamera.ofSource, free]
  · simp [Server.handleAt, Server.construct, here]

section Destruction

variable (s : Server) (a : Addr)

theorem handleAt_destroy : (s.destroy a).handleAt = Function.update s.handleAt a 0 := by
  funext other
  unfold Server.destroy
  cases found : s.objects a with
  | none =>
      by_cases here : other = a
      · subst here
        simp [Server.handleAt, found]
      · simp [here]
  | some camera =>
      by_cases here : other = a
      · subst here
        simp [Server.handleAt]
      · simp [Server.handleAt, here]

theorem occupied_destroy : (s.destroy a).occupied = Function.update s.occupied a false := by
  funext other
  unfold Server.destroy
  cases found : s.objects a with
  | none =>
      by_cases here : other = a
      · subst here
        simp [Server.occupied, found]
      · simp [here]
  | some camera =>
      by_cases here : other = a
      · subst here
        simp [Server.occupied]
      · simp [Server.occupied, here]

theorem cameras_destroy : (s.destroy a).cameras = s.cameras := by
  unfold Server.destroy
  cases s.objects a <;> rfl

theorem registered_destroy (numbered : ∀ listener ∈ s.registered, listener.id ≠ 0) :
    (s.destroy a).registered = removeListener (s.handleAt a) s.registered := by
  unfold Server.destroy Server.handleAt
  cases s.objects a with
  | none => exact (removeListener_zero numbered).symm
  | some camera => rfl

/-- The other objects are not touched. -/
theorem objects_destroy {other : Addr} (different : other ≠ a) :
    (s.destroy a).objects other = s.objects other := by
  unfold Server.destroy
  cases s.objects a with
  | none => rfl
  | some camera => exact Function.update_of_ne different _ _

end Destruction

theorem handleAt_update (s : Server) (a : Addr) (camera : VisionCamera)
    (registered : List Listener) :
    Server.handleAt { s with
      objects := Function.update s.objects a (some camera), registered := registered } =
      Function.update s.handleAt a camera.listener := by
  funext other
  by_cases here : other = a
  · subst here
    simp [Server.handleAt]
  · simp [Server.handleAt, here]

theorem occupied_update {s : Server} {a : Addr} (present : s.occupied a = true)
    (camera : VisionCamera) (registered : List Listener) :
    Server.occupied { s with
      objects := Function.update s.objects a (some camera), registered := registered } =
      s.occupied := by
  funext other
  by_cases here : other = a
  · subst here
    rw [present]
    simp [Server.occupied]
  · simp [Server.occupied, here]

/-- A change of the table leaves the handles. -/
theorem setNetworkBase_spec (s : Server) (table : String) (a : Addr) :
    (s.setNetworkBase table a).handleAt = s.handleAt ∧
      (s.setNetworkBase table a).occupied = s.occupied ∧
      (s.setNetworkBase table a).registered = s.registered ∧
      (s.setNetworkBase table a).cameras = s.cameras := by
  unfold Server.setNetworkBase
  cases found : s.objects a with
  | none => exact ⟨rfl, rfl, rfl, rfl⟩
  | some camera =>
      refine ⟨?_, ?_, rfl, rfl⟩
      · have present := Server.handleAt_of_some found
        apply (handleAt_update s a _ s.registered).trans
        change Function.update s.handleAt a camera.listener = s.handleAt
        rw [← present, Function.update_eq_self]
      · exact occupied_update (Server.occupied_iff.mpr ⟨camera, found⟩) _ s.registered

/-- A registration replaces the listener of its camera by one that captures the camera. -/
def Renewed (s next : Server) (a : Addr) : Prop :=
  ∃ camera : VisionCamera, s.occupied a = true ∧ camera.topics = some camera.ntable ∧
    camera.listener ≠ 0 ∧
    (∀ listener ∈ removeListener (s.handleAt a) s.registered, listener.id ≠ camera.listener) ∧
    next = { s with
      objects := Function.update s.objects a (some camera)
      registered := removeListener (s.handleAt a) s.registered ++
        [⟨camera.listener, a, camera.ntable⟩] }

theorem setNetworkAdjustable_renewed {s next : Server} {a : Addr} {handle : Nat}
    (taken : s.setNetworkAdjustable a handle = some next) : Renewed s next a := by
  unfold Server.setNetworkAdjustable at taken
  cases found : s.objects a with
  | none => simp [found] at taken
  | some camera =>
      have present := Server.occupied_iff.mpr ⟨camera, found⟩
      have handles := Server.handleAt_of_some found
      simp only [found, Option.ite_none_right_eq_some, Option.some.injEq] at taken
      obtain ⟨⟨positive, unused⟩, rfl⟩ := taken
      rw [← handles] at unused
      refine ⟨{ camera with topics := some camera.ntable, listener := handle },
        present, rfl, positive, unused, ?_⟩
      rw [handles]

/-- The loops of the registry renew the listener of the camera at their index. -/
theorem register_renewed {s next : Server} {index handle : Nat}
    (taken : s.register index handle = some next) : Renewed s next (s.cameras.slot index) := by
  unfold Server.register at taken
  obtain ⟨handles, occupied, registered, _⟩ :=
    setNetworkBase_spec s serverTable (s.cameras.slot index)
  obtain ⟨camera, present, topics, positive, unused, rfl⟩ := setNetworkAdjustable_renewed taken
  rw [occupied] at present
  rw [handles, registered] at unused
  refine ⟨camera, present, topics, positive, unused, ?_⟩
  rw [handles, registered]
  obtain ⟨old, found⟩ := Server.occupied_iff.mp present
  simp [Server.setNetworkBase, found]

namespace Supported

variable {s : Server} (supported : Supported s)
include supported

theorem construct {a : Addr} (free : s.objects a = none) (outside : ¬ s.cameras.Inside a)
    (name : String) : Supported (s.construct a name) := by
  constructor
  · rw [handleAt_construct free]
    exact supported.owned
  · apply Laid.congr supported.laid
    · rfl
    · intro other inside
      have different : other ≠ a := by
        rintro rfl
        exact outside inside
      simp [Server.occupied, Server.construct, different]

theorem moveConstruct {target source : Addr} (outside : ¬ s.cameras.Inside target)
    (present : s.occupied source = true) : Supported (s.moveConstruct target source) := by
  constructor
  · rw [handleAt_moveConstruct present target]
    exact supported.owned.move target source
  · apply Laid.congr supported.laid
    · rfl
    · intro other inside
      have different : other ≠ target := by
        rintro rfl
        exact outside inside
      simp [occupied_moveConstruct present target, different]

theorem moveAssign {target source : Addr} (this : s.occupied target = true)
    (other : s.occupied source = true) : Supported (s.moveAssign target source) := by
  have kept : (s.moveAssign target source).registered = s.registered ∧
      (s.moveAssign target source).cameras = s.cameras := by
    unfold Server.moveAssign
    split <;> exact ⟨rfl, rfl⟩
  constructor
  · rw [handleAt_moveAssign this other, kept.1]
    exact supported.owned.move target source
  · apply supported.laid.congr kept.2
    intro a _
    rw [occupied_moveAssign this other]

theorem destroy {a : Addr} (outside : ¬ s.cameras.Inside a) : Supported (s.destroy a) := by
  constructor
  · rw [handleAt_destroy, registered_destroy _ _ supported.owned.numbered]
    exact supported.owned.release a
  · apply supported.laid.congr (cameras_destroy s a)
    intro other inside
    have different : other ≠ a := by
      rintro rfl
      exact outside inside
    rw [occupied_destroy, Function.update_of_ne different]

theorem renewed {next : Server} {a : Addr} (renewed : Renewed s next a) : Supported next := by
  obtain ⟨camera, present, _, positive, unused, rfl⟩ := renewed
  constructor
  · rw [handleAt_update]
    let listener : Listener := ⟨camera.listener, a, camera.ntable⟩
    have numbered : listener.id ≠ 0 := positive
    exact supported.owned.renew a numbered unused
  · apply Laid.congr supported.laid
    · rfl
    · intro other _
      rw [occupied_update present]

end Supported

section Growth

variable {s : Server} {buffer : Nat}

/-- This is the state after some passes of the relocation loop. -/
structure Relocated (s : Server) (buffer count : Nat) (t : Server) : Prop where
  shape : t = { s with objects := relocated s.cameras.buffer buffer count s.objects }
  owned : Owned t.handleAt s.registered

/-- A pass of the relocation loop moves one more element. -/
theorem Relocated.relocate {index : Nat} {t : Server} (owned : Owned s.handleAt s.registered)
    (present : s.occupied (s.cameras.slot index) = true) (different : buffer ≠ s.cameras.buffer)
    (given : Relocated s buffer index t) :
    Relocated s buffer (index + 1) (Server.relocate buffer index t) := by
  obtain ⟨shape, kept⟩ := given
  obtain ⟨camera, found⟩ := Server.occupied_iff.mp present
  have source : t.objects (s.cameras.slot index) = some camera := by
    rw [shape]
    simp only [relocated, Block.slot, Ne.symm different, if_false, Nat.lt_irrefl, and_false]
    exact found
  have cameras : t.cameras = s.cameras := by rw [shape]
  have registered : t.registered = s.registered := by rw [shape]
  have moved := handleAt_moveConstruct (Server.occupied_iff.mpr ⟨camera, source⟩) ⟨buffer, index⟩
  have emptied : (t.moveConstruct ⟨buffer, index⟩ (s.cameras.slot index)).handleAt
      (s.cameras.slot index) = 0 := by
    rw [moved, moveHandle, if_pos rfl]
  have owns : Owned (t.moveConstruct ⟨buffer, index⟩ (s.cameras.slot index)).handleAt
      (t.moveConstruct ⟨buffer, index⟩ (s.cameras.slot index)).registered := by
    rw [moved]
    change Owned _ t.registered
    rw [registered]
    exact kept.move _ _
  unfold Server.relocate
  rw [cameras]
  constructor
  · have step := relocated_succ VisionCamera.movedFrom different found
    unfold Server.destroy
    have gone : (t.moveConstruct ⟨buffer, index⟩ (s.cameras.slot index)).objects
        (s.cameras.slot index) = some camera.movedFrom := moveObject_source source
    rw [gone]
    have removed : removeListener camera.movedFrom.listener t.registered = s.registered := by
      rw [registered]
      exact removeListener_zero owned.numbered
    change { t with
      objects := Function.update (moveObject VisionCamera.movedFrom t.objects ⟨buffer, index⟩
        (s.cameras.slot index)) (s.cameras.slot index) none
      registered := removeListener camera.movedFrom.listener t.registered } = _
    rw [removed, shape, ← step]
    rfl
  · have released := owns.release (s.cameras.slot index)
    rw [emptied, removeListener_zero owns.numbered, emptied.symm] at released
    rw [handleAt_destroy, ← registered, ← emptied]
    exact released

/-- The relocation loop moves each element and keeps the owners of the handles. -/
theorem relocate_loop (owned : Owned s.handleAt s.registered) {count : Nat}
    (present : ∀ index < count, s.occupied (s.cameras.slot index) = true)
    (apart : count = 0 ∨ buffer ≠ s.cameras.buffer) :
    Relocated s buffer count (forUp (Server.relocate buffer) count s) := by
  apply forUp_rule (Relocated s buffer)
  · refine ⟨?_, owned⟩
    have same : relocated s.cameras.buffer buffer 0 s.objects = s.objects := by
      funext a
      simp [relocated]
    rw [same]
  · intro index t below given
    have different : buffer ≠ s.cameras.buffer := by
      rcases apart with none | different
      · omega
      · exact different
    exact given.relocate owned (present index below) different

end Growth

/-- These are all steps with what they need. -/
inductive Stepped (s : Server) : Op → Server → Prop where
  | construct (a : Addr) (name : String) (free : s.objects a = none) (outside : ¬ s.cameras.Inside a) :
      Stepped s (.construct a name) (s.construct a name)
  | moveConstruct (target source : Addr) (free : s.objects target = none)
      (outside : ¬ s.cameras.Inside target) (present : s.occupied source) :
      Stepped s (.moveConstruct target source) (s.moveConstruct target source)
  | moveAssign (target source : Addr) (this : s.occupied target) (other : s.occupied source) :
      Stepped s (.moveAssign target source) (s.moveAssign target source)
  | setNetworkAdjustable (a : Addr) (handle : Nat) (next : Server)
      (done : s.setNetworkAdjustable a handle = some next) : Stepped s (.setNetworkAdjustable a handle) next
  | destroy (a : Addr) (present : s.occupied a) (outside : ¬ s.cameras.Inside a) :
      Stepped s (.destroy a) (s.destroy a)
  | addCamera (c : Addr) (buffer capacity handle : Nat) (next : Server) (present : s.occupied c)
      (done : (s.addCamera c buffer capacity handle).map Prod.snd = some next) :
      Stepped s (.addCamera c buffer capacity handle) next
  | addCameras (source : Nat) (handles : List Nat) (buffer capacity : Nat) (next : Server)
      (owns : s.Owns ⟨source, handles.length, handles.length⟩)
      (done : (s.addCameras source handles buffer capacity).map Prod.snd = some next) :
      Stepped s (.addCameras source handles buffer capacity) next
  | setCameras (source : Block) (handles : List Nat) (next : Server) (owns : s.Owns source)
      (length : handles.length = source.size)
      (done : (s.setCameras source handles).map Prod.snd = some next) :
      Stepped s (.setCameras source handles) next
  | setRunning (running : Bool) : Stepped s (.setRunning running) { s with running := running }

theorem step_stepped {s next : Server} {op : Op} (taken : step s op = some next) : Stepped s op next := by
  cases op with
  | construct a name =>
      obtain ⟨⟨free, outside⟩, rfl⟩ := Option.ite_some_none_eq_some.mp taken
      exact .construct a name free outside
  | moveConstruct target source =>
      obtain ⟨⟨free, outside, present⟩, rfl⟩ := Option.ite_some_none_eq_some.mp taken
      exact .moveConstruct target source free outside present
  | moveAssign target source =>
      obtain ⟨⟨this, other⟩, rfl⟩ := Option.ite_some_none_eq_some.mp taken
      exact .moveAssign target source this other
  | setNetworkAdjustable a handle => exact .setNetworkAdjustable a handle next taken
  | destroy a =>
      obtain ⟨⟨present, outside⟩, rfl⟩ := Option.ite_some_none_eq_some.mp taken
      exact .destroy a present outside
  | addCamera c buffer capacity handle =>
      obtain ⟨present, done⟩ := Option.ite_none_right_eq_some.mp taken
      exact .addCamera c buffer capacity handle next present done
  | addCameras source handles buffer capacity =>
      obtain ⟨owns, done⟩ := Option.ite_none_right_eq_some.mp taken
      exact .addCameras source handles buffer capacity next owns done
  | setCameras source handles =>
      obtain ⟨⟨owns, length⟩, done⟩ := Option.ite_none_right_eq_some.mp taken
      exact .setCameras source handles next owns length done
  | setRunning running =>
      obtain rfl := Option.some.inj taken
      exact .setRunning running

end VisionServer.Camera.Listeners
