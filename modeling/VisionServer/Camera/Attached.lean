/-
This file says when every listener still captures the camera that owns it, and what the parts of
the operations do to this attachment.
-/

import VisionServer.Camera.ListenerSupport

namespace VisionServer.Camera.Listeners
open Library

/-- Each listener captured the live camera with its handle, and a remote update of the camera at an
index runs the callback on this camera, with topics that match. -/
structure Attached (s : Server) : Prop where
  live : ∀ listener ∈ s.registered, ∃ camera,
    s.objects listener.captured = some camera ∧ camera.listener = listener.id
  updated : ∀ index < s.cameras.size, ∃ camera,
    s.objects (s.cameras.slot index) = some camera ∧ camera.topics = some camera.ntable ∧
      s.cameras.slot index ∈ s.callbacks camera.ntable

/-- The camera at an index has a listener that captures its place. -/
def Reached (s : Server) (index : Nat) : Prop :=
  ∃ camera, s.objects (s.cameras.slot index) = some camera ∧
    camera.topics = some camera.ntable ∧
    ⟨camera.listener, s.cameras.slot index, camera.ntable⟩ ∈ s.registered

/-- A listener whose handle moved on to an element from a base index waits for its removal. -/
structure Pending (s : Server) (base : Nat) : Prop where
  within : base ≤ s.cameras.size
  live : ∀ listener ∈ s.registered, s.handleAt listener.captured = listener.id ∨
    ∃ index, base ≤ index ∧ index < s.cameras.size ∧
      s.handleAt (s.cameras.slot index) = listener.id
  reached : ∀ index < base, Reached s index

/-- The handle of a listener moved to the first element without the captured place. -/
structure Stale (s : Server) (listener : Listener) : Prop where
  inhabited : 0 < s.cameras.size
  registered : listener ∈ s.registered
  handle : s.handleAt (s.cameras.slot 0) = listener.id
  moved : listener.captured ≠ s.cameras.slot 0

/-- An attached server has nothing pending. -/
theorem attached_iff_pending {s : Server} (owned : Owned s.handleAt s.registered) :
    Attached s ↔ Pending s s.cameras.size := by
  have live_iff : (∀ listener ∈ s.registered, ∃ camera,
      s.objects listener.captured = some camera ∧ camera.listener = listener.id) ↔
      Live s.handleAt s.registered := by
    constructor
    · intro live listener member
      obtain ⟨camera, found, id⟩ := live listener member
      rw [Server.handleAt_of_some found]
      exact id
    · intro live listener member
      have handle := live listener member
      have used := owned.numbered listener member
      rw [← handle] at used
      obtain ⟨camera, found⟩ := Server.occupied_iff.mp (Server.occupied_of_handle used)
      exact ⟨camera, found, (Server.handleAt_of_some found).symm.trans handle⟩
  constructor
  · intro given
    obtain ⟨live, updated⟩ := given
    have live := live_iff.mp live
    refine ⟨Nat.le_refl _, fun listener member => Or.inl (live listener member), ?_⟩
    intro index within
    obtain ⟨camera, found, topics, called⟩ := updated index within
    simp only [Server.callbacks, List.mem_map, List.mem_filter, decide_eq_true_eq] at called
    obtain ⟨listener, ⟨member, topic⟩, captured⟩ := called
    have handle := live listener member
    rw [captured, Server.handleAt_of_some found] at handle
    refine ⟨camera, found, topics, ?_⟩
    rw [handle, ← captured, ← topic]
    exact member
  · intro given
    obtain ⟨_, live, reached⟩ := given
    have live : Live s.handleAt s.registered := by
      intro listener member
      rcases live listener member with captured | ⟨index, above, below, _⟩
      · exact captured
      · omega
    refine ⟨live_iff.mpr live, fun index within => ?_⟩
    obtain ⟨camera, found, topics, member⟩ := reached index within
    refine ⟨camera, found, topics, ?_⟩
    simp only [Server.callbacks, List.mem_map, List.mem_filter, decide_eq_true_eq]
    exact ⟨_, ⟨member, rfl⟩, rfl⟩

/-- A reached camera has a listener. -/
theorem Reached.used {s : Server} {index : Nat} (owned : Owned s.handleAt s.registered)
    (reached : Reached s index) : s.handleAt (s.cameras.slot index) ≠ 0 := by
  obtain ⟨camera, found, _, member⟩ := reached
  rw [Server.handleAt_of_some found]
  exact owned.numbered _ member

/-- A camera stays reached while its object and its listener stay. -/
theorem Reached.keep {s next : Server} {index : Nat} (reached : Reached s index)
    (slot : next.cameras.slot index = s.cameras.slot index)
    (same : next.objects (s.cameras.slot index) = s.objects (s.cameras.slot index))
    (kept : ∀ listener ∈ s.registered, listener.id = s.handleAt (s.cameras.slot index) →
      listener ∈ next.registered) : Reached next index := by
  obtain ⟨camera, found, topics, member⟩ := reached
  have handle := Server.handleAt_of_some found
  refine ⟨camera, ?_, topics, ?_⟩
  · rw [slot, same, found]
  · rw [slot]
    exact kept _ member handle.symm

/-- A stale listener excludes attachment. -/
theorem Stale.not_attached {s : Server} {listener : Listener}
    (owned : Owned s.handleAt s.registered) (stale : Stale s listener) : ¬ Attached s := by
  intro attached
  obtain ⟨camera, found, id⟩ := attached.live listener stale.registered
  have handle := Server.handleAt_of_some found
  have used := owned.numbered listener stale.registered
  apply stale.moved
  apply owned.unique
  · rw [handle, id]
    exact used
  · rw [handle, id, stale.handle]

/-- An element without a listener excludes attachment. -/
theorem not_attached_of_silent {s : Server} (owned : Owned s.handleAt s.registered) {index : Nat}
    (within : index < s.cameras.size) (silent : s.handleAt (s.cameras.slot index) = 0) :
    ¬ Attached s := by
  intro attached
  have reached := ((attached_iff_pending owned).mp attached).reached index within
  exact reached.used owned silent

section Renewal

variable {s next : Server} {a : Addr}

theorem Renewed.cameras (renewed : Renewed s next a) : next.cameras = s.cameras := by
  obtain ⟨camera, _, _, _, _, rfl⟩ := renewed
  rfl

theorem Renewed.running (renewed : Renewed s next a) : next.running = s.running := by
  obtain ⟨camera, _, _, _, _, rfl⟩ := renewed
  rfl

theorem Renewed.objects (renewed : Renewed s next a) {other : Addr} (different : other ≠ a) :
    next.objects other = s.objects other := by
  obtain ⟨camera, _, _, _, _, rfl⟩ := renewed
  exact Function.update_of_ne different _ _

theorem Renewed.handleAt (renewed : Renewed s next a) {other : Addr} (different : other ≠ a) :
    next.handleAt other = s.handleAt other := by
  unfold Server.handleAt
  rw [renewed.objects different]

theorem Renewed.kept (renewed : Renewed s next a) (owned : Owned s.handleAt s.registered)
    {other : Addr} (different : other ≠ a) {listener : Listener} (member : listener ∈ s.registered)
    (id : listener.id = s.handleAt other) : listener ∈ next.registered := by
  obtain ⟨camera, _, _, _, _, rfl⟩ := renewed
  exact List.mem_append_left _ (owned.mem_of_ne member id.symm different)

/-- A renewed registration captures its own object. -/
theorem Renewed.live (renewed : Renewed s next a) {listener : Listener}
    (member : listener ∈ next.registered) :
    next.handleAt listener.captured = listener.id ∨
      listener ∈ s.registered ∧ listener.id ≠ s.handleAt a := by
  obtain ⟨camera, _, _, _, _, rfl⟩ := renewed
  rcases List.mem_append.mp member with old | new
  · exact Or.inr (mem_removeListener.mp old)
  · rw [List.mem_singleton.mp new, handleAt_update, Function.update_self]
    exact Or.inl rfl

theorem Renewed.reached {index : Nat} (renewed : Renewed s next (s.cameras.slot index)) :
    Reached next index := by
  obtain ⟨camera, _, topics, _, _, rfl⟩ := renewed
  exact ⟨camera, Function.update_self .., topics,
    List.mem_append_right _ (List.mem_singleton_self _)⟩

theorem Renewed.stale (renewed : Renewed s next a) (owned : Owned s.handleAt s.registered)
    {listener : Listener} (stale : Stale s listener) (different : a ≠ s.cameras.slot 0) :
    Stale next listener := by
  have cameras := renewed.cameras
  constructor
  · rw [cameras]
    exact stale.inhabited
  · exact renewed.kept owned (Ne.symm different) stale.registered stale.handle.symm
  · rw [cameras, renewed.handleAt (Ne.symm different)]
    exact stale.handle
  · rw [cameras]
    exact stale.moved

/-- The next pending element is settled by its registration. -/
theorem Pending.register {base : Nat} (pending : Pending s base)
    (owned : Owned s.handleAt s.registered) (within : base < s.cameras.size)
    (renewed : Renewed s next (s.cameras.slot base)) : Pending next (base + 1) := by
  have cameras := renewed.cameras
  have apart {index : Nat} (different : index ≠ base) :
      s.cameras.slot index ≠ s.cameras.slot base :=
    fun same => different ((Block.slot_inj _).mp same)
  refine ⟨by rw [cameras]; exact within, fun listener member => ?_, fun index below => ?_⟩
  · rcases renewed.live member with captured | ⟨old, other⟩
    · exact Or.inl captured
    rcases pending.live listener old with captured | ⟨index, above, below, handle⟩
    · have away : listener.captured ≠ s.cameras.slot base := by
        intro same
        rw [same] at captured
        exact other captured.symm
      rw [renewed.handleAt away]
      exact Or.inl captured
    · have different : index ≠ base := by
        rintro rfl
        exact other handle.symm
      refine Or.inr ⟨index, by omega, by rw [cameras]; exact below, ?_⟩
      rw [cameras, renewed.handleAt (apart different)]
      exact handle
  · by_cases here : index = base
    · subst here
      exact renewed.reached
    · refine (pending.reached index (by omega)).keep (by rw [cameras]) ?_ ?_
      · exact renewed.objects (apart here)
      · intro listener member id
        exact renewed.kept owned (apart here) member id

/-- A registration of any object keeps the attachment. -/
theorem Attached.renew (attached : Attached s) (supported : Supported s)
    (renewed : Renewed s next a) : Attached next := by
  have owned := supported.owned
  have pending := (attached_iff_pending owned).mp attached
  have cameras := renewed.cameras
  rw [attached_iff_pending (supported.renewed renewed).owned, cameras]
  refine ⟨Nat.le_of_eq (by rw [cameras]), fun listener member => Or.inl ?_, ?_⟩
  · rcases renewed.live member with captured | ⟨old, other⟩
    · exact captured
    rcases pending.live listener old with captured | ⟨index, above, below, _⟩
    · have away : listener.captured ≠ a := by
        rintro rfl
        exact other captured.symm
      rw [renewed.handleAt away]
      exact captured
    · omega
  · intro index within
    by_cases here : s.cameras.slot index = a
    · subst here
      exact renewed.reached
    · refine (pending.reached index within).keep (by rw [cameras]) (renewed.objects here) ?_
      intro listener member id
      exact renewed.kept owned here member id

end Renewal

section Destruction

variable {s : Server} {a : Addr}

/-- The destruction of an object outside the registry keeps what is pending. -/
theorem Pending.destroy {base : Nat} (pending : Pending s base) (supported : Supported s)
    (outside : ∀ index < s.cameras.size, s.cameras.slot index ≠ a) :
    Pending (s.destroy a) base := by
  have owned := supported.owned
  have cameras := cameras_destroy s a
  have registered := registered_destroy s a owned.numbered
  have handles := handleAt_destroy s a
  refine ⟨by rw [cameras]; exact pending.within, fun listener member => ?_, fun index below => ?_⟩
  · rw [registered] at member
    obtain ⟨old, other⟩ := mem_removeListener.mp member
    rw [cameras, handles]
    rcases pending.live listener old with captured | ⟨index, above, below, handle⟩
    · have away : listener.captured ≠ a := by
        rintro rfl
        exact other captured.symm
      rw [Function.update_of_ne away]
      exact Or.inl captured
    · refine Or.inr ⟨index, above, below, ?_⟩
      rw [Function.update_of_ne (outside index below)]
      exact handle
  · have within := Nat.lt_of_lt_of_le below pending.within
    refine (pending.reached index below).keep (by rw [cameras])
      (objects_destroy s a (outside index within)) ?_
    intro listener member id
    rw [registered]
    exact owned.mem_of_ne member id.symm (outside index within)

theorem Stale.destroy {listener : Listener} (stale : Stale s listener) (supported : Supported s)
    (outside : s.cameras.slot 0 ≠ a) : Stale (s.destroy a) listener := by
  have cameras := cameras_destroy s a
  constructor
  · rw [cameras]
    exact stale.inhabited
  · rw [registered_destroy s a supported.owned.numbered]
    exact supported.owned.mem_of_ne stale.registered stale.handle outside
  · rw [cameras, handleAt_destroy, Function.update_of_ne outside]
    exact stale.handle
  · rw [cameras]
    exact stale.moved

end Destruction

/-- The vector took one more element from an object of a client. -/
structure Appended (s next : Server) (source : Addr) : Prop where
  objects : next.objects = moveObject VisionCamera.movedFrom s.objects
    (next.cameras.slot s.cameras.size) source
  registered : next.registered = s.registered
  size : next.cameras.size = s.cameras.size + 1
  slots : ∀ index < s.cameras.size, next.cameras.slot index = s.cameras.slot index
  free : s.occupied (next.cameras.slot s.cameras.size) = false
  present : s.occupied source = true
  outside : ∀ index < s.cameras.size, s.cameras.slot index ≠ source

section Appending

variable {s next : Server} {source : Addr} (appended : Appended s next source)
include appended

theorem Appended.handleAt :
    next.handleAt = moveHandle s.handleAt (next.cameras.slot s.cameras.size) source := by
  rw [← handleAt_moveConstruct appended.present]
  unfold Server.handleAt Server.moveConstruct
  rw [appended.objects]

/-- The other elements are not touched. -/
theorem Appended.slot_other {index : Nat} (within : index < s.cameras.size) :
    next.objects (s.cameras.slot index) = s.objects (s.cameras.slot index) ∧
      next.handleAt (s.cameras.slot index) = s.handleAt (s.cameras.slot index) := by
  have apart : s.cameras.slot index ≠ next.cameras.slot s.cameras.size := by
    rw [← appended.slots index within]
    intro same
    have equal := (Block.slot_inj _).mp same
    omega
  have away := appended.outside index within
  constructor
  · rw [appended.objects]
    exact moveObject_other apart away
  · rw [appended.handleAt, moveHandle, if_neg away, if_neg apart]

/-- The listener of an appended camera is pending. -/
theorem Pending.append {base : Nat} (pending : Pending s base)
    (owned : Owned s.handleAt s.registered) : Pending next base := by
  have size := appended.size
  refine ⟨by have := pending.within; omega, fun listener member => ?_, fun index below => ?_⟩
  · rw [appended.registered] at member
    rcases pending.live listener member with captured | ⟨index, above, below, handle⟩
    · by_cases taken : listener.captured = source
      · refine Or.inr ⟨s.cameras.size, pending.within, by omega, ?_⟩
        have apart : next.cameras.slot s.cameras.size ≠ source := by
          intro same
          have free := appended.free
          rw [same, appended.present] at free
          cases free
        rw [appended.handleAt, moveHandle, if_neg apart, if_pos rfl, ← taken]
        exact captured
      · have apart : listener.captured ≠ next.cameras.slot s.cameras.size := by
          intro same
          have used := owned.numbered listener member
          rw [← captured, same] at used
          have free := appended.free
          rw [Server.occupied_of_handle used] at free
          cases free
        rw [appended.handleAt, moveHandle, if_neg taken, if_neg apart]
        exact Or.inl captured
    · refine Or.inr ⟨index, above, by omega, ?_⟩
      rw [appended.slots index below, (appended.slot_other below).2]
      exact handle
  · have within := Nat.lt_of_lt_of_le below pending.within
    refine (pending.reached index below).keep (appended.slots index within)
      (appended.slot_other within).1 ?_
    intro listener member _
    rw [appended.registered]
    exact member

theorem Stale.append {listener : Listener} (stale : Stale s listener) : Stale next listener := by
  have inhabited := stale.inhabited
  have slot := appended.slots 0 inhabited
  constructor
  · rw [appended.size]
    omega
  · rw [appended.registered]
    exact stale.registered
  · rw [slot, (appended.slot_other inhabited).2]
    exact stale.handle
  · rw [slot]
    exact stale.moved

end Appending

end VisionServer.Camera.Listeners
