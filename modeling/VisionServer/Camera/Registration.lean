/-
This file decides in which histories of the camera registry every remote update reaches the camera
that it is meant for.
-/

import VisionServer.Camera.Attached

namespace VisionServer.Camera.Listeners
open Library

section Loops

variable {s : Server}

/-- The loop facts that hold between the start of an operation and a later point of it. -/
structure Carries (s t : Server) : Prop where
  supported : Supported t
  running : t.running = s.running
  pending : ∀ base, Pending s base → Pending t base
  stale : ∀ listener, Stale s listener → Stale t listener

/-- An element of a client is appended where the registry has room. -/
theorem insertEnd_appended (supported : Supported s) {source index : Nat}
    (room : s.cameras.size < s.cameras.capacity)
    (present : s.occupied ⟨source, index⟩ = true) (outside : ¬ s.cameras.Inside ⟨source, index⟩) :
    Appended s (s.insertEnd source index) ⟨source, index⟩ := by
  have bounded := supported.laid.bounded
  constructor
  · rfl
  · rfl
  · rfl
  · exact fun _ _ => rfl
  · have elements := supported.laid.elements s.cameras.size room
    rw [← Bool.not_eq_true]
    exact fun occupied => absurd (elements.mp occupied) (Nat.lt_irrefl _)
  · exact present
  · intro other within same
    rw [← same] at outside
    exact outside (Block.slot_inside (by omega))

theorem insertEnd_supported (supported : Supported s) {source index : Nat}
    (room : s.cameras.size < s.cameras.capacity)
    (present : s.occupied ⟨source, index⟩ = true) : Supported (s.insertEnd source index) := by
  constructor
  · have moved := supported.owned.move (s.cameras.slot s.cameras.size) ⟨source, index⟩
    rw [← handleAt_moveConstruct present] at moved
    exact moved
  · have bounded := supported.laid.bounded
    refine ⟨room, fun other within => ?_⟩
    have occupied := occupied_moveConstruct present (s.cameras.slot s.cameras.size)
      (s.cameras.slot other)
    have elements := supported.laid.elements other within
    change (s.moveConstruct _ _).occupied (s.cameras.slot other) = true ↔
      other < s.cameras.size + 1
    rw [occupied, Bool.or_eq_true, elements, decide_eq_true_eq, Block.slot_inj]
    omega

/-- This is the state after some passes of the insertion. -/
structure Inserted (s : Server) (source num count : Nat) (t : Server) : Prop where
  carries : Carries s t
  cameras : t.cameras = { s.cameras with size := s.cameras.size + count }
  present : ∀ index < num, t.occupied ⟨source, index⟩ = true

theorem insertEnd_loop (supported : Supported s) {source num : Nat}
    (room : s.cameras.size + num ≤ s.cameras.capacity)
    (present : ∀ index < num, s.occupied ⟨source, index⟩ = true)
    (outside : ∀ index < num, ¬ s.cameras.Inside ⟨source, index⟩) :
    Inserted s source num num (forUp (Server.insertEnd source) num s) := by
  apply forUp_rule (Inserted s source num)
  · exact ⟨⟨supported, rfl, fun _ => id, fun _ => id⟩, rfl, present⟩
  · intro index t below given
    obtain ⟨⟨kept, running, pending, stale⟩, cameras, here⟩ := given
    have room : t.cameras.size < t.cameras.capacity := by
      rw [cameras]
      change s.cameras.size + index < s.cameras.capacity
      omega
    have apart : ¬ t.cameras.Inside ⟨source, index⟩ := by
      rw [cameras]
      exact outside index below
    have appended := insertEnd_appended kept room (here index below) apart
    refine ⟨⟨insertEnd_supported kept room (here index below), running, ?_, ?_⟩, ?_, ?_⟩
    · exact fun base waiting => (pending base waiting).append appended kept.owned
    · exact fun listener lost => (stale listener lost).append appended
    · change { t.cameras with size := t.cameras.size + 1 } = _
      rw [cameras]
      rfl
    · intro other within
      change (t.moveConstruct _ _).occupied _ = true
      rw [occupied_moveConstruct (here index below), here other within]
      rfl

/-- This is the state after some passes of a destruction. -/
theorem clear_carries (supported : Supported s) {source num : Nat}
    (outside : ∀ index < num, ¬ s.cameras.Inside ⟨source, index⟩) :
    Carries s (s.clear source num) ∧ (s.clear source num).cameras = s.cameras := by
  apply forUp_rule (fun _ t => Carries s t ∧ t.cameras = s.cameras)
  · exact ⟨⟨supported, rfl, fun _ => id, fun _ => id⟩, rfl⟩
  · intro index t below given
    obtain ⟨⟨kept, running, pending, stale⟩, cameras⟩ := given
    have apart : ¬ t.cameras.Inside ⟨source, index⟩ := by
      rw [cameras]
      exact outside index below
    have slots (other : Nat) (within : other < t.cameras.size) :
        t.cameras.slot other ≠ ⟨source, index⟩ := by
      intro same
      rw [← same] at apart
      exact apart (Block.slot_inside (Nat.lt_of_lt_of_le within kept.laid.bounded))
    have same : (t.destroy ⟨source, index⟩).running = t.running := by
      unfold Server.destroy
      split <;> rfl
    refine ⟨⟨kept.destroy apart, same.trans running, ?_, ?_⟩, ?_⟩
    · exact fun base waiting => (pending base waiting).destroy kept slots
    · exact fun listener lost =>
        (stale listener lost).destroy kept (slots 0 (stale listener lost).inhabited)
    · exact (cameras_destroy t _).trans cameras

/-- The registrations settle the pending elements in their order. -/
theorem registerFrom_spec {next : Server} {index : Nat} {handles : List Nat}
    (supported : Supported s) (within : index + handles.length ≤ s.cameras.size)
    (taken : s.registerFrom index handles = some next) :
    Supported next ∧ next.cameras = s.cameras ∧ next.running = s.running ∧
      (Pending s index → Pending next (index + handles.length)) ∧
      (0 < index → ∀ listener, Stale s listener → Stale next listener) := by
  induction handles generalizing s index with
  | nil =>
      simp only [Server.registerFrom, Option.some.injEq] at taken
      subst taken
      exact ⟨supported, rfl, rfl, id, fun _ _ => id⟩
  | cons handle rest ih =>
      obtain ⟨middle, first, later⟩ := Option.bind_eq_some_iff.mp taken
      have renewed := register_renewed first
      have cameras := renewed.cameras
      simp only [List.length_cons] at within
      have bound : index + 1 + rest.length ≤ middle.cameras.size := by
        rw [cameras]
        omega
      obtain ⟨kept, same, running, pending, stale⟩ := ih (supported.renewed renewed) bound later
      refine ⟨kept, same.trans cameras, running.trans renewed.running, ?_, ?_⟩
      · intro waiting
        have settled := pending (waiting.register supported.owned (by omega) renewed)
        rw [List.length_cons, ← Nat.add_assoc, Nat.add_right_comm]
        exact settled
      · intro positive listener lost
        have different : s.cameras.slot index ≠ s.cameras.slot 0 := by
          intro equal
          have := (Block.slot_inj _).mp equal
          omega
        exact stale (by omega) listener (renewed.stale supported.owned lost different)

end Loops

section Growth

variable {s : Server} {buffer capacity : Nat}

/-- A grown registry holds the moved elements and whatever was built behind them. -/
structure Grown (s next : Server) (buffer capacity total : Nat) : Prop where
  objects : next.objects = relocated s.cameras.buffer buffer s.cameras.size s.objects
  registered : next.registered = s.registered
  cameras : next.cameras = ⟨buffer, total, capacity⟩
  running : next.running = s.running
  owned : Owned next.handleAt next.registered

theorem grow_grown (supported : Supported s) (total : Nat)
    (apart : s.cameras.size = 0 ∨ buffer ≠ s.cameras.buffer) :
    Grown s { s.grow buffer capacity with cameras := ⟨buffer, total, capacity⟩ }
      buffer capacity total := by
  have loop := relocate_loop supported.owned (fun index within => supported.laid.element within) apart
  have shape := loop.shape
  constructor
  · change (forUp (Server.relocate buffer) s.cameras.size s).objects = _
    rw [shape]
  · change (forUp (Server.relocate buffer) s.cameras.size s).registered = _
    rw [shape]
  · rfl
  · change (forUp (Server.relocate buffer) s.cameras.size s).running = _
    rw [shape]
  · have owned := loop.owned
    have registered : s.registered =
        (forUp (Server.relocate buffer) s.cameras.size s).registered := by rw [shape]
    rw [registered] at owned
    exact owned

/-- A buffer that is allocated for a nonempty registry is another one. -/
theorem allocates_apart {count : Nat} (supported : Supported s)
    (allocates : s.Allocates buffer capacity count) (positive : 0 < count) :
    s.cameras.size = 0 ∨ buffer ≠ s.cameras.buffer := by
  by_cases empty : s.cameras.size = 0
  · exact Or.inl empty
  · right
    rintro rfl
    have bounded := supported.laid.bounded
    obtain ⟨enough, free⟩ := allocates
    have inside : s.cameras.Inside ⟨s.cameras.buffer, 0⟩ := ⟨rfl, by change 0 < _; omega⟩
    exact (free 0 (by omega)).2 inside

section Grown

variable {next : Server} {total : Nat} (grown : Grown s next buffer capacity total)
include grown

/-- The moved elements keep their objects. -/
theorem Grown.slot {index : Nat} (within : index < s.cameras.size) :
    next.objects (next.cameras.slot index) = s.objects (s.cameras.slot index) := by
  rw [grown.objects, grown.cameras]
  simp only [Block.slot, relocated, within, and_self, if_true]

/-- Without elements the growth moves nothing. -/
theorem Grown.objects_of_empty (empty : s.cameras.size = 0) : next.objects = s.objects := by
  rw [grown.objects, empty]
  funext a
  simp [relocated]

theorem Grown.laid (laid : Laid s) (bound : total ≤ capacity) (least : s.cameras.size ≤ total)
    (tail : ∀ index, s.cameras.size ≤ index → index < capacity →
      (s.occupied ⟨buffer, index⟩ = true ↔ index < total)) : Laid next := by
  constructor
  · rw [grown.cameras]
    exact bound
  · intro index within
    by_cases old : index < s.cameras.size
    · have same := grown.slot old
      have present := laid.element old
      unfold Server.occupied at present ⊢
      rw [same, grown.cameras]
      exact iff_of_true present (by change index < total; omega)
    · have behind : next.objects (next.cameras.slot index) = s.objects ⟨buffer, index⟩ := by
        rw [grown.objects, grown.cameras]
        simp only [Block.slot, relocated, old, and_false, if_false]
      rw [grown.cameras] at within
      have elements := tail index (by omega) within
      unfold Server.occupied at elements ⊢
      rw [behind, grown.cameras]
      exact elements

/-- A growth leaves the listener of the first element behind. -/
theorem Grown.stale (inhabited : 0 < s.cameras.size) (least : s.cameras.size ≤ total)
    (apart : s.cameras.size = 0 ∨ buffer ≠ s.cameras.buffer) {listener : Listener}
    (member : listener ∈ s.registered) (captured : listener.captured = s.cameras.slot 0)
    (handle : s.handleAt (s.cameras.slot 0) = listener.id) : Stale next listener := by
  constructor
  · rw [grown.cameras]
    change 0 < total
    omega
  · rw [grown.registered]
    exact member
  · rw [← handle]
    unfold Server.handleAt
    rw [grown.slot inhabited]
  · rw [captured, grown.cameras]
    intro same
    rcases apart with empty | different
    · omega
    · exact different (congrArg Addr.buffer same).symm

end Grown

end Growth

/-- An attached server has a listener for its first camera. -/
theorem Attached.first {s : Server} (attached : Attached s) (supported : Supported s)
    (inhabited : 0 < s.cameras.size) :
    ∃ listener ∈ s.registered, listener.captured = s.cameras.slot 0 ∧
      s.handleAt (s.cameras.slot 0) = listener.id := by
  have pending := (attached_iff_pending supported.owned).mp attached
  obtain ⟨camera, found, _, member⟩ := pending.reached 0 inhabited
  exact ⟨_, member, rfl, Server.handleAt_of_some found⟩

section AddCamera

variable {s next : Server} {c : Addr} {buffer capacity handle : Nat}

/-- The new element is built first. It is the only object in the new buffer. -/
theorem emplace_tail (present : s.occupied c = true)
    (allocates : s.Allocates buffer capacity (s.cameras.size + 1)) (index : Nat)
    (above : s.cameras.size ≤ index) (below : index < capacity) :
    (s.moveConstruct ⟨buffer, s.cameras.size⟩ c).occupied ⟨buffer, index⟩ = true ↔
      index < s.cameras.size + 1 := by
  have free := (allocates.2 index below).1
  rw [occupied_moveConstruct present]
  simp only [Server.occupied, free, Option.isSome_none, Bool.false_or, decide_eq_true_eq,
    Addr.mk.injEq, true_and]
  omega

/-- An append into spare room moves one object. -/
theorem emplaceBack_spare (room : s.cameras.size < s.cameras.capacity) :
    s.emplaceBack c buffer capacity = some { s.moveConstruct (s.cameras.slot s.cameras.size) c with
      cameras := { s.cameras with size := s.cameras.size + 1 } } := if_pos room

/-- An append without spare room moves the whole registry. -/
theorem emplaceBack_full (supported : Supported s) (present : s.occupied c = true)
    (full : ¬ s.cameras.size < s.cameras.capacity)
    (taken : s.emplaceBack c buffer capacity = some next) :
    s.Allocates buffer capacity (s.cameras.size + 1) ∧
      Supported (s.moveConstruct ⟨buffer, s.cameras.size⟩ c) ∧
      Grown (s.moveConstruct ⟨buffer, s.cameras.size⟩ c) next buffer capacity
        (s.cameras.size + 1) := by
  unfold Server.emplaceBack at taken
  simp only [if_neg full, Option.ite_none_right_eq_some, Option.some.injEq] at taken
  obtain ⟨allocates, rfl⟩ := taken
  have outside := (allocates.2 s.cameras.size allocates.1).2
  have built := supported.moveConstruct outside present
  have apart := allocates_apart supported allocates (Nat.succ_pos _)
  exact ⟨allocates, built, grow_grown built (s.cameras.size + 1) apart⟩

theorem emplaceBack_supported (supported : Supported s) (present : s.occupied c = true)
    (taken : s.emplaceBack c buffer capacity = some next) :
    Supported next ∧ next.cameras.size = s.cameras.size + 1 ∧ next.running = s.running := by
  by_cases room : s.cameras.size < s.cameras.capacity
  · rw [emplaceBack_spare room, Option.some.injEq] at taken
    subst taken
    obtain ⟨buffer', index'⟩ := c
    exact ⟨insertEnd_supported supported room present, rfl, rfl⟩
  · obtain ⟨allocates, built, grown⟩ := emplaceBack_full supported present room taken
    refine ⟨⟨grown.owned, ?_⟩, by rw [grown.cameras], grown.running⟩
    exact grown.laid built.laid allocates.1 (Nat.le_succ _) (emplace_tail present allocates)

/-- The camera comes from outside the registry and no element moves. -/
def Spares (s : Server) (c : Addr) : Prop :=
  ¬ s.cameras.Element c ∧ (s.cameras.size < s.cameras.capacity ∨ s.cameras.size = 0)

theorem emplaceBack_appended (supported : Supported s) (present : s.occupied c = true)
    (spares : Spares s c) (taken : s.emplaceBack c buffer capacity = some next) :
    Appended s next c := by
  have outside (index : Nat) (within : index < s.cameras.size) : s.cameras.slot index ≠ c := by
    rintro rfl
    exact spares.1 (Block.slot_element within)
  by_cases room : s.cameras.size < s.cameras.capacity
  · rw [emplaceBack_spare room, Option.some.injEq] at taken
    subst taken
    have free := supported.laid.elements s.cameras.size room
    refine ⟨rfl, rfl, rfl, fun _ _ => rfl, ?_, present, outside⟩
    rw [← Bool.not_eq_true]
    exact fun occupied => absurd (free.mp occupied) (Nat.lt_irrefl _)
  · have empty := spares.2.resolve_left room
    obtain ⟨allocates, built, grown⟩ := emplaceBack_full supported present room taken
    have slot : next.cameras.slot s.cameras.size = ⟨buffer, s.cameras.size⟩ := by
      rw [grown.cameras]
      rfl
    refine ⟨?_, grown.registered, by rw [grown.cameras], ?_, ?_, present, outside⟩
    · rw [grown.objects_of_empty empty, slot]
      rfl
    · intro index within
      omega
    · rw [slot, Server.occupied, (allocates.2 _ allocates.1).1]
      rfl

/-- An append that takes an element of the registry leaves a camera without a listener. -/
theorem emplaceBack_silent (supported : Supported s) (present : s.occupied c = true)
    (element : s.cameras.Element c) (taken : s.emplaceBack c buffer capacity = some next) :
    next.handleAt (next.cameras.slot c.index) = 0 := by
  have emptied {target : Addr} : (s.moveConstruct target c).handleAt c = 0 := by
    rw [handleAt_moveConstruct present, moveHandle, if_pos rfl]
  by_cases room : s.cameras.size < s.cameras.capacity
  · rw [emplaceBack_spare room, Option.some.injEq] at taken
    subst taken
    change (s.moveConstruct _ c).handleAt (s.cameras.slot c.index) = 0
    rw [← element.eq_slot]
    exact emptied
  · obtain ⟨allocates, built, grown⟩ := emplaceBack_full supported present room taken
    have same : next.objects (next.cameras.slot c.index) =
        (s.moveConstruct ⟨buffer, s.cameras.size⟩ c).objects (s.cameras.slot c.index) :=
      grown.slot element.2
    unfold Server.handleAt
    rw [same, ← element.eq_slot]
    exact emptied

/-- An append that moves the registry leaves a listener behind. -/
theorem emplaceBack_stale (supported : Supported s) (attached : Attached s)
    (present : s.occupied c = true) (apart : ¬ s.cameras.Element c)
    (full : ¬ s.cameras.size < s.cameras.capacity) (inhabited : 0 < s.cameras.size)
    (taken : s.emplaceBack c buffer capacity = some next) : ∃ listener, Stale next listener := by
  obtain ⟨allocates, built, grown⟩ := emplaceBack_full supported present full taken
  obtain ⟨listener, member, captured, handle⟩ := attached.first supported inhabited
  have elsewhere := allocates_apart supported allocates (Nat.succ_pos _)
  have kept : (s.moveConstruct ⟨buffer, s.cameras.size⟩ c).handleAt (s.cameras.slot 0) =
      listener.id := by
    have notSource : s.cameras.slot 0 ≠ c := by
      rintro rfl
      exact apart (Block.slot_element inhabited)
    have notTarget : s.cameras.slot 0 ≠ ⟨buffer, s.cameras.size⟩ := by
      intro same
      have index := congrArg Addr.index same
      change 0 = s.cameras.size at index
      omega
    rw [handleAt_moveConstruct present, moveHandle, if_neg notSource, if_neg notTarget]
    exact handle
  exact ⟨listener, grown.stale inhabited (Nat.le_succ _) elsewhere member captured kept⟩

/-- The registry appends a camera and registers it. -/
theorem addCamera_parts (supported : Supported s) (present : s.occupied c = true)
    (taken : ((s.emplaceBack c buffer capacity).bind fun s =>
      s.register (s.cameras.size - 1) handle) = some next) :
    ∃ middle, s.emplaceBack c buffer capacity = some middle ∧ Supported middle ∧
      middle.cameras.size = s.cameras.size + 1 ∧
      Renewed middle next (middle.cameras.slot s.cameras.size) := by
  obtain ⟨middle, emplaced, registration⟩ := Option.bind_eq_some_iff.mp taken
  obtain ⟨kept, size, _⟩ := emplaceBack_supported supported present emplaced
  have renewed := register_renewed registration
  have last : middle.cameras.size - 1 = s.cameras.size := by omega
  rw [last] at renewed
  exact ⟨middle, emplaced, kept, size, renewed⟩

theorem addCamera_supported (supported : Supported s) (present : s.occupied c = true)
    (taken : ((s.emplaceBack c buffer capacity).bind fun s =>
      s.register (s.cameras.size - 1) handle) = some next) : Supported next := by
  obtain ⟨middle, _, kept, _, renewed⟩ := addCamera_parts supported present taken
  exact kept.renewed renewed

/-- The new registration completes an append exactly when the registry stays in place. -/
theorem addCamera_attached_iff (supported : Supported s) (attached : Attached s)
    (present : s.occupied c = true)
    (taken : ((s.emplaceBack c buffer capacity).bind fun s =>
      s.register (s.cameras.size - 1) handle) = some next) :
    Attached next ↔ Spares s c := by
  obtain ⟨middle, emplaced, kept, size, renewed⟩ := addCamera_parts supported present taken
  have done := kept.renewed renewed
  have cameras := renewed.cameras
  have other {index : Nat} (within : index < s.cameras.size) :
      middle.cameras.slot s.cameras.size ≠ middle.cameras.slot index := by
    intro same
    have := (Block.slot_inj _).mp same
    omega
  constructor
  · intro after
    have apart : ¬ s.cameras.Element c := by
      intro element
      have silent := emplaceBack_silent supported present element emplaced
      have within : c.index < next.cameras.size := by
        rw [cameras, size]
        exact Nat.lt_succ_of_lt element.2
      refine not_attached_of_silent done.owned within ?_ after
      rw [cameras, renewed.handleAt (Ne.symm (other element.2))]
      exact silent
    refine ⟨apart, ?_⟩
    by_contra moves
    obtain ⟨full, inhabited⟩ := not_or.mp moves
    have positive : 0 < s.cameras.size := by omega
    obtain ⟨listener, stale⟩ :=
      emplaceBack_stale supported attached present apart full positive emplaced
    exact (renewed.stale kept.owned stale (other positive)).not_attached done.owned after
  · intro spares
    have appended := emplaceBack_appended supported present spares emplaced
    have pending := (attached_iff_pending supported.owned).mp attached
    have waiting := pending.append appended supported.owned
    have settled := waiting.register kept.owned (by omega) renewed
    rw [attached_iff_pending done.owned, cameras, size]
    exact settled

end AddCamera

section AddCameras

variable {s next : Server} {source buffer capacity : Nat} {handles : List Nat}

/-- The new cameras fit behind the present ones, or there are no present ones. -/
def Fits (s : Server) (num : Nat) : Prop :=
  s.cameras.size + num ≤ s.cameras.capacity ∨ s.cameras.size = 0

/-- The registry has room for the new cameras, which are still where the client keeps them. -/
structure Reserved (s middle : Server) (source num : Nat) : Prop where
  supported : Supported middle
  size : middle.cameras.size = s.cameras.size
  room : s.cameras.size + num ≤ middle.cameras.capacity
  present : ∀ index < num, middle.occupied ⟨source, index⟩ = true
  outside : ∀ index < num, ¬ middle.cameras.Inside ⟨source, index⟩

/-- A reservation either changes nothing or moves the registry to a new buffer. -/
theorem reserve_cases {num : Nat} {middle : Server}
    (taken : s.reserve (s.cameras.size + num) buffer capacity = some middle) :
    s.cameras.size + num ≤ s.cameras.capacity ∧ middle = s ∨
      ¬ s.cameras.size + num ≤ s.cameras.capacity ∧
        s.Allocates buffer capacity (s.cameras.size + num) ∧ middle = s.grow buffer capacity := by
  unfold Server.reserve at taken
  by_cases room : s.cameras.size + num ≤ s.cameras.capacity
  · rw [if_pos room, Option.some.injEq] at taken
    exact Or.inl ⟨room, taken.symm⟩
  · rw [if_neg room] at taken
    simp only [Option.ite_none_right_eq_some, Option.some.injEq] at taken
    exact Or.inr ⟨room, taken.1, taken.2.symm⟩

theorem grow_reserved {num : Nat} (supported : Supported s) (owns : s.Owns ⟨source, num, num⟩)
    (full : ¬ s.cameras.size + num ≤ s.cameras.capacity)
    (allocates : s.Allocates buffer capacity (s.cameras.size + num)) :
    Reserved s (s.grow buffer capacity) source num ∧
      Grown s (s.grow buffer capacity) buffer capacity s.cameras.size ∧
      (s.cameras.size = 0 ∨ buffer ≠ s.cameras.buffer) := by
  have bounded := supported.laid.bounded
  have enough := allocates.1
  have apart := allocates_apart supported allocates (by omega)
  have grown : Grown s (s.grow buffer capacity) buffer capacity s.cameras.size :=
    grow_grown supported s.cameras.size apart
  have occupied (index : Nat) (within : index < num) : s.occupied ⟨source, index⟩ = true :=
    ((owns.2 index within).2).mpr within
  have away (index : Nat) (within : index < num) :
      ¬ (source = buffer ∧ index < capacity) := by
    intro given
    obtain ⟨rfl, below⟩ := given
    have free := (allocates.2 index below).1
    have present := occupied index within
    rw [Server.occupied, free] at present
    cases present
  refine ⟨⟨⟨grown.owned, ?_⟩, ?_, ?_, ?_, ?_⟩, grown, apart⟩
  · apply grown.laid supported.laid (by omega) (Nat.le_refl _)
    intro index above below
    rw [Server.occupied, (allocates.2 index below).1]
    exact iff_of_false (by simp) (by omega)
  · rw [grown.cameras]
  · rw [grown.cameras]
    exact enough
  · intro index within
    have here := occupied index within
    have new := away index within
    have old := (owns.2 index within).1
    unfold Server.occupied at here ⊢
    rw [grown.objects, relocated, if_neg, if_neg]
    · exact here
    · intro given
      obtain ⟨same, below⟩ := given
      exact old ⟨same, Nat.lt_of_lt_of_le below bounded⟩
    · intro given
      obtain ⟨same, below⟩ := given
      exact new ⟨same, Nat.lt_of_lt_of_le below (by omega)⟩
  · intro index within
    rw [grown.cameras]
    exact away index within

theorem reserve_reserved {num : Nat} {middle : Server} (supported : Supported s)
    (owns : s.Owns ⟨source, num, num⟩)
    (taken : s.reserve (s.cameras.size + num) buffer capacity = some middle) :
    Reserved s middle source num := by
  rcases reserve_cases taken with ⟨room, rfl⟩ | ⟨full, allocates, rfl⟩
  · exact ⟨supported, rfl, room, fun index within => ((owns.2 index within).2).mpr within,
      fun index within => (owns.2 index within).1⟩
  · exact (grow_reserved supported owns full allocates).1

/-- The cameras are appended, the argument is cleared and the appended cameras are registered. -/
theorem addCameras_parts (supported : Supported s)
    (owns : s.Owns ⟨source, handles.length, handles.length⟩)
    (taken : ((s.reserve (s.cameras.size + handles.length) buffer capacity).bind fun s =>
      let s := forUp (Server.insertEnd source) handles.length s
      let s := s.clear source handles.length
      s.registerFrom (s.cameras.size - handles.length) handles) = some next) :
    ∃ middle filled, s.reserve (s.cameras.size + handles.length) buffer capacity = some middle ∧
      Carries middle filled ∧ filled.cameras.size = s.cameras.size + handles.length ∧
      filled.registerFrom s.cameras.size handles = some next := by
  obtain ⟨middle, reservation, registration⟩ := Option.bind_eq_some_iff.mp taken
  have reserved := reserve_reserved supported owns reservation
  have size := reserved.size
  have inserted := insertEnd_loop reserved.supported (by rw [size]; exact reserved.room)
    reserved.present reserved.outside
  have outside (index : Nat) (within : index < handles.length) :
      ¬ (forUp (Server.insertEnd source) handles.length middle).cameras.Inside
        ⟨source, index⟩ := by
    rw [inserted.cameras]
    exact reserved.outside index within
  obtain ⟨cleared, cameras⟩ := clear_carries inserted.carries.supported outside
  have total : ((forUp (Server.insertEnd source) handles.length middle).clear source
      handles.length).cameras.size = s.cameras.size + handles.length := by
    rw [cameras, inserted.cameras, ← size]
  have first : s.cameras.size + handles.length - handles.length = s.cameras.size := by omega
  simp only [total, first] at registration
  refine ⟨middle, _, reservation, ⟨cleared.supported, ?_, ?_, ?_⟩, total, registration⟩
  · exact cleared.running.trans inserted.carries.running
  · exact fun base waiting => cleared.pending base (inserted.carries.pending base waiting)
  · exact fun listener lost => cleared.stale listener (inserted.carries.stale listener lost)

theorem addCameras_supported (supported : Supported s)
    (owns : s.Owns ⟨source, handles.length, handles.length⟩)
    (taken : ((s.reserve (s.cameras.size + handles.length) buffer capacity).bind fun s =>
      let s := forUp (Server.insertEnd source) handles.length s
      let s := s.clear source handles.length
      s.registerFrom (s.cameras.size - handles.length) handles) = some next) :
    Supported next := by
  obtain ⟨middle, filled, _, carries, size, registration⟩ := addCameras_parts supported owns taken
  exact (registerFrom_spec carries.supported (Nat.le_of_eq size.symm) registration).1

/-- The new registrations complete an insertion exactly when the registry stays in place. -/
theorem addCameras_attached_iff (supported : Supported s) (attached : Attached s)
    (owns : s.Owns ⟨source, handles.length, handles.length⟩)
    (taken : ((s.reserve (s.cameras.size + handles.length) buffer capacity).bind fun s =>
      let s := forUp (Server.insertEnd source) handles.length s
      let s := s.clear source handles.length
      s.registerFrom (s.cameras.size - handles.length) handles) = some next) :
    Attached next ↔ Fits s handles.length := by
  obtain ⟨middle, filled, reservation, carries, size, registration⟩ :=
    addCameras_parts supported owns taken
  obtain ⟨done, cameras, _, settle, lose⟩ :=
    registerFrom_spec carries.supported (Nat.le_of_eq size.symm) registration
  have pending := (attached_iff_pending supported.owned).mp attached
  have finish (waiting : Pending middle s.cameras.size) : Attached next := by
    have settled := settle (carries.pending _ waiting)
    rw [attached_iff_pending done.owned, cameras, size]
    exact settled
  rcases reserve_cases reservation with ⟨room, rfl⟩ | ⟨full, allocates, rfl⟩
  · exact iff_of_true (finish pending) (Or.inl room)
  obtain ⟨reserved, grown, apart⟩ := grow_reserved supported owns full allocates
  by_cases empty : s.cameras.size = 0
  · refine iff_of_true (finish ?_) (Or.inr empty)
    have same := grown.objects_of_empty empty
    rw [empty] at pending ⊢
    refine ⟨Nat.zero_le _, fun listener member => ?_, fun index below => absurd below (by omega)⟩
    rw [grown.registered] at member
    rcases pending.live listener member with captured | ⟨index, _, below, _⟩
    · left
      unfold Server.handleAt at captured ⊢
      rw [same]
      exact captured
    · omega
  · refine iff_of_false ?_ ?_
    · obtain ⟨listener, member, captured, handle⟩ :=
        attached.first supported (Nat.pos_of_ne_zero empty)
      have stale := grown.stale (Nat.pos_of_ne_zero empty) (Nat.le_refl _) apart member captured
        handle
      exact (lose (Nat.pos_of_ne_zero empty) listener
        (carries.stale listener stale)).not_attached done.owned
    · intro given
      rcases given with room | none
      · exact full room
      · exact empty none

end AddCameras

section SetCameras

variable {s next : Server} {source : Block} {handles : List Nat}

/-- This is the state after some destructions of old elements. -/
structure Cleared (s t : Server) : Prop where
  owned : Owned t.handleAt t.registered
  live : Live s.handleAt s.registered → Live t.handleAt t.registered
  occupied : ∀ a, ¬ s.cameras.Inside a → t.occupied a = s.occupied a

theorem clear_cleared (supported : Supported s) :
    Cleared s (s.clear s.cameras.buffer s.cameras.size) := by
  apply forUp_rule (fun _ t => Cleared s t)
  · exact ⟨supported.owned, id, fun _ _ => rfl⟩
  · intro index t below given
    obtain ⟨owned, live, occupied⟩ := given
    have registered := registered_destroy t ⟨s.cameras.buffer, index⟩ owned.numbered
    have handles := handleAt_destroy t ⟨s.cameras.buffer, index⟩
    refine ⟨?_, fun before => ?_, fun a outside => ?_⟩
    · rw [registered, handles]
      exact owned.release _
    · rw [registered, handles]
      exact (live before).release _
    · have different : a ≠ ⟨s.cameras.buffer, index⟩ := by
        rintro rfl
        exact outside ⟨rfl, Nat.lt_of_lt_of_le below supported.laid.bounded⟩
      rw [occupied_destroy, Function.update_of_ne different]
      exact occupied a outside

/-- The registry takes over a vector whose listeners are replaced. -/
theorem setCameras_spec (supported : Supported s) (owns : s.Owns source)
    (length : handles.length = source.size)
    (taken : Server.registerFrom 0 handles
      { s.clear s.cameras.buffer s.cameras.size with cameras := source } = some next) :
    Supported next ∧ (Attached s → Attached next) := by
  have cleared := clear_cleared supported
  have adopted : Supported { s.clear s.cameras.buffer s.cameras.size with cameras := source } := by
    refine ⟨cleared.owned, owns.1, fun index within => ?_⟩
    obtain ⟨outside, elements⟩ := owns.2 index within
    rw [← elements]
    exact Eq.congr_left (cleared.occupied _ outside)
  have bound : 0 + handles.length ≤ source.size := by omega
  obtain ⟨done, cameras, _, settle, _⟩ := registerFrom_spec adopted bound taken
  refine ⟨done, fun attached => ?_⟩
  have pending := (attached_iff_pending supported.owned).mp attached
  have live : Live s.handleAt s.registered := by
    intro listener member
    rcases pending.live listener member with captured | ⟨index, above, below, _⟩
    · exact captured
    · omega
  have waiting : Pending { s.clear s.cameras.buffer s.cameras.size with cameras := source } 0 :=
    ⟨Nat.zero_le _, fun listener member => Or.inl (cleared.live live listener member),
      fun _ below => absurd below (Nat.not_lt_zero _)⟩
  have settled := settle waiting
  rw [Nat.zero_add, length] at settled
  rw [attached_iff_pending done.owned, cameras]
  exact settled

end SetCameras

/-- A running server refuses the change. -/
theorem unlessRunning_cases {body : Server → Option Server} {s next : Server}
    (taken : (Server.unlessRunning body s).map Prod.snd = some next) :
    s.running = true ∧ next = s ∨ s.running = false ∧ body s = some next := by
  unfold Server.unlessRunning at taken
  cases running : s.running with
  | true =>
      rw [running, if_pos rfl] at taken
      exact Or.inl ⟨rfl, (Option.some.inj taken).symm⟩
  | false =>
      rw [running, if_neg Bool.false_ne_true, Option.map_map] at taken
      obtain ⟨after, done, same⟩ := Option.map_eq_some_iff.mp taken
      exact Or.inr ⟨rfl, by rw [done]; exact congrArg some same⟩

/-- Every operation keeps the ownership of the listeners and the layout of the registry. -/
theorem step_supported (s : Server) (op : Op) (next : Server) (supported : Supported s)
    (taken : step s op = some next) : Supported next := by
  cases step_stepped taken with
  | construct a name free outside =>
      exact supported.construct free outside name
  | moveConstruct target source free outside present =>
      exact supported.moveConstruct outside present
  | moveAssign target source this other =>
      exact supported.moveAssign this other
  | setNetworkAdjustable a handle _ done =>
      exact supported.renewed (setNetworkAdjustable_renewed done)
  | destroy a present outside =>
      exact supported.destroy outside
  | addCamera c buffer capacity handle _ present changed =>
      rcases unlessRunning_cases changed with ⟨_, rfl⟩ | ⟨_, done⟩
      · exact supported
      · exact addCamera_supported supported present done
  | addCameras source handles buffer capacity _ owns changed =>
      rcases unlessRunning_cases changed with ⟨_, rfl⟩ | ⟨_, done⟩
      · exact supported
      · exact addCameras_supported supported owns done
  | setCameras source handles _ owns length changed =>
      rcases unlessRunning_cases changed with ⟨_, rfl⟩ | ⟨_, done⟩
      · exact supported
      · exact (setCameras_spec supported owns length done).1
  | setRunning running =>
      exact ⟨supported.owned, supported.laid.bounded, supported.laid.elements⟩

/-- The operation moves no camera that has a listener, apart from the new ones that are registered
again. -/
def Stays (s : Server) : Op → Prop
  | .moveConstruct _ source => s.handleAt source = 0
  | .moveAssign target source => s.handleAt target = 0 ∧ s.handleAt source = 0
  | .addCamera c _ _ _ => s.running = true ∨ Spares s c
  | .addCameras _ handles _ _ => s.running = true ∨ Fits s handles.length
  | _ => True

/-- The attachment only depends on the objects of the listeners and of the registry. -/
theorem attached_of_move {s next : Server} {target source : Addr} (supported : Supported s)
    (kept : Supported next) (attached : Attached s)
    (handles : next.handleAt = moveHandle s.handleAt target source)
    (registered : next.registered = s.registered) (cameras : next.cameras = s.cameras)
    (others : ∀ a, a ≠ target → a ≠ source → next.objects a = s.objects a) :
    Attached next ↔ s.handleAt target = 0 ∧ s.handleAt source = 0 := by
  have pending := (attached_iff_pending supported.owned).mp attached
  have live : Live s.handleAt s.registered := by
    intro listener member
    rcases pending.live listener member with captured | ⟨index, above, below, _⟩
    · exact captured
    · omega
  rw [← live.move_iff supported.owned target source, ← handles,
    attached_iff_pending kept.owned, cameras]
  constructor
  · intro after listener member
    rw [← registered] at member
    rcases after.live listener member with captured | ⟨index, above, below, _⟩
    · exact captured
    · rw [cameras] at below
      omega
  · intro after
    refine ⟨Nat.le_of_eq (by rw [cameras]), fun listener member => Or.inl ?_, ?_⟩
    · rw [registered] at member
      exact after listener member
    · intro index within
      have reached := pending.reached index within
      have free := (live.move_iff supported.owned target source).mp (handles ▸ after)
      have used := reached.used supported.owned
      refine reached.keep (by rw [cameras]) (others _ ?_ ?_) ?_
      · rintro rfl
        exact used free.1
      · rintro rfl
        exact used free.2
      · intro listener member _
        rw [registered]
        exact member

section CameraObjects

variable {s : Server} (supported : Supported s) (attached : Attached s)
include supported attached

omit supported in
/-- A new object at a free place keeps the attachment. -/
theorem Attached.construct {a : Addr} (free : s.objects a = none) (name : String) :
    Attached (s.construct a name) := by
  have other {b : Addr} (present : s.occupied b = true) :
      (s.construct a name).objects b = s.objects b := by
    have different : b ≠ a := by
      rintro rfl
      rw [Server.occupied, free] at present
      cases present
    exact Function.update_of_ne different _ _
  refine ⟨fun listener member => ?_, fun index within => ?_⟩
  · obtain ⟨camera, found, id⟩ := attached.live listener member
    rw [other (Server.occupied_iff.mpr ⟨camera, found⟩)]
    exact ⟨camera, found, id⟩
  · obtain ⟨camera, found, topics, called⟩ := attached.updated index within
    change ∃ camera, (s.construct a name).objects (s.cameras.slot index) = some camera ∧ _
    rw [other (Server.occupied_iff.mpr ⟨camera, found⟩)]
    exact ⟨camera, found, topics, called⟩

/-- A construction from a camera keeps the attachment exactly when that camera has no listener. -/
theorem moveConstruct_attached_iff {target source : Addr} (free : s.objects target = none)
    (present : s.occupied source = true) (kept : Supported (s.moveConstruct target source)) :
    Attached (s.moveConstruct target source) ↔ s.handleAt source = 0 := by
  have unused : s.handleAt target = 0 := by
    rw [Server.handleAt, free]
    rfl
  rw [attached_of_move supported kept attached (handleAt_moveConstruct present target) rfl rfl
    (fun _ first second => moveObject_other first second)]
  exact and_iff_right unused

/-- An assignment keeps the attachment exactly when neither camera has a listener. -/
theorem moveAssign_attached_iff {target source : Addr} (this : s.occupied target = true)
    (other : s.occupied source = true) (kept : Supported (s.moveAssign target source)) :
    Attached (s.moveAssign target source) ↔ s.handleAt target = 0 ∧ s.handleAt source = 0 := by
  obtain ⟨camera, found⟩ := Server.occupied_iff.mp this
  obtain ⟨moved, given⟩ := Server.occupied_iff.mp other
  have shape : s.moveAssign target source = { s with
      objects := Function.update (Function.update s.objects target
        (some (camera.assigned moved))) source (some moved.movedFrom) } := by
    rw [Server.moveAssign, found, given]
  apply attached_of_move supported kept attached (handleAt_moveAssign this other)
  · rw [shape]
  · rw [shape]
  · intro a first second
    rw [shape]
    change Function.update (Function.update s.objects target _) source _ a = _
    rw [Function.update_of_ne second, Function.update_of_ne first]

/-- The destruction of an object outside the registry keeps the attachment. -/
theorem Attached.destroy {a : Addr} (outside : ¬ s.cameras.Inside a) : Attached (s.destroy a) := by
  have pending := (attached_iff_pending supported.owned).mp attached
  rw [attached_iff_pending (supported.destroy outside).owned, cameras_destroy]
  apply pending.destroy supported
  rintro index within rfl
  exact outside (Block.slot_inside (Nat.lt_of_lt_of_le within supported.laid.bounded))

end CameraObjects

/-- An operation keeps the attachment exactly when it moves no camera that has a listener. -/
theorem step_attached_iff (s : Server) (op : Op) (next : Server) (supported : Supported s)
    (attached : Attached s) (taken : step s op = some next) : Attached next ↔ Stays s op := by
  have kept := step_supported s op next supported taken
  cases step_stepped taken with
  | construct a name free outside =>
      exact iff_of_true (attached.construct free name) trivial
  | moveConstruct target source free outside present =>
      exact moveConstruct_attached_iff supported attached free present kept
  | moveAssign target source this other =>
      exact moveAssign_attached_iff supported attached this other kept
  | setNetworkAdjustable a handle _ done =>
      exact iff_of_true (attached.renew supported (setNetworkAdjustable_renewed done)) trivial
  | destroy a present outside =>
      exact iff_of_true (attached.destroy supported outside) trivial
  | addCamera c buffer capacity handle _ present changed =>
      rcases unlessRunning_cases changed with ⟨running, rfl⟩ | ⟨running, done⟩
      · exact iff_of_true attached (Or.inl running)
      · rw [addCamera_attached_iff supported attached present done]
        simp [Stays, running]
  | addCameras source handles buffer capacity _ owns changed =>
      rcases unlessRunning_cases changed with ⟨running, rfl⟩ | ⟨running, done⟩
      · exact iff_of_true attached (Or.inl running)
      · rw [addCameras_attached_iff supported attached owns done]
        simp [Stays, running]
  | setCameras source handles _ owns length changed =>
      rcases unlessRunning_cases changed with ⟨_, rfl⟩ | ⟨_, done⟩
      · exact iff_of_true attached trivial
      · exact iff_of_true ((setCameras_spec supported owns length done).2 attached) trivial
  | setRunning running =>
      exact iff_of_true ⟨attached.live, attached.updated⟩ trivial

theorem initial_supported : Supported initial := by
  refine ⟨⟨?_, ?_, ?_⟩, Nat.le_refl _, ?_⟩
  · exact fun _ member => absurd member List.not_mem_nil
  · exact fun _ used => absurd rfl used
  · exact fun _ _ used => absurd rfl used
  · exact fun _ within => absurd within (Nat.not_lt_zero _)

theorem initial_attached : Attached initial :=
  ⟨fun _ member => absurd member List.not_mem_nil,
    fun _ within => absurd within (Nat.not_lt_zero _)⟩

/-- Every listener captures its camera in every state of a history exactly when no operation of
the history moves a camera that has a listener. -/
theorem always_attached_iff (ops : List Op) :
    machine.Always Attached initial ops ↔ machine.Meets Stays initial ops :=
  machine.always_iff_meets step_supported step_attached_iff initial_supported initial_attached ops

/-- The second camera makes the vector grow, and the first listener keeps the old address. -/
theorem twoCameras_not_attached :
    ¬ machine.Always Attached initial
      [.construct ⟨7, 0⟩ "left", .addCamera ⟨7, 0⟩ 1 1 1,
        .construct ⟨8, 0⟩ "right", .addCamera ⟨8, 0⟩ 2 2 2] := by
  intro always
  have last := always.last machine rfl
  obtain ⟨camera, found, _⟩ := last.live ⟨1, ⟨1, 0⟩, "/Vision Server/Cameras/left"⟩ (by decide)
  have present := Option.isSome_of_eq_some found
  exact absurd present (by decide)

end VisionServer.Camera.Listeners
