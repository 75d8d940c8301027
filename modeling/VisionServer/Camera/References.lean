/-
This file models how cameras and source objects share the reference counts of the capture library.
-/

import VisionServer.Library.Machine
import VisionServer.Library.Ownership
import Mathlib.Tactic.SplitIfs

namespace VisionServer.Camera.References
open Library

inductive Kind where
  | source | camera
deriving DecidableEq

/-- The objects have a kind and a source handle, and the library counts the references of each
handle. The handles start at one, and zero names no source. -/
structure Objects where
  live : Finset Nat
  kind : Nat → Kind
  handle : Nat → Nat
  references : Nat → Nat
  created : Nat

namespace Objects

/-- The creation of a source yields one reference. -/
def createSource (s : Objects) : Nat × Objects :=
  (s.created + 1, { s with
    created := s.created + 1
    references := Function.update s.references (s.created + 1) 1 })

/-- This is the copy of a handle by the copy constructor of `VideoSource`. The library refuses a
released handle. -/
def copySource (handle : Nat) (s : Objects) : Nat × Objects :=
  if handle = 0 ∨ s.references handle = 0 then (0, s)
  else (handle,
    { s with references := Function.update s.references handle (s.references handle + 1) })

/-- This is the release of a handle by the destructor of `VideoSource`. -/
def releaseSource (handle : Nat) (s : Objects) : Objects :=
  if handle = 0 then s
  else { s with references := Function.update s.references handle (s.references handle - 1) }

/-- The sink takes its source by value, so the copy is released on return. -/
def setSinkSource (handle : Nat) (s : Objects) : Objects :=
  let (source, s) := s.copySource handle
  s.releaseSource source

/-- A constructor ends with a live object that holds a handle. -/
def place (id : Nat) (kind : Kind) (handle : Nat) (s : Objects) : Objects :=
  { s with
    live := insert id s.live
    kind := Function.update s.kind id kind
    handle := Function.update s.handle id handle }

def setHandle (id handle : Nat) (s : Objects) : Objects :=
  { s with handle := Function.update s.handle id handle }

/-- These are the constructors of `UsbCamera` and `HttpCamera`, which may fail to open. -/
def sourceOpen (id : Nat) (opened : Bool) (s : Objects) : Objects :=
  if opened then
    let (handle, s) := s.createSource
    s.place id .source handle
  else s.place id .source 0

/-- This is the copy constructor of `VideoSource`. -/
def sourceCopy (id other : Nat) (s : Objects) : Objects :=
  let (handle, s) := s.copySource (s.handle other)
  s.place id .source handle

/-- This is the move constructor of `VideoSource`: a default construction and a swap. -/
def sourceMove (id other : Nat) (s : Objects) : Objects :=
  (s.place id .source (s.handle other)).setHandle other 0

/-- This is the move assignment of `VideoSource`: its parameter takes the handle by a move, is
swapped with the target and is released on return. -/
def sourceAssign (id other : Nat) (s : Objects) : Objects :=
  let parameter := s.handle other
  let s := s.setHandle other 0
  let overwritten := s.handle id
  (s.setHandle id parameter).releaseSource overwritten

/-- This is `cam = cs::UsbCamera(name, path)` for an empty local `cam`. -/
def openUsbCamera (opened : Bool) (s : Objects) : Nat × Objects :=
  let cam := 0
  if opened then
    let (temporary, s) := s.createSource
    let (parameter, temporary) := (temporary, 0)
    let (cam, parameter) := (parameter, cam)
    (cam, (s.releaseSource parameter).releaseSource temporary)
  else (cam, s)

/-- These are the JSON constructors: the new camera swaps its empty handle with the local one. -/
def cameraOfJson (id : Nat) (opened : Bool) (s : Objects) : Objects :=
  let (cam, s) := s.openUsbCamera opened
  let (this, cam) := (cam, 0)
  ((s.setSinkSource this).place id .camera this).releaseSource cam

/-- These are the constructors from `VideoSource`, `UsbCamera` and `HttpCamera`. They pass the
handle on without a reference of their own. -/
def cameraOfSource (id other : Nat) (s : Objects) : Objects :=
  (s.setSinkSource (s.handle other)).place id .camera (s.handle other)

/-- This is the move constructor of `VisionCamera`. -/
def cameraMove (id other : Nat) (s : Objects) : Objects :=
  (s.place id .camera (s.handle other)).setHandle other 0

/-- This is the move assignment of `VisionCamera`. It drops the handle that it overwrites. -/
def cameraAssign (id other : Nat) (s : Objects) : Objects :=
  (s.setHandle id (s.handle other)).setHandle other 0

/-- Every destructor releases the handle that the object still holds. -/
def destroy (id : Nat) (s : Objects) : Objects :=
  let s' := s.releaseSource (s.handle id)
  { s' with live := s'.live.erase id }

end Objects

/-- These are the operations of a history. A new object takes an identity that is not live. -/
inductive Op where
  | sourceOpen (id : Nat) (opened : Bool)
  | sourceCopy (id other : Nat)
  | sourceMove (id other : Nat)
  | sourceAssign (id other : Nat)
  | cameraOfJson (id : Nat) (opened : Bool)
  | cameraOfSource (id other : Nat)
  | cameraMove (id other : Nat)
  | cameraAssign (id other : Nat)
  | destroy (id : Nat)

/-- The operation runs on objects of the right kinds. -/
def step (s : Objects) : Op → Option Objects
  | .sourceOpen id opened => if id ∉ s.live then some (s.sourceOpen id opened) else none
  | .sourceCopy id other =>
      if id ∉ s.live ∧ other ∈ s.live then some (s.sourceCopy id other) else none
  | .sourceMove id other =>
      if id ∉ s.live ∧ other ∈ s.live ∧ s.kind other = .source then some (s.sourceMove id other)
      else none
  | .sourceAssign id other =>
      if id ∈ s.live ∧ other ∈ s.live ∧ s.kind id = .source ∧ s.kind other = .source then
        some (s.sourceAssign id other)
      else none
  | .cameraOfJson id opened => if id ∉ s.live then some (s.cameraOfJson id opened) else none
  | .cameraOfSource id other =>
      if id ∉ s.live ∧ other ∈ s.live then some (s.cameraOfSource id other) else none
  | .cameraMove id other =>
      if id ∉ s.live ∧ other ∈ s.live ∧ s.kind other = .camera then some (s.cameraMove id other)
      else none
  | .cameraAssign id other =>
      if id ∈ s.live ∧ other ∈ s.live ∧ s.kind id = .camera ∧ s.kind other = .camera then
        some (s.cameraAssign id other)
      else none
  | .destroy id => if id ∈ s.live then some (s.destroy id) else none

def machine : Machine Objects Op := ⟨step⟩

def initial : Objects := ⟨∅, fun _ => .source, fun _ => 0, fun _ => 0, 0⟩

/-- The count of each source is the number of the live objects that hold it. -/
structure Balanced (s : Objects) : Prop where
  counted : ∀ handle, handle ≠ 0 → s.references handle = holders s.live s.handle handle
  valid : ∀ id ∈ s.live, s.handle id ≠ 0 → 0 < s.references (s.handle id)

/-- The equation alone excludes released handles. -/
theorem balanced_iff (s : Objects) :
    Balanced s ↔ ∀ handle, handle ≠ 0 → s.references handle = holders s.live s.handle handle := by
  constructor
  · exact fun balanced => balanced.counted
  · intro counted
    refine ⟨counted, fun id alive named => ?_⟩
    rw [counted _ named]
    exact holders_pos alive s.handle

/-- Every handle in use was created, and no other handle has references. -/
structure Created (s : Objects) : Prop where
  held : ∀ id ∈ s.live, s.handle id ≤ s.created
  counted : ∀ handle, s.created < handle → s.references handle = 0

/-- The temporary reference of the sink cancels. -/
theorem setSinkSource_eq (handle : Nat) (s : Objects) : s.setSinkSource handle = s := by
  unfold Objects.setSinkSource Objects.copySource Objects.releaseSource
  split_ifs with absent
  · rfl
  · simp only [not_or] at absent
    simp [absent.1]

/-- A JSON construction keeps the handle that it created. -/
theorem cameraOfJson_eq (id : Nat) (opened : Bool) (s : Objects) :
    s.cameraOfJson id opened =
      if opened then s.createSource.2.place id .camera (s.created + 1) else s.place id .camera 0 := by
  cases opened <;>
    simp [Objects.cameraOfJson, Objects.openUsbCamera, Objects.createSource, setSinkSource_eq,
      Objects.releaseSource]

theorem holders_place {id : Nat} {s : Objects} (dead : id ∉ s.live) (kind : Kind)
    (given handle : Nat) :
    holders (s.place id kind given).live (s.place id kind given).handle handle =
      holders s.live s.handle handle + if given = handle then 1 else 0 :=
  holders_insert dead s.handle given handle

/-- A new object with a new source keeps the balance. -/
theorem create_balanced {s : Objects} (created : Created s) (balanced : Balanced s) {id : Nat}
    (dead : id ∉ s.live) (kind : Kind) :
    Balanced (s.createSource.2.place id kind (s.created + 1)) := by
  rw [balanced_iff]
  intro handle named
  have unheld : holders s.live s.handle (s.created + 1) = 0 := by
    apply holders_eq_zero
    intro other alive same
    have bound := created.held other alive
    omega
  rw [holders_place (s := s.createSource.2) dead]
  change Function.update s.references (s.created + 1) 1 handle =
    holders s.live s.handle handle + _
  by_cases fresh : s.created + 1 = handle
  · subst fresh
    simp [unheld]
  · rw [Function.update_of_ne (Ne.symm fresh), if_neg fresh, balanced.counted handle named]
    rfl

/-- A new object that names no source keeps the balance. -/
theorem place_zero_balanced {s : Objects} (balanced : Balanced s) {id : Nat} (dead : id ∉ s.live)
    (kind : Kind) : Balanced (s.place id kind 0) := by
  rw [balanced_iff]
  intro handle named
  rw [holders_place dead, if_neg (Ne.symm named), Nat.add_zero]
  exact balanced.counted handle named

/-- A copy counts its own reference. -/
theorem sourceCopy_balanced {s : Objects} (balanced : Balanced s) {id other : Nat}
    (dead : id ∉ s.live) (alive : other ∈ s.live) : Balanced (s.sourceCopy id other) := by
  unfold Objects.sourceCopy Objects.copySource
  by_cases named : s.handle other = 0
  · simp only [named, true_or, if_true]
    exact place_zero_balanced balanced dead _
  · have counted := balanced.valid other alive named
    have valid : ¬ (s.handle other = 0 ∨ s.references (s.handle other) = 0) := by omega
    simp only [valid, if_false]
    rw [balanced_iff]
    intro handle used
    have holding := holders_insert dead s.handle (s.handle other) handle
    have before := balanced.counted handle used
    change Function.update s.references (s.handle other) (s.references (s.handle other) + 1) handle =
      holders (insert id s.live) (Function.update s.handle id (s.handle other)) handle
    by_cases same : s.handle other = handle
    · subst same
      rw [if_pos rfl] at holding
      rw [Function.update_self, holding, before]
    · rw [if_neg same] at holding
      rw [Function.update_of_ne (Ne.symm same), holding, before, Nat.add_zero]

/-- A move construction passes the reference on. -/
theorem move_balanced {s : Objects} (balanced : Balanced s) {id other : Nat}
    (dead : id ∉ s.live) (alive : other ∈ s.live) (kind : Kind) :
    Balanced ((s.place id kind (s.handle other)).setHandle other 0) := by
  rw [balanced_iff]
  intro handle named
  have different : other ≠ id := fun same => dead (same ▸ alive)
  have added := holders_insert dead s.handle (s.handle other) handle
  have member : other ∈ insert id s.live := Finset.mem_insert_of_mem alive
  have moved := holders_update member (Function.update s.handle id (s.handle other)) 0 handle
  rw [Function.update_of_ne different, if_neg (Ne.symm named)] at moved
  have before := balanced.counted handle named
  change s.references handle = holders (insert id s.live)
    (Function.update (Function.update s.handle id (s.handle other)) other 0) handle
  omega

/-- A move assignment loses one holder of the handle that it overwrites. -/
theorem holders_cameraAssign {s : Objects} {id other : Nat} (target : id ∈ s.live)
    (alive : other ∈ s.live) {handle : Nat} (named : handle ≠ 0) :
    holders s.live (s.cameraAssign id other).handle handle +
        (if s.handle id = handle then 1 else 0) = holders s.live s.handle handle := by
  have assigned := holders_update target s.handle (s.handle other) handle
  have emptied := holders_update alive (Function.update s.handle id (s.handle other)) 0 handle
  have taken : Function.update s.handle id (s.handle other) other = s.handle other := by
    by_cases same : other = id
    · rw [same, Function.update_self]
    · exact Function.update_of_ne same _ _
  rw [taken, if_neg (Ne.symm named)] at emptied
  change holders s.live
    (Function.update (Function.update s.handle id (s.handle other)) other 0) handle + _ = _
  omega

/-- A move assignment keeps the balance exactly when its target holds no source. -/
theorem cameraAssign_balanced_iff {s : Objects} (balanced : Balanced s) {id other : Nat}
    (target : id ∈ s.live) (alive : other ∈ s.live) :
    Balanced (s.cameraAssign id other) ↔ s.handle id = 0 := by
  rw [balanced_iff]
  constructor
  · intro counted
    by_contra named
    have after := counted (s.handle id) named
    have lost := holders_cameraAssign target alive named
    have before := balanced.counted (s.handle id) named
    rw [if_pos rfl] at lost
    change s.references (s.handle id) = holders s.live (s.cameraAssign id other).handle _ at after
    omega
  · intro empty handle named
    have kept := holders_cameraAssign target alive named
    rw [empty, if_neg (Ne.symm named), Nat.add_zero] at kept
    change s.references handle = holders s.live (s.cameraAssign id other).handle handle
    rw [kept]
    exact balanced.counted handle named

/-- A construction from a source object keeps the balance exactly when that object is empty. -/
theorem cameraOfSource_balanced_iff {s : Objects} (balanced : Balanced s) {id other : Nat}
    (dead : id ∉ s.live) : Balanced (s.cameraOfSource id other) ↔ s.handle other = 0 := by
  unfold Objects.cameraOfSource
  rw [setSinkSource_eq]
  constructor
  · intro after
    by_contra named
    have counted := after.counted (s.handle other) named
    have before := balanced.counted (s.handle other) named
    rw [holders_place dead, if_pos rfl] at counted
    change s.references (s.handle other) = _ at counted
    omega
  · intro empty
    rw [empty]
    exact place_zero_balanced balanced dead _

/-- A release settles a state whose counts exceed the holders by the released handle. -/
theorem releaseSource_balanced {s : Objects} {owed : Nat}
    (counted : ∀ handle, handle ≠ 0 → s.references handle =
      holders s.live s.handle handle + if owed = handle then 1 else 0) :
    Balanced (s.releaseSource owed) := by
  rw [balanced_iff]
  intro handle named
  have before := counted handle named
  unfold Objects.releaseSource
  by_cases empty : owed = 0
  · rw [if_neg (by omega)] at before
    rw [if_pos empty]
    exact before
  · rw [if_neg empty]
    change Function.update s.references owed (s.references owed - 1) handle =
      holders s.live s.handle handle
    by_cases same : owed = handle
    · subst same
      rw [if_pos rfl] at before
      rw [Function.update_self]
      omega
    · rw [if_neg same] at before
      rw [Function.update_of_ne (Ne.symm same)]
      exact before

/-- A destruction releases exactly the reference that its object held. -/
theorem destroy_balanced {s : Objects} (balanced : Balanced s) {id : Nat} (alive : id ∈ s.live) :
    Balanced (s.destroy id) := by
  have erased_first :
      s.destroy id = Objects.releaseSource (s.handle id) { s with live := s.live.erase id } := by
    unfold Objects.destroy Objects.releaseSource
    split_ifs <;> rfl
  rw [erased_first]
  apply releaseSource_balanced
  intro handle named
  exact (balanced.counted handle named).trans (holders_erase alive s.handle handle).symm

/-- A move assignment of source objects releases the reference that it overwrites. -/
theorem sourceAssign_balanced {s : Objects} (balanced : Balanced s) {id other : Nat}
    (target : id ∈ s.live) (alive : other ∈ s.live) : Balanced (s.sourceAssign id other) := by
  apply releaseSource_balanced
  intro handle named
  have before := balanced.counted handle named
  have emptied := holders_update alive s.handle 0 handle
  have assigned := holders_update target (Function.update s.handle other 0) (s.handle other) handle
  rw [if_neg (Ne.symm named)] at emptied
  change s.references handle = holders s.live
    (Function.update (Function.update s.handle other 0) id (s.handle other)) handle +
      if Function.update s.handle other 0 id = handle then 1 else 0
  omega

section Creation

variable {s : Objects} (created : Created s)
include created

theorem place_created (id : Nat) (kind : Kind) {handle : Nat} (bound : handle ≤ s.created) :
    Created (s.place id kind handle) := by
  refine ⟨fun other alive => ?_, created.counted⟩
  change Function.update s.handle id handle other ≤ s.created
  by_cases same : other = id
  · rw [same, Function.update_self]
    exact bound
  · rw [Function.update_of_ne same]
    exact created.held other (Finset.mem_of_mem_insert_of_ne alive same)

theorem setHandle_created (id : Nat) {handle : Nat} (bound : handle ≤ s.created) :
    Created (s.setHandle id handle) := by
  refine ⟨fun other alive => ?_, created.counted⟩
  change Function.update s.handle id handle other ≤ s.created
  by_cases same : other = id
  · rw [same, Function.update_self]
    exact bound
  · rw [Function.update_of_ne same]
    exact created.held other alive

theorem createSource_created : Created s.createSource.2 := by
  constructor
  · intro id alive
    have bound := created.held id alive
    change s.handle id ≤ s.created + 1
    omega
  · intro handle beyond
    change s.created + 1 < handle at beyond
    change Function.update s.references (s.created + 1) 1 handle = 0
    rw [Function.update_of_ne (by omega)]
    exact created.counted handle (by omega)

theorem copySource_created (handle : Nat) :
    Created (s.copySource handle).2 ∧ (s.copySource handle).2.created = s.created ∧
      (s.copySource handle).1 ≤ s.created := by
  unfold Objects.copySource
  split_ifs with absent
  · exact ⟨created, rfl, Nat.zero_le _⟩
  · have bound : handle ≤ s.created := by
      by_contra beyond
      exact absent (Or.inr (created.counted handle (by omega)))
    refine ⟨⟨created.held, fun other beyond => ?_⟩, rfl, bound⟩
    change s.created < other at beyond
    change Function.update s.references handle (s.references handle + 1) other = 0
    rw [Function.update_of_ne (by omega)]
    exact created.counted other beyond

theorem releaseSource_created (handle : Nat) : Created (s.releaseSource handle) := by
  unfold Objects.releaseSource
  split_ifs with empty
  · exact created
  · refine ⟨created.held, fun other beyond => ?_⟩
    have counted := created.counted other beyond
    change Function.update s.references handle (s.references handle - 1) other = 0
    by_cases same : other = handle
    · rw [same, Function.update_self, ← same, counted]
    · rw [Function.update_of_ne same]
      exact counted

theorem destroy_created (id : Nat) : Created (s.destroy id) := by
  have released := releaseSource_created created (s.handle id)
  exact ⟨fun other alive => released.held other (Finset.mem_of_mem_erase alive),
    released.counted⟩

end Creation

/-- These are all steps with what they need. -/
inductive Stepped (s : Objects) : Op → Objects → Prop where
  | sourceOpen (id : Nat) (opened : Bool) (dead : id ∉ s.live) :
      Stepped s (.sourceOpen id opened) (s.sourceOpen id opened)
  | sourceCopy (id other : Nat) (dead : id ∉ s.live) (alive : other ∈ s.live) :
      Stepped s (.sourceCopy id other) (s.sourceCopy id other)
  | sourceMove (id other : Nat) (dead : id ∉ s.live) (alive : other ∈ s.live) :
      Stepped s (.sourceMove id other) (s.sourceMove id other)
  | sourceAssign (id other : Nat) (target : id ∈ s.live) (alive : other ∈ s.live) :
      Stepped s (.sourceAssign id other) (s.sourceAssign id other)
  | cameraOfJson (id : Nat) (opened : Bool) (dead : id ∉ s.live) :
      Stepped s (.cameraOfJson id opened) (s.cameraOfJson id opened)
  | cameraOfSource (id other : Nat) (dead : id ∉ s.live) (alive : other ∈ s.live) :
      Stepped s (.cameraOfSource id other) (s.cameraOfSource id other)
  | cameraMove (id other : Nat) (dead : id ∉ s.live) (alive : other ∈ s.live) :
      Stepped s (.cameraMove id other) (s.cameraMove id other)
  | cameraAssign (id other : Nat) (target : id ∈ s.live) (alive : other ∈ s.live) :
      Stepped s (.cameraAssign id other) (s.cameraAssign id other)
  | destroy (id : Nat) (alive : id ∈ s.live) : Stepped s (.destroy id) (s.destroy id)

theorem step_stepped {s next : Objects} {op : Op} (taken : step s op = some next) :
    Stepped s op next := by
  cases op with
  | sourceOpen id opened =>
      obtain ⟨dead, rfl⟩ := Option.ite_some_none_eq_some.mp taken
      exact .sourceOpen id opened dead
  | sourceCopy id other =>
      obtain ⟨⟨dead, alive⟩, rfl⟩ := Option.ite_some_none_eq_some.mp taken
      exact .sourceCopy id other dead alive
  | sourceMove id other =>
      obtain ⟨⟨dead, alive, _⟩, rfl⟩ := Option.ite_some_none_eq_some.mp taken
      exact .sourceMove id other dead alive
  | sourceAssign id other =>
      obtain ⟨⟨target, alive, _⟩, rfl⟩ := Option.ite_some_none_eq_some.mp taken
      exact .sourceAssign id other target alive
  | cameraOfJson id opened =>
      obtain ⟨dead, rfl⟩ := Option.ite_some_none_eq_some.mp taken
      exact .cameraOfJson id opened dead
  | cameraOfSource id other =>
      obtain ⟨⟨dead, alive⟩, rfl⟩ := Option.ite_some_none_eq_some.mp taken
      exact .cameraOfSource id other dead alive
  | cameraMove id other =>
      obtain ⟨⟨dead, alive, _⟩, rfl⟩ := Option.ite_some_none_eq_some.mp taken
      exact .cameraMove id other dead alive
  | cameraAssign id other =>
      obtain ⟨⟨target, alive, _⟩, rfl⟩ := Option.ite_some_none_eq_some.mp taken
      exact .cameraAssign id other target alive
  | destroy id =>
      obtain ⟨alive, rfl⟩ := Option.ite_some_none_eq_some.mp taken
      exact .destroy id alive

/-- Every operation uses only handles that were created. -/
theorem step_created (s : Objects) (op : Op) (next : Objects) (created : Created s)
    (taken : step s op = some next) : Created next := by
  have opened (id : Nat) (kind : Kind) :
      Created (s.createSource.2.place id kind (s.created + 1)) :=
    place_created (createSource_created created) id kind (Nat.le_refl _)
  cases step_stepped taken with
  | sourceOpen id opening dead =>
      cases opening with
      | true => exact opened id .source
      | false => exact place_created created id .source (Nat.zero_le _)
  | sourceCopy id other dead alive =>
      obtain ⟨copied, same, bound⟩ := copySource_created created (s.handle other)
      rw [← same] at bound
      exact place_created copied id .source bound
  | sourceMove id other dead alive =>
      have placed := place_created created id .source (created.held other alive)
      exact setHandle_created placed other (Nat.zero_le _)
  | sourceAssign id other target alive =>
      have emptied := setHandle_created created other (Nat.zero_le _)
      have assigned := setHandle_created emptied id (created.held other alive)
      exact releaseSource_created assigned _
  | cameraOfJson id opening dead =>
      rw [cameraOfJson_eq]
      cases opening with
      | true => exact opened id .camera
      | false => exact place_created created id .camera (Nat.zero_le _)
  | cameraOfSource id other dead alive =>
      unfold Objects.cameraOfSource
      rw [setSinkSource_eq]
      exact place_created created id .camera (created.held other alive)
  | cameraMove id other dead alive =>
      have placed := place_created created id .camera (created.held other alive)
      exact setHandle_created placed other (Nat.zero_le _)
  | cameraAssign id other target alive =>
      have assigned := setHandle_created created id (created.held other alive)
      exact setHandle_created assigned other (Nat.zero_le _)
  | destroy id alive =>
      exact destroy_created created id

/-- The two operations that do not account for a handle meet none. -/
def Transfers (s : Objects) : Op → Prop
  | .cameraOfSource _ other => s.handle other = 0
  | .cameraAssign id _ => s.handle id = 0
  | _ => True

/-- A step keeps the balance exactly when it transfers no handle without its reference. -/
theorem step_balanced_iff (s : Objects) (op : Op) (next : Objects) (created : Created s)
    (balanced : Balanced s) (taken : step s op = some next) :
    Balanced next ↔ Transfers s op := by
  cases step_stepped taken with
  | sourceOpen id opening dead =>
      apply iff_of_true _ trivial
      cases opening with
      | true => exact create_balanced created balanced dead .source
      | false => exact place_zero_balanced balanced dead .source
  | sourceCopy id other dead alive =>
      exact iff_of_true (sourceCopy_balanced balanced dead alive) trivial
  | sourceMove id other dead alive =>
      exact iff_of_true (move_balanced balanced dead alive .source) trivial
  | sourceAssign id other target alive =>
      exact iff_of_true (sourceAssign_balanced balanced target alive) trivial
  | cameraOfJson id opening dead =>
      rw [cameraOfJson_eq]
      apply iff_of_true _ trivial
      cases opening with
      | true => exact create_balanced created balanced dead .camera
      | false => exact place_zero_balanced balanced dead .camera
  | cameraOfSource id other dead alive =>
      exact cameraOfSource_balanced_iff balanced dead
  | cameraMove id other dead alive =>
      exact iff_of_true (move_balanced balanced dead alive .camera) trivial
  | cameraAssign id other target alive =>
      exact cameraAssign_balanced_iff balanced target alive
  | destroy id alive =>
      exact iff_of_true (destroy_balanced balanced alive) trivial

theorem initial_created : Created initial :=
  ⟨fun _ alive => absurd alive (Finset.notMem_empty _), fun _ _ => rfl⟩

theorem initial_balanced : Balanced initial :=
  ⟨fun _ _ => rfl, fun _ alive => absurd alive (Finset.notMem_empty _)⟩

/-- The counts are right in every state of a run exactly when each construction from a source
object finds it empty and each move assignment overwrites no source. -/
theorem always_balanced_iff (ops : List Op) :
    machine.Always Balanced initial ops ↔ machine.Meets Transfers initial ops :=
  machine.always_iff_meets step_created step_balanced_iff initial_created initial_balanced ops

/-- A camera that is built from a source object shares its single reference. -/
theorem cameraOfSource_not_balanced :
    ¬ machine.Always Balanced initial [.sourceOpen 0 true, .cameraOfSource 1 0] := by
  intro always
  have shared := always.last machine rfl
  have counted := shared.counted 1 (by decide)
  exact absurd counted (by decide)

end VisionServer.Camera.References
