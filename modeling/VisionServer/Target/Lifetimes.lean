/-
This file models the lifetimes of targets and the status that they publish.
-/

import VisionServer.Library.Machine
import VisionServer.Library.Ownership

namespace VisionServer.Target
open Library

/-- The published numbers are -1, 0 and 1. -/
inductive Status where
  | invalid | expired | valid
deriving DecidableEq

/-- The live objects refer to the tables of their names, and each table holds a status. The history
also keeps the last status that a constructor, `setValid` or `setExpired` published. -/
structure Targets where
  live : Finset Nat
  table : Nat → String
  status : String → Option Status
  published : String → Option Status

namespace Targets

/-- This is `PutNumber` on the table of an object. -/
def putStatus (id : Nat) (status : Status) (s : Targets) : Targets :=
  { s with status := Function.update s.status (s.table id) (some status) }

/-- This is a publication that the history keeps. -/
def announce (id : Nat) (status : Status) (s : Targets) : Targets :=
  { s.putStatus id status with
    published := Function.update s.published (s.table id) (some status) }

/-- A constructor ends with a live object that refers to a table. -/
def place (id : Nat) (table : String) (s : Targets) : Targets :=
  { s with live := insert id s.live, table := Function.update s.table id table }

/-- These are the constructors from a string. -/
def construct (id : Nat) (n : String) (s : Targets) : Targets :=
  (s.place id n).announce id .expired

/-- The copy refers to the same table and publishes nothing. -/
def copy (id other : Nat) (s : Targets) : Targets := s.place id (s.table other)

/-- A move copies the constant members, so the moved object keeps its name and its table. -/
def move (id other : Nat) (s : Targets) : Targets := s.copy id other

def setValid (id : Nat) : Targets → Targets := announce id .valid

def setExpired (id : Nat) : Targets → Targets := announce id .expired

/-- Every destructor publishes, even when other objects refer to the table. -/
def destroy (id : Nat) (s : Targets) : Targets :=
  { s.putStatus id .invalid with live := s.live.erase id }

end Targets

/-- This is the name of a `UniqueTarget`. -/
def detectionName (n : String) (number : Nat) : String := n ++ "/Detection " ++ toString number

/-- These are the steps of a history. The class `UniqueTarget` numbers its objects. -/
inductive Op where
  | construct (id : Nat) (n : String)
  | constructUnique (id : Nat) (n : String) (number : Nat)
  | copy (id other : Nat)
  | move (id other : Nat)
  | setValid (id : Nat)
  | setExpired (id : Nat)
  | destroy (id : Nat)

/-- A new object has an unused place, and the other objects of a step are live. -/
def step (s : Targets) : Op → Option Targets
  | .construct id n => if id ∉ s.live then some (s.construct id n) else none
  | .constructUnique id n number =>
      if id ∉ s.live then some (s.construct id (detectionName n number)) else none
  | .copy id other => if id ∉ s.live ∧ other ∈ s.live then some (s.copy id other) else none
  | .move id other => if id ∉ s.live ∧ other ∈ s.live then some (s.move id other) else none
  | .setValid id => if id ∈ s.live then some (s.setValid id) else none
  | .setExpired id => if id ∈ s.live then some (s.setExpired id) else none
  | .destroy id => if id ∈ s.live then some (s.destroy id) else none

def machine : Machine Targets Op := ⟨step⟩

def initial : Targets := ⟨∅, fun _ => "", fun _ => none, fun _ => none⟩

/-- A growing vector copies or moves an element from its old place to the new one. -/
def transfer (moves : Bool) (element : Nat × Nat) : Op :=
  if moves then .move element.2 element.1 else .copy element.2 element.1

/-- A growing vector transfers its elements and then destroys the old ones. -/
def growth (moves : Bool) (elements : List (Nat × Nat)) : List Op :=
  elements.map (transfer moves) ++ elements.map fun element => .destroy element.1

/-- The number of live objects that refer to a table. -/
def aliases (s : Targets) (n : String) : Nat := holders s.live s.table n

/-- The status of a constructed name is invalid when no live object refers to its table, and it is
the last published one while some object does. -/
structure Tells (s : Targets) (n : String) : Prop where
  invalid : s.status n = some .invalid ↔ (s.published n).isSome ∧ aliases s n = 0
  current : 0 < aliases s n → s.status n = s.published n

/-- Every name tells whether its target is live. -/
def Reported (s : Targets) : Prop := ∀ n, Tells s n

/-- A destroyed object is the only live one that refers to its table. -/
def Sole (s : Targets) : Op → Prop
  | .destroy id => aliases s (s.table id) = 1
  | _ => True

/-- A name with a live object was published. -/
def Known (s : Targets) : Prop := ∀ n, 0 < aliases s n → (s.published n).isSome

/-- A live object refers to its table. -/
theorem aliases_pos {s : Targets} {id : Nat} (alive : id ∈ s.live) : 0 < aliases s (s.table id) :=
  holders_pos alive s.table

/-- A new object adds one reference to its table. -/
theorem aliases_place {s : Targets} {id : Nat} (dead : id ∉ s.live) (given n : String) :
    aliases (s.place id given) n = aliases s n + if given = n then 1 else 0 :=
  holders_insert dead s.table given n

/-- A destruction takes one reference from the table of the object. -/
theorem aliases_destroy {s : Targets} {id : Nat} (alive : id ∈ s.live) (n : String) :
    aliases (s.destroy id) n + (if s.table id = n then 1 else 0) = aliases s n :=
  holders_erase alive s.table n

/-- A name keeps its report when its entries and the presence of an object stay. -/
theorem Tells.congr {s t : Targets} {n : String} (tells : Tells s n) (status : t.status n = s.status n)
    (published : t.published n = s.published n) (present : aliases t n = 0 ↔ aliases s n = 0) :
    Tells t n := by
  constructor
  · rw [status, published, present]
    exact tells.invalid
  · intro alive
    rw [status, published]
    apply tells.current
    omega

/-- A live object announces a usable status for its name. -/
theorem announce_tells {s : Targets} {id : Nat} (alive : id ∈ s.live) {status : Status}
    (usable : status ≠ .invalid) : Tells (s.announce id status) (s.table id) := by
  have told : (s.announce id status).status (s.table id) = some status := Function.update_self ..
  have kept : (s.announce id status).published (s.table id) = some status :=
    Function.update_self ..
  have present : 0 < aliases (s.announce id status) (s.table id) := aliases_pos alive
  constructor
  · rw [told, Option.some.injEq]
    exact iff_of_false usable fun absent => by omega
  · intro _
    rw [told, kept]

/-- The other names do not see an announcement. -/
theorem announce_tells_other {s : Targets} {n : String} (tells : Tells s n) {id : Nat}
    (other : n ≠ s.table id) (status : Status) : Tells (s.announce id status) n :=
  tells.congr (Function.update_of_ne other ..) (Function.update_of_ne other ..) Iff.rfl

/-- An announcement by a live object keeps the reports. -/
theorem announce_reported {s : Targets} (reported : Reported s) {id : Nat} (alive : id ∈ s.live)
    {status : Status} (usable : status ≠ .invalid) : Reported (s.announce id status) := by
  intro n
  by_cases same : n = s.table id
  · rw [same]
    exact announce_tells alive usable
  · exact announce_tells_other (reported n) same status

/-- A new target announces its name. -/
theorem construct_reported {s : Targets} (reported : Reported s) {id : Nat} (dead : id ∉ s.live)
    (given : String) : Reported (s.construct id given) := by
  have table : (s.place id given).table id = given := Function.update_self ..
  intro n
  by_cases same : n = given
  · have self : Tells ((s.place id given).announce id .expired) ((s.place id given).table id) :=
      announce_tells (Finset.mem_insert_self id s.live) (by decide)
    rw [table] at self
    rw [same]
    exact self
  · have kept : aliases (s.place id given) n = aliases s n := by
      rw [aliases_place dead, if_neg (Ne.symm same), Nat.add_zero]
    have placed : Tells (s.place id given) n := (reported n).congr rfl rfl (by rw [kept])
    exact announce_tells_other placed (by rw [table]; exact same) .expired

/-- A copy refers to a table that a live object refers to already. -/
theorem copy_reported {s : Targets} (reported : Reported s) {id other : Nat} (dead : id ∉ s.live)
    (alive : other ∈ s.live) : Reported (s.copy id other) := by
  intro n
  have added : aliases (s.copy id other) n = aliases s n + if s.table other = n then 1 else 0 :=
    aliases_place dead (s.table other) n
  have kept : aliases (s.copy id other) n = 0 ↔ aliases s n = 0 := by
    rw [added]
    by_cases same : s.table other = n
    · have present := aliases_pos alive
      rw [same] at present
      exact iff_of_false (by omega) (by omega)
    · rw [if_neg same, Nat.add_zero]
  exact (reported n).congr rfl rfl kept

/-- A destruction keeps the reports exactly when no other object refers to the table. -/
theorem destroy_reported_iff {s : Targets} (known : Known s) (reported : Reported s) {id : Nat}
    (alive : id ∈ s.live) : Reported (s.destroy id) ↔ aliases s (s.table id) = 1 := by
  have told : (s.destroy id).status (s.table id) = some .invalid := Function.update_self ..
  have lost := aliases_destroy alive (s.table id)
  rw [if_pos rfl] at lost
  constructor
  · intro after
    have absent := ((after (s.table id)).invalid.mp told).2
    omega
  · intro sole n
    by_cases same : n = s.table id
    · have announced : ((s.destroy id).published n).isSome := by
        rw [same]
        exact known (s.table id) (aliases_pos alive)
      rw [same] at announced ⊢
      have absent : aliases (s.destroy id) (s.table id) = 0 := by omega
      exact ⟨iff_of_true told ⟨announced, absent⟩, fun present => by omega⟩
    · have kept := aliases_destroy alive n
      rw [if_neg (Ne.symm same), Nat.add_zero] at kept
      exact (reported n).congr (Function.update_of_ne same ..) rfl (by rw [kept])

/-- An announcement by a live object keeps its name known. -/
theorem announce_known {s : Targets} {id : Nat} (status : Status)
    (known : ∀ n, n ≠ s.table id → 0 < aliases s n → (s.published n).isSome) :
    Known (s.announce id status) := by
  intro n present
  change ((Function.update s.published (s.table id) (some status)) n).isSome
  by_cases same : n = s.table id
  · rw [same, Function.update_self]
    rfl
  · rw [Function.update_of_ne same]
    exact known n same present

/-- These are all steps with what they need. -/
inductive Stepped (s : Targets) : Op → Targets → Prop where
  | construct (id : Nat) (n : String) (dead : id ∉ s.live) :
      Stepped s (.construct id n) (s.construct id n)
  | constructUnique (id : Nat) (n : String) (number : Nat) (dead : id ∉ s.live) :
      Stepped s (.constructUnique id n number) (s.construct id (detectionName n number))
  | copy (id other : Nat) (dead : id ∉ s.live) (alive : other ∈ s.live) :
      Stepped s (.copy id other) (s.copy id other)
  | move (id other : Nat) (dead : id ∉ s.live) (alive : other ∈ s.live) :
      Stepped s (.move id other) (s.copy id other)
  | setValid (id : Nat) (alive : id ∈ s.live) : Stepped s (.setValid id) (s.setValid id)
  | setExpired (id : Nat) (alive : id ∈ s.live) : Stepped s (.setExpired id) (s.setExpired id)
  | destroy (id : Nat) (alive : id ∈ s.live) : Stepped s (.destroy id) (s.destroy id)

theorem step_stepped {s next : Targets} {op : Op} (taken : step s op = some next) :
    Stepped s op next := by
  cases op with
  | construct id n =>
      obtain ⟨dead, rfl⟩ := Option.ite_some_none_eq_some.mp taken
      exact .construct id n dead
  | constructUnique id n number =>
      obtain ⟨dead, rfl⟩ := Option.ite_some_none_eq_some.mp taken
      exact .constructUnique id n number dead
  | copy id other =>
      obtain ⟨⟨dead, alive⟩, rfl⟩ := Option.ite_some_none_eq_some.mp taken
      exact .copy id other dead alive
  | move id other =>
      obtain ⟨⟨dead, alive⟩, rfl⟩ := Option.ite_some_none_eq_some.mp taken
      exact .move id other dead alive
  | setValid id =>
      obtain ⟨alive, rfl⟩ := Option.ite_some_none_eq_some.mp taken
      exact .setValid id alive
  | setExpired id =>
      obtain ⟨alive, rfl⟩ := Option.ite_some_none_eq_some.mp taken
      exact .setExpired id alive
  | destroy id =>
      obtain ⟨alive, rfl⟩ := Option.ite_some_none_eq_some.mp taken
      exact .destroy id alive

/-- Every live target was announced by its constructor or by the one of the object it is copied from. -/
theorem step_known (s : Targets) (op : Op) (next : Targets) (known : Known s)
    (taken : step s op = some next) : Known next := by
  have construct {id : Nat} (dead : id ∉ s.live) (given : String) : Known (s.construct id given) := by
    apply announce_known
    intro n other present
    change n ≠ Function.update s.table id given id at other
    rw [Function.update_self] at other
    rw [aliases_place dead, if_neg (Ne.symm other), Nat.add_zero] at present
    exact known n present
  have copy {id other : Nat} (dead : id ∉ s.live) (alive : other ∈ s.live) :
      Known (s.copy id other) := by
    intro n present
    apply known
    change 0 < aliases (s.place id (s.table other)) n at present
    rw [aliases_place dead] at present
    by_cases same : s.table other = n
    · rw [← same]
      exact aliases_pos alive
    · rw [if_neg same] at present
      exact present
  cases step_stepped taken with
  | construct id n dead => exact construct dead n
  | constructUnique id n number dead => exact construct dead (detectionName n number)
  | copy id other dead alive => exact copy dead alive
  | move id other dead alive => exact copy dead alive
  | setValid id alive => exact announce_known .valid fun n _ => known n
  | setExpired id alive => exact announce_known .expired fun n _ => known n
  | destroy id alive =>
      intro n present
      have lost := aliases_destroy alive n
      exact known n (by omega)

/-- A step keeps the reports exactly when it does not destroy one of several aliases. -/
theorem step_reported_iff (s : Targets) (op : Op) (next : Targets) (known : Known s)
    (reported : Reported s) (taken : step s op = some next) : Reported next ↔ Sole s op := by
  cases step_stepped taken with
  | construct id n dead => exact iff_of_true (construct_reported reported dead n) trivial
  | constructUnique id n number dead => exact iff_of_true (construct_reported reported dead _) trivial
  | copy id other dead alive => exact iff_of_true (copy_reported reported dead alive) trivial
  | move id other dead alive => exact iff_of_true (copy_reported reported dead alive) trivial
  | setValid id alive => exact iff_of_true (announce_reported reported alive (by decide)) trivial
  | setExpired id alive => exact iff_of_true (announce_reported reported alive (by decide)) trivial
  | destroy id alive => exact destroy_reported_iff known reported alive

theorem initial_aliases (n : String) : aliases initial n = 0 :=
  holders_eq_zero fun _ alive => absurd alive (Finset.notMem_empty _)

theorem initial_known : Known initial := by
  intro n present
  rw [initial_aliases] at present
  cases present

theorem initial_reported : Reported initial :=
  fun _ => ⟨iff_of_false (Option.some_ne_none _).symm (fun given => Bool.noConfusion given.1), fun _ => rfl⟩

/-- The status of every name tells whether its target is live in every state of a history exactly
when each destroyed object is the last one of its name. -/
theorem always_reported_iff (ops : List Op) :
    machine.Always Reported initial ops ↔ machine.Meets Sole initial ops :=
  machine.always_iff_meets step_known step_reported_iff initial_known initial_reported ops

/-- Two live objects refer to one table. -/
structure Aliased (s : Targets) (first second : Nat) : Prop where
  different : first ≠ second
  alive : first ∈ s.live
  present : second ∈ s.live
  same : s.table first = s.table second

/-- A transfer copies, whichever constructor the vector uses. -/
theorem step_transfer {s next : Targets} {moves : Bool} {element : Nat × Nat}
    (taken : step s (transfer moves element) = some next) :
    element.2 ∉ s.live ∧ element.1 ∈ s.live ∧ next = s.copy element.2 element.1 := by
  cases moves with
  | true =>
      have moved : step s (.move element.2 element.1) = some next := taken
      cases step_stepped moved with
      | move _ _ dead alive => exact ⟨dead, alive, rfl⟩
  | false =>
      have copied : step s (.copy element.2 element.1) = some next := taken
      cases step_stepped copied with
      | copy _ _ dead alive => exact ⟨dead, alive, rfl⟩

/-- The transferred object shares the table with the old one. -/
theorem aliased_of_transfer {s next : Targets} {moves : Bool} {element : Nat × Nat}
    (taken : step s (transfer moves element) = some next) :
    Aliased next element.1 element.2 := by
  obtain ⟨dead, alive, shape⟩ := step_transfer taken
  subst shape
  have different : element.1 ≠ element.2 := fun same => dead (same ▸ alive)
  refine ⟨different, Finset.mem_insert_of_mem alive, Finset.mem_insert_self _ _, ?_⟩
  change Function.update s.table _ _ _ = Function.update s.table _ _ _
  rw [Function.update_of_ne different, Function.update_self]

/-- Two aliases stay aliases when another element is transferred. -/
theorem Aliased.transfer {s next : Targets} {first second : Nat} (aliased : Aliased s first second)
    {moves : Bool} {element : Nat × Nat} (taken : step s (transfer moves element) = some next) :
    Aliased next first second := by
  obtain ⟨dead, _, shape⟩ := step_transfer taken
  subst shape
  have away {id : Nat} (alive : id ∈ s.live) : id ≠ element.2 := fun same => dead (same ▸ alive)
  refine ⟨aliased.different, Finset.mem_insert_of_mem aliased.alive,
    Finset.mem_insert_of_mem aliased.present, ?_⟩
  change Function.update s.table _ _ _ = Function.update s.table _ _ _
  rw [Function.update_of_ne (away aliased.alive), Function.update_of_ne (away aliased.present)]
  exact aliased.same

/-- One of two aliases is not the only object of its table. -/
theorem Aliased.not_sole {s : Targets} {first second : Nat} (aliased : Aliased s first second) :
    aliases s (s.table first) ≠ 1 := by
  have lost := aliases_destroy aliased.alive (s.table first)
  rw [if_pos rfl] at lost
  have member : second ∈ (s.destroy first).live :=
    Finset.mem_erase_of_ne_of_mem aliased.different.symm aliased.present
  have left : 0 < aliases (s.destroy first) (s.table first) := by
    rw [aliased.same]
    exact aliases_pos member
  omega

/-- The transfers end with the destruction of one of two aliases. -/
theorem Aliased.not_meets {s final : Targets} {first second : Nat}
    (aliased : Aliased s first second) {moves : Bool} {elements : List (Nat × Nat)} {rest : List Op}
    (taken : machine.run s (elements.map (VisionServer.Target.transfer moves) ++ .destroy first :: rest) =
      some final) :
    ¬ machine.Meets Sole s
      (elements.map (VisionServer.Target.transfer moves) ++ .destroy first :: rest) := by
  intro meets
  induction elements generalizing s with
  | nil =>
      obtain ⟨next, destroyed, _⟩ := Option.bind_eq_some_iff.mp taken
      exact aliased.not_sole (meets next destroyed).1
  | cons element elements ih =>
      obtain ⟨next, transferred, later⟩ := Option.bind_eq_some_iff.mp taken
      exact ih (aliased.transfer transferred) later (meets next transferred).2

/-- A vector that grows with at least one element always breaks the reports. -/
theorem growth_not_reported {s final : Targets} (known : Known s) (reported : Reported s)
    {moves : Bool} {element : Nat × Nat} {elements : List (Nat × Nat)}
    (taken : machine.run s (growth moves (element :: elements)) = some final) :
    ¬ machine.Always Reported s (growth moves (element :: elements)) := by
  intro always
  have meets := (machine.always_iff_meets step_known step_reported_iff known reported _).mp always
  obtain ⟨next, transferred, later⟩ := Option.bind_eq_some_iff.mp taken
  exact (aliased_of_transfer transferred).not_meets later (meets next transferred).2

/-- A growing vector destroys the old place of a target that lives on in the new place. -/
theorem grownVector_not_reported :
    ¬ machine.Always Reported initial (.construct 0 "ball" :: growth true [(0, 1)]) := by
  intro always
  have last := always.last machine rfl "ball"
  have absent := (last.invalid.mp (by decide)).2
  exact absurd absent (by decide)

end VisionServer.Target
