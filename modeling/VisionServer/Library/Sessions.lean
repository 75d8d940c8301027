/-
This file gives the traces in which one resource at a time is opened, used and closed.
-/

import Mathlib.Data.List.Basic

namespace VisionServer.Library

/-- A resource is opened, used or closed. -/
inductive Event (Resource : Type) where
  | opened (resource : Resource)
  | used (resource : Resource)
  | closed (resource : Resource)
deriving DecidableEq

/-- One resource is used some number of times between its opening and its closing. -/
structure Session (Resource : Type) where
  resource : Resource
  uses : Nat

namespace Session

variable {Resource : Type}

/-- These are the events of a session. -/
def events (session : Session Resource) : List (Event Resource) :=
  .opened session.resource ::
    (List.replicate session.uses (.used session.resource) ++ [.closed session.resource])

end Session

section Scanning

variable {Resource : Type} [DecidableEq Resource]

/-- The state is the open resource. An event out of turn breaks the trace. -/
def follow : Option Resource → Event Resource → Option (Option Resource)
  | none, .opened resource => some (some resource)
  | some current, .used resource => if resource = current then some (some current) else none
  | some current, .closed resource => if resource = current then some none else none
  | _, _ => none

/-- The resource that is open after a trace, unless the trace is broken. -/
def scan (state : Option Resource) : List (Event Resource) → Option (Option Resource)
  | [] => some state
  | event :: rest => (follow state event).bind fun next => scan next rest

/-- A trace is scanned piece by piece. -/
theorem scan_append (state : Option Resource) (first second : List (Event Resource)) :
    scan state (first ++ second) = (scan state first).bind fun next => scan next second := by
  induction first generalizing state with
  | nil => rfl
  | cons event rest ih =>
      rw [List.cons_append, scan, scan]
      cases follow state event with
      | none => rfl
      | some next => exact ih next

/-- A longer trace continues from the state of the shorter one. -/
theorem scan_append_of {state next : Option Resource} {first : List (Event Resource)}
    (here : scan state first = some next) (second : List (Event Resource)) :
    scan state (first ++ second) = scan next second := by
  rw [scan_append, here, Option.bind_some]

/-- Every prefix of an unbroken trace is unbroken. -/
theorem scan_prefix {state final : Option Resource} {first second : List (Event Resource)}
    (whole : scan state (first ++ second) = some final) : ∃ next, scan state first = some next := by
  rw [scan_append] at whole
  obtain ⟨next, here, _⟩ := Option.bind_eq_some_iff.mp whole
  exact ⟨next, here⟩

/-- An open resource is used until it is closed. -/
theorem scan_open_split {current : Resource} {trace : List (Event Resource)}
    (settled : scan (some current) trace = some none) :
    ∃ uses rest, trace = List.replicate uses (.used current) ++ .closed current :: rest ∧
      scan none rest = some none := by
  induction trace with
  | nil => cases settled
  | cons event rest ih =>
      obtain ⟨next, here, later⟩ := Option.bind_eq_some_iff.mp settled
      cases event with
      | opened resource => cases here
      | used resource =>
          obtain ⟨same, shape⟩ := Option.ite_none_right_eq_some.mp here
          have stays := Option.some.inj shape
          subst same stays
          obtain ⟨uses, tail, split, settles⟩ := ih later
          exact ⟨uses + 1, tail, by rw [split, List.replicate_succ, List.cons_append], settles⟩
      | closed resource =>
          obtain ⟨same, shape⟩ := Option.ite_none_right_eq_some.mp here
          have ends := Option.some.inj shape
          subst same ends
          exact ⟨0, rest, rfl, later⟩

/-- The uses of the open resource keep it open. -/
theorem scan_uses (current : Resource) (uses : Nat) :
    scan (some current) (List.replicate uses (.used current)) = some (some current) := by
  induction uses with
  | zero => rfl
  | succ uses ih =>
      rw [List.replicate_succ, scan, follow, if_pos rfl, Option.bind_some]
      exact ih

/-- A session starts and ends without an open resource. -/
theorem scan_session (session : Session Resource) : scan none session.events = some none := by
  rw [Session.events, scan, follow, Option.bind_some, scan_append_of (scan_uses _ _), scan, follow,
    if_pos rfl]
  rfl

/-- A trace ends without an open resource exactly when it is a sequence of sessions. -/
theorem scan_settled_iff (trace : List (Event Resource)) :
    scan none trace = some none ↔ ∃ sessions : List (Session Resource),
      trace = sessions.flatMap Session.events := by
  constructor
  · intro settled
    induction length : trace.length using Nat.strongRecOn generalizing trace with
    | ind n ih =>
        cases trace with
        | nil => exact ⟨[], rfl⟩
        | cons event rest =>
            obtain ⟨next, here, later⟩ := Option.bind_eq_some_iff.mp settled
            cases event with
            | used resource => cases here
            | closed resource => cases here
            | opened resource =>
                have opens := Option.some.inj here
                subst opens
                obtain ⟨uses, tail, split, settles⟩ := scan_open_split later
                have shorter : tail.length < n := by
                  rw [← length, split]
                  simp only [List.length_cons, List.length_append]
                  omega
                obtain ⟨sessions, shape⟩ := ih tail.length shorter tail settles rfl
                refine ⟨⟨resource, uses⟩ :: sessions, ?_⟩
                rw [split, shape, List.flatMap_cons, Session.events]
                simp
  · intro given
    obtain ⟨sessions, shape⟩ := given
    subst shape
    induction sessions with
    | nil => rfl
    | cons session rest ih =>
        rw [List.flatMap_cons, scan_append_of (scan_session session)]
        exact ih

end Scanning

end VisionServer.Library
