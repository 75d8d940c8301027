/-
This file gives the run rules of programs that keep their state when they throw.
-/

import Mathlib.Logic.Basic

namespace VisionServer.Library

variable {Error State Value : Type}

@[simp] theorem run_liftExcept_ok (value : Value) (state : State) :
    (liftExcept (Except.ok value : Except Error Value) : EStateM Error State Value).run state = .ok value state := rfl

@[simp] theorem run_liftExcept_error (error : Error) (state : State) :
    (liftExcept (Except.error error) : EStateM Error State Value).run state = .error error state := rfl

/-- A handler runs in the state in which the body threw. -/
@[simp] theorem run_tryCatch (body : EStateM Error State Value)
    (handler : Error → EStateM Error State Value) (state : State) :
    (tryCatch body handler).run state =
      match body.run state with
      | .ok value next => .ok value next
      | .error error next => (handler error).run next := by
  change EStateM.tryCatch body handler state = _
  delta EStateM.tryCatch EStateM.run
  cases body state <;> rfl

/-- A program that ends normally in a state continues from that state. -/
theorem run_bind_of_ok {Result : Type} {first : EStateM Error State Value}
    {state next : State} {value : Value} (done : first.run state = .ok value next)
    (second : Value → EStateM Error State Result) :
    (first >>= second).run state = (second value).run next := by
  rw [EStateM.run_bind, done]

/-- A program that throws skips its continuation. -/
theorem run_bind_of_error {Result : Type} {first : EStateM Error State Value}
    {state next : State} {error : Error} (failed : first.run state = .error error next)
    (second : Value → EStateM Error State Result) :
    (first >>= second).run state = .error error next := by
  rw [EStateM.run_bind, failed]

/-- A program always ends normally. -/
def Total (program : EStateM Error State Value) : Prop :=
  ∀ state, ∃ value next, program.run state = .ok value next

/-- The state in which a program ends, with or without an exception. -/
def finalState (result : EStateM.Result Error State Value) : State :=
  match result with
  | .ok _ state => state
  | .error _ state => state

/-- A program keeps a view of the state, also when it throws. -/
def Keeps {View : Type} (view : State → View) (program : EStateM Error State Value) : Prop :=
  ∀ state, view (finalState (program.run state)) = view state

section Rules

variable {Result View : Type} {view : State → View}

theorem Total.pure (value : Value) : Total (pure value : EStateM Error State Value) :=
  fun state => ⟨value, state, rfl⟩

theorem Total.modify (change : State → State) :
    Total (modify change : EStateM Error State PUnit) :=
  fun state => ⟨⟨⟩, change state, rfl⟩

theorem Total.bind {first : EStateM Error State Value}
    {second : Value → EStateM Error State Result}
    (total : Total first) (later : ∀ value, Total (second value)) : Total (first >>= second) := by
  intro state
  obtain ⟨value, next, done⟩ := total state
  rw [run_bind_of_ok done]
  exact later value next

/-- A total handler makes every body total. -/
theorem Total.tryCatch (body : EStateM Error State Value)
    {handler : Error → EStateM Error State Value} (handled : ∀ error, Total (handler error)) :
    Total (tryCatch body handler) := by
  intro state
  rw [run_tryCatch]
  cases body.run state with
  | ok value next => exact ⟨value, next, rfl⟩
  | error error next => exact handled error next

theorem Keeps.pure (value : Value) : Keeps view (pure value : EStateM Error State Value) :=
  fun _ => rfl

theorem Keeps.liftExcept (outcome : Except Error Value) :
    Keeps view (liftExcept outcome : EStateM Error State Value) := by
  intro state
  cases outcome <;> rfl

theorem Keeps.modify {change : State → State} (same : ∀ state, view (change state) = view state) :
    Keeps view (modify change : EStateM Error State PUnit) :=
  fun state => same state

theorem Keeps.bind {first : EStateM Error State Value}
    {second : Value → EStateM Error State Result}
    (kept : Keeps view first) (later : ∀ value, Keeps view (second value)) :
    Keeps view (first >>= second) := by
  intro state
  have here := kept state
  cases done : first.run state with
  | ok value next =>
      rw [done] at here
      rw [run_bind_of_ok done]
      exact (later value next).trans here
  | error error next =>
      rw [done] at here
      rw [run_bind_of_error done]
      exact here

theorem Keeps.tryCatch {body : EStateM Error State Value}
    {handler : Error → EStateM Error State Value}
    (kept : Keeps view body) (handled : ∀ error, Keeps view (handler error)) :
    Keeps view (tryCatch body handler) := by
  intro state
  have here := kept state
  rw [run_tryCatch]
  cases done : body.run state with
  | ok value next =>
      rw [done] at here
      exact here
  | error error next =>
      rw [done] at here
      exact (handled error next).trans here

/-- A loop keeps what each of its passes keeps. -/
theorem Keeps.forM {Item : Type} {body : Item → EStateM Error State PUnit}
    (kept : ∀ item, Keeps view (body item)) (items : List Item) :
    Keeps view (forM items body) := by
  induction items with
  | nil => exact Keeps.pure _
  | cons item rest ih => exact Keeps.bind (kept item) fun _ => ih

/-- A program that keeps a view and ends normally leaves the view as it was. -/
theorem Keeps.of_ok {program : EStateM Error State Value} (kept : Keeps view program)
    {state next : State} {value : Value} (done : program.run state = .ok value next) :
    view next = view state := by
  have here := kept state
  rw [done] at here
  exact here

end Rules

section Logs

variable {Entry Result : Type}

/-- A missing value is an exception. -/
def orThrow (found : Option Value) (error : Error) : EStateM Error State Value :=
  match found with
  | some value => pure value
  | none => throw error

/-- A program ends normally with one of the outcomes, and then it has logged the entries. -/
def Logs (program : EStateM Error (List Entry) Value) (outcome : Value → Prop) (log : List Entry) : Prop :=
  ∀ state value next, program.run state = .ok value next ↔ outcome value ∧ next = state ++ log

/-- A sequence ends normally if and only if both of its programs do. -/
theorem run_bind_eq_ok {first : EStateM Error State Value} {second : Value → EStateM Error State Result}
    {state next : State} {result : Result} : (first >>= second).run state = .ok result next ↔
      ∃ value middle, first.run state = .ok value middle ∧ (second value).run middle = .ok result next := by
  constructor
  · intro done
    cases here : first.run state with
    | ok value middle =>
        rw [run_bind_of_ok here] at done
        exact ⟨value, middle, rfl, done⟩
    | error error middle =>
        rw [run_bind_of_error here] at done
        cases done
  · rintro ⟨value, middle, here, done⟩
    rw [run_bind_of_ok here, done]

theorem Logs.pure (value : Value) : Logs (pure value : EStateM Error (List Entry) Value) (value = ·) [] := by
  intro state other next
  rw [List.append_nil]
  constructor
  · intro done
    cases done
    exact ⟨rfl, rfl⟩
  · rintro ⟨rfl, rfl⟩
    rfl

theorem Logs.bind {first : EStateM Error (List Entry) Value} {second : Value → EStateM Error (List Entry) Result}
    {before : Value → Prop} {after : Value → Result → Prop} {log rest : List Entry} (start : Logs first before log)
    (later : ∀ value, Logs (second value) (after value) rest) :
    Logs (first >>= second) (fun result => ∃ value, before value ∧ after value result) (log ++ rest) := by
  intro state result next
  rw [run_bind_eq_ok, ← List.append_assoc]
  constructor
  · rintro ⟨value, middle, here, done⟩
    obtain ⟨possible, rfl⟩ := (start _ _ _).mp here
    obtain ⟨follows, rfl⟩ := (later value _ _ _).mp done
    exact ⟨⟨value, possible, follows⟩, rfl⟩
  · rintro ⟨⟨value, possible, follows⟩, rfl⟩
    exact ⟨value, _, (start _ _ _).mpr ⟨possible, rfl⟩, (later value _ _ _).mpr ⟨follows, rfl⟩⟩

theorem orThrow_logs (found : Option Value) (error : Error) :
    Logs (orThrow found error : EStateM Error (List Entry) Value) (found = some ·) [] := by
  intro state value next
  rw [List.append_nil]
  cases found with
  | none => exact iff_of_false (fun done => nomatch done) fun both => nomatch both.1
  | some other =>
      constructor
      · intro done
        cases done
        exact ⟨rfl, rfl⟩
      · rintro ⟨same, rfl⟩
        cases same
        rfl

/-- A loop ends normally if and only if each of its passes does. -/
theorem Logs.forM {Item : Type} {body : Item → EStateM Error (List Entry) PUnit} {good : Item → Prop}
    {log : Item → List Entry} (pass : ∀ item, Logs (body item) (fun _ => good item) (log item))
    (items : List Item) : Logs (forM items body) (fun _ => ∀ item ∈ items, good item) (items.flatMap log) := by
  induction items with
  | nil =>
      intro state value next
      rw [List.flatMap_nil, List.forM_nil]
      exact (Logs.pure PUnit.unit state value next).trans
        (and_congr_left fun _ => iff_of_true rfl fun _ member => absurd member List.not_mem_nil)
  | cons item items inductionHypothesis =>
      intro state value next
      rw [List.forM_cons, List.flatMap_cons, List.forall_mem_cons]
      exact (Logs.bind (pass item) (fun _ => inductionHypothesis) state value next).trans
        (and_congr_left fun _ => ⟨fun ⟨_, both⟩ => both, fun both => ⟨PUnit.unit, both⟩⟩)

end Logs

section Loops

variable {Item : Type} {body : Item → EStateM Error State PUnit}

/-- A loop whose passes end in known states ends in the state that they lead to. -/
theorem run_forM {next : State → Item → State} {items : List Item}
    (pass : ∀ item ∈ items, ∀ state, (body item).run state = .ok ⟨⟩ (next state item)) (state : State) :
    (forM items body).run state = .ok ⟨⟩ (items.foldl next state) := by
  induction items generalizing state with
  | nil => rfl
  | cons item items inductionHypothesis =>
      rw [List.forM_cons, run_bind_of_ok (pass item List.mem_cons_self state), List.foldl_cons]
      exact inductionHypothesis (fun other member => pass other (List.mem_cons_of_mem _ member)) _

/-- A loop that ends normally has ended each of its passes normally. -/
theorem exists_run_of_forM {items : List Item} {state final : State}
    (done : (forM items body).run state = .ok ⟨⟩ final) {item : Item} (member : item ∈ items) :
    ∃ before after, (body item).run before = .ok ⟨⟩ after := by
  induction items generalizing state with
  | nil => cases member
  | cons first items inductionHypothesis =>
      rw [List.forM_cons] at done
      obtain ⟨_, middle, here, rest⟩ := run_bind_eq_ok.mp done
      rcases List.mem_cons.mp member with rfl | other
      · exact ⟨state, middle, here⟩
      · exact inductionHypothesis rest other

end Loops

section Repetitions

/-- A program runs several times in a row. -/
def times : Nat → EStateM Error State PUnit → EStateM Error State PUnit
  | 0, _ => pure ⟨⟩
  | count + 1, program => do
      program
      times count program

/-- The runs go through a sequence of states if each single run does. -/
theorem run_times {program : EStateM Error State PUnit} {states : Nat → State} {count : Nat}
    (step : ∀ i < count, program.run (states i) = .ok ⟨⟩ (states (i + 1))) :
    (times count program).run (states 0) = .ok ⟨⟩ (states count) := by
  induction count generalizing states with
  | zero => rfl
  | succ count inductionHypothesis =>
      rw [times, run_bind_of_ok (step 0 (Nat.succ_pos count))]
      exact @inductionHypothesis (fun i => states (i + 1)) fun i below => step (i + 1) (Nat.succ_lt_succ below)

end Repetitions

end VisionServer.Library
