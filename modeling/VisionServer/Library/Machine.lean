/-
This file gives labelled machines, their runs and the rules for invariants over runs.
-/

import Mathlib.Data.List.Basic

namespace VisionServer.Library

/-- A machine takes one labelled step or refuses it. -/
structure Machine (State Label : Type) where
  step : State → Label → Option State

namespace Machine

variable {State Label : Type} (machine : Machine State Label)

/-- A run takes its labels in order and ends at the first refused one. -/
def run : State → List Label → Option State
  | state, [] => some state
  | state, label :: rest => (machine.step state label).bind fun next => run next rest

/-- The relation holds at each step that the run takes. -/
def Along (relation : State → Label → State → Prop) : State → List Label → Prop
  | _, [] => True
  | state, label :: rest => ∀ next, machine.step state label = some next →
      relation state label next ∧ Along relation next rest

/-- The property holds in each state that the run reaches. -/
def Always (property : State → Prop) (state : State) (labels : List Label) : Prop :=
  property state ∧ machine.Along (fun _ _ next => property next) state labels

/-- Each step that the run takes meets the condition on the state before it. -/
def Meets (condition : State → Label → Prop) (state : State) (labels : List Label) : Prop :=
  machine.Along (fun before label _ => condition before label) state labels

/-- The machine refuses the steps that are not allowed. -/
def restrict (allowed : State → Label → Prop) [∀ state label, Decidable (allowed state label)] :
    Machine State Label where
  step state label := if allowed state label then machine.step state label else none

/-- Whether a run meets a condition can be computed along its steps. -/
instance decidableMeets {condition : State → Label → Prop}
    [∀ state label, Decidable (condition state label)] (state : State) (labels : List Label) :
    Decidable (machine.Meets condition state labels) :=
  match labels with
  | [] => isTrue trivial
  | label :: rest =>
      match taken : machine.step state label with
      | none => isTrue fun next other => by rw [taken] at other; cases other
      | some reached =>
          have : Decidable (machine.Meets condition reached rest) := decidableMeets reached rest
          decidable_of_iff (condition state label ∧ machine.Meets condition reached rest)
            ⟨fun meets next other => by
                rw [taken, Option.some.injEq] at other
                exact other ▸ meets,
              fun meets => meets reached taken⟩

@[simp] theorem run_nil (state : State) : machine.run state [] = some state := rfl

@[simp] theorem run_cons (state : State) (label : Label) (rest : List Label) :
    machine.run state (label :: rest) =
      (machine.step state label).bind fun next => machine.run next rest := rfl

/-- A restricted machine takes the allowed steps of the machine. -/
theorem restrict_step {allowed : State → Label → Prop}
    [∀ state label, Decidable (allowed state label)] {state next : State} {label : Label} :
    (machine.restrict allowed).step state label = some next ↔
      allowed state label ∧ machine.step state label = some next :=
  Option.ite_none_right_eq_some

/-- A state that a run reaches satisfies what the run always satisfies. -/
theorem Always.last {property : State → Prop} {state final : State} {labels : List Label}
    (always : machine.Always property state labels)
    (reached : machine.run state labels = some final) : property final := by
  induction labels generalizing state with
  | nil =>
      rw [run_nil, Option.some.injEq] at reached
      exact reached ▸ always.1
  | cons label rest ih =>
      obtain ⟨next, taken, tail⟩ := Option.bind_eq_some_iff.mp reached
      have here := always.2 next taken
      exact ih here tail

/-- What a run always satisfies can be weakened. -/
theorem Always.mono {property weaker : State → Prop} (weaken : ∀ state, property state → weaker state)
    {state : State} {labels : List Label} (always : machine.Always property state labels) :
    machine.Always weaker state labels := by
  induction labels generalizing state with
  | nil => exact ⟨weaken state always.1, trivial⟩
  | cons label rest ih =>
      refine ⟨weaken state always.1, fun next taken => ?_⟩
      have tail := always.2 next taken
      exact ih tail

/-- A condition on the labels alone can join the condition that the steps meet. -/
theorem Meets.and_labels {condition : State → Label → Prop} {allowed : Label → Prop} {state : State}
    {labels : List Label} (all : ∀ label ∈ labels, allowed label)
    (meets : machine.Meets condition state labels) :
    machine.Meets (fun state label => allowed label ∧ condition state label) state labels := by
  induction labels generalizing state with
  | nil => trivial
  | cons label rest ih =>
      intro next taken
      obtain ⟨here, later⟩ := meets next taken
      have tail := ih (fun other member => all other (List.mem_cons_of_mem _ member)) later
      exact ⟨⟨all label List.mem_cons_self, here⟩, tail⟩

/-- A run meets a condition step by step. -/
theorem Meets.cons {condition : State → Label → Prop} {state next : State} {label : Label}
    {rest : List Label} (taken : machine.step state label = some next) (here : condition state label)
    (later : machine.Meets condition next rest) : machine.Meets condition state (label :: rest) := by
  intro reached other
  obtain rfl : next = reached := Option.some.inj (taken.symm.trans other)
  exact ⟨here, later⟩

/-- A conditional invariant relates the two states of each step of a run that meets the condition. -/
theorem Meets.along {condition : State → Label → Prop} {invariant : State → Prop}
    {relation : State → Label → State → Prop}
    (preserve : ∀ state label next, invariant state → condition state label →
      machine.step state label = some next → relation state label next ∧ invariant next)
    {state : State} (start : invariant state) {labels : List Label}
    (meets : machine.Meets condition state labels) : machine.Along relation state labels := by
  induction labels generalizing state with
  | nil => trivial
  | cons label rest ih =>
      intro next taken
      obtain ⟨allowed, later⟩ := meets next taken
      obtain ⟨related, kept⟩ := preserve state label next start allowed taken
      exact ⟨related, ih kept later⟩

/-- An invariant relates the two states of each step of a run. -/
theorem along_of_invariant {invariant : State → Prop} {relation : State → Label → State → Prop}
    (preserve : ∀ state label next, invariant state → machine.step state label = some next →
      relation state label next ∧ invariant next)
    {state : State} (start : invariant state) (labels : List Label) :
    machine.Along relation state labels := by
  induction labels generalizing state with
  | nil => trivial
  | cons label rest ih =>
      intro next taken
      obtain ⟨related, kept⟩ := preserve state label next start taken
      exact ⟨related, ih kept⟩

/-- An invariant holds in every state of a run. -/
theorem always_of_invariant {property : State → Prop}
    (preserve : ∀ state label next, property state → machine.step state label = some next →
      property next)
    {state : State} (start : property state) (labels : List Label) :
    machine.Always property state labels :=
  ⟨start, machine.along_of_invariant (fun state label next holds taken =>
    ⟨preserve state label next holds taken, preserve state label next holds taken⟩) start labels⟩

/-- A machine that takes a step or waits at each step of this machine reaches what it shows. -/
theorem Meets.follows {Seen Call : Type} {other : Machine Seen Call} {condition : State → Label → Prop}
    {shows : State → Seen → Prop}
    (follow : ∀ state label next seen, shows state seen → condition state label →
      machine.step state label = some next →
        ∃ after, shows next after ∧ (after = seen ∨ ∃ call, other.step seen call = some after))
    {state final : State} {seen : Seen} (start : shows state seen) {labels : List Label}
    (meets : machine.Meets condition state labels)
    (reached : machine.run state labels = some final) :
    ∃ history after, other.run seen history = some after ∧ shows final after := by
  induction labels generalizing state seen with
  | nil =>
      rw [run_nil, Option.some.injEq] at reached
      exact ⟨[], seen, rfl, reached ▸ start⟩
  | cons label rest ih =>
      obtain ⟨next, taken, tail⟩ := Option.bind_eq_some_iff.mp reached
      obtain ⟨allowed, later⟩ := meets next taken
      obtain ⟨after, shown, waits | ⟨call, moved⟩⟩ := follow state label next seen start allowed taken
      · exact ih (waits ▸ shown) later tail
      · obtain ⟨history, last, ran, ends⟩ := ih shown later tail
        refine ⟨call :: history, last, ?_, ends⟩
        rw [run_cons, moved]
        exact ran

/-- An exact step condition decides over whole runs where the two states of each step are related.
The support is kept by the related steps. -/
theorem along_iff_meets {support : State → Prop} {relation : State → Label → State → Prop}
    {condition : State → Label → Prop}
    (supported : ∀ state label next, support state → machine.step state label = some next →
      relation state label next → support next)
    (exact_step : ∀ state label next, support state → machine.step state label = some next →
      (relation state label next ↔ condition state label))
    {state : State} (ground : support state) (labels : List Label) :
    machine.Along relation state labels ↔ machine.Meets condition state labels := by
  induction labels generalizing state with
  | nil => exact Iff.rfl
  | cons label rest ih =>
      constructor
      · intro along next taken
        obtain ⟨related, later⟩ := along next taken
        have tail := ih (supported state label next ground taken related)
        exact ⟨(exact_step state label next ground taken).mp related, tail.mp later⟩
      · intro meets next taken
        obtain ⟨allowed, later⟩ := meets next taken
        have related := (exact_step state label next ground taken).mpr allowed
        exact ⟨related, (ih (supported state label next ground taken related)).mpr later⟩

/-- A conditional invariant holds in every state of a run that meets the condition. -/
theorem Meets.always {condition : State → Label → Prop} {property : State → Prop}
    (preserve : ∀ state label next, property state → condition state label →
      machine.step state label = some next → property next)
    {state : State} (start : property state) {labels : List Label}
    (meets : machine.Meets condition state labels) : machine.Always property state labels :=
  ⟨start, Meets.along machine (fun state label next holds allowed taken =>
    ⟨preserve state label next holds allowed taken, preserve state label next holds allowed taken⟩)
    start meets⟩

/-- An exact step condition decides over whole runs where a property always holds.
The support is an invariant of every step. -/
theorem always_iff_meets {support property : State → Prop} {condition : State → Label → Prop}
    (supported : ∀ state label next, support state → machine.step state label = some next →
      support next)
    (exact_step : ∀ state label next, support state → property state →
      machine.step state label = some next → (property next ↔ condition state label))
    {state : State} (ground : support state) (start : property state) (labels : List Label) :
    machine.Always property state labels ↔ machine.Meets condition state labels := by
  induction labels generalizing state with
  | nil => exact ⟨fun _ => trivial, fun _ => ⟨start, trivial⟩⟩
  | cons label rest ih =>
      constructor
      · intro always next taken
        have tail := always.2 next taken
        have allowed := (exact_step state label next ground start taken).mp tail.1
        exact ⟨allowed, (ih (supported state label next ground taken) tail.1).mp tail⟩
      · intro meets
        refine ⟨start, fun next taken => ?_⟩
        obtain ⟨allowed, later⟩ := meets next taken
        have holds := (exact_step state label next ground start taken).mpr allowed
        exact (ih (supported state label next ground taken) holds).mpr later

end Machine

end VisionServer.Library
