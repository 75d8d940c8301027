/-
This file gives assembly texts with labels, their runs, and the rules for straight code and loops.
-/

import Mathlib.Logic.Function.Iterate

namespace VisionServer.Library

/-- A line of an assembly text names a place, executes, branches to a name or returns. -/
inductive Line (Op Cond Label : Type) where
  | label (name : Label)
  | op (op : Op)
  | branch (cond : Cond) (target : Label)
  | ret

/-- An instruction set executes its straight instructions and decides its conditions. -/
structure InstructionSet (State Op Cond : Type) where
  exec : Op → State → State
  holds : Cond → State → Bool

namespace Assembly

variable {State Op Cond Label : Type} [DecidableEq Label]

/-- The code at a label is the rest of the text after it. -/
def codeAt (name : Label) : List (Line Op Cond Label) → List (Line Op Cond Label)
  | [] => []
  | .label other :: rest => if other = name then rest else codeAt name rest
  | _ :: rest => codeAt name rest

variable (isa : InstructionSet State Op Cond) (text : List (Line Op Cond Label))

/-- A run has fuel for a number of lines and gives the state in which the code returns. -/
def run : Nat → List (Line Op Cond Label) → State → Option State
  | 0, _, _ => none
  | _ + 1, [], _ => none
  | fuel + 1, .label _ :: rest, s => run fuel rest s
  | fuel + 1, .op op :: rest, s => run fuel rest (isa.exec op s)
  | fuel + 1, .branch cond target :: rest, s =>
      run fuel (if isa.holds cond s then codeAt target text else rest) s
  | _ + 1, .ret :: _, s => some s

/-- The code returns in a state with some amount of fuel. -/
def Returns (code : List (Line Op Cond Label)) (s final : State) : Prop :=
  ∃ fuel, run isa text fuel code s = some final

/-- The leading instructions of a code are executed one after the other. -/
def block : List (Line Op Cond Label) → List Op
  | .op op :: rest => op :: block rest
  | _ => []

/-- The code after its leading instructions starts with a label, a branch or a return. -/
def afterBlock : List (Line Op Cond Label) → List (Line Op Cond Label)
  | .op _ :: rest => afterBlock rest
  | code => code

def execAll (ops : List Op) (s : State) : State := ops.foldl (fun s op => isa.exec op s) s

@[simp] theorem execAll_nil (s : State) : execAll isa [] s = s := rfl

@[simp] theorem execAll_cons (op : Op) (ops : List Op) (s : State) :
    execAll isa (op :: ops) s = execAll isa ops (isa.exec op s) := rfl

/-- How often a run comes to a label, in order of the text or by a branch. -/
def arrivals (name : Label) : Nat → List (Line Op Cond Label) → State → Nat
  | 0, _, _ => 0
  | _ + 1, [], _ => 0
  | fuel + 1, .label other :: rest, s =>
      arrivals name fuel rest s + if other = name then 1 else 0
  | fuel + 1, .op op :: rest, s => arrivals name fuel rest (isa.exec op s)
  | fuel + 1, .branch cond target :: rest, s =>
      if isa.holds cond s then
        arrivals name fuel (codeAt target text) s + if target = name then 1 else 0
      else arrivals name fuel rest s
  | _ + 1, .ret :: _, _ => 0

/-- The code returns in a state after its run has come to a label a number of times. -/
def ReturnsAfter (name : Label) (count : Nat) (code : List (Line Op Cond Label)) (s final : State) :
    Prop :=
  ∃ fuel, run isa text fuel code s = some final ∧ arrivals isa text name fuel code s = count

variable {isa text} {rest : List (Line Op Cond Label)} {s final : State}

/-- A line that goes on with other code returns where this code returns. -/
theorem returns_of_run {code next : List (Line Op Cond Label)} {t : State}
    (line : ∀ fuel, run isa text (fuel + 1) code s = run isa text fuel next t) :
    Returns isa text code s final ↔ Returns isa text next t final := by
  constructor
  · intro given
    obtain ⟨fuel, taken⟩ := given
    cases fuel with
    | zero => cases taken
    | succ fuel => exact ⟨fuel, (line fuel).symm.trans taken⟩
  · intro given
    obtain ⟨fuel, taken⟩ := given
    exact ⟨fuel + 1, (line fuel).trans taken⟩

@[simp] theorem returns_ret : Returns isa text (.ret :: rest) s final ↔ final = s := by
  constructor
  · intro given
    obtain ⟨fuel, taken⟩ := given
    cases fuel with
    | zero => cases taken
    | succ fuel => exact (Option.some.inj taken).symm
  · rintro rfl
    exact ⟨1, rfl⟩

@[simp] theorem returns_label {name : Label} :
    Returns isa text (.label name :: rest) s final ↔ Returns isa text rest s final :=
  returns_of_run fun _ => rfl

@[simp] theorem returns_branch {cond : Cond} {target : Label} :
    Returns isa text (.branch cond target :: rest) s final ↔
      Returns isa text (if isa.holds cond s then codeAt target text else rest) s final :=
  returns_of_run fun _ => rfl

theorem returns_op {op : Op} :
    Returns isa text (.op op :: rest) s final ↔ Returns isa text rest (isa.exec op s) final :=
  returns_of_run fun _ => rfl

/-- Straight code returns where the code after it returns. -/
theorem returns_block {code : List (Line Op Cond Label)} :
    Returns isa text code s final ↔
      Returns isa text (afterBlock code) (execAll isa (block code) s) final := by
  induction code generalizing s with
  | nil => exact Iff.rfl
  | cons line rest ih =>
      cases line with
      | op op => exact returns_op.trans ih
      | label | branch | ret => exact Iff.rfl

/-- What every instruction keeps is kept by every run. -/
theorem Returns.keeps (property : State → Prop)
    (keep : ∀ op s, property s → property (isa.exec op s)) {code : List (Line Op Cond Label)}
    (returns : Returns isa text code s final) (start : property s) : property final := by
  obtain ⟨fuel, taken⟩ := returns
  induction fuel generalizing code s with
  | zero => cases taken
  | succ fuel ih =>
      rcases code with _ | ⟨line, rest⟩
      · cases taken
      · cases line with
        | label name => exact ih start taken
        | op op => exact ih (keep op s start) taken
        | branch cond target => exact ih start taken
        | ret => exact Option.some.inj taken ▸ start

/-- A loop whose turns follow an indexed invariant is left after its last turn. -/
theorem exists_leave (Inv : Nat → State → Prop) {head leave : List (Line Op Cond Label)} {last : Nat}
    (turn : ∀ n s, n < last → Inv n s → ∃ t, Inv (n + 1) t ∧ ∀ final,
      Returns isa text head s final ↔
        Returns isa text (if n + 1 = last then leave else head) t final)
    (positive : 0 < last) (start : Inv 0 s) :
    ∃ t, Inv last t ∧ ∀ final, Returns isa text head s final ↔ Returns isa text leave t final := by
  -- the induction goes over the turns that are left
  have go : ∀ left n s, n + left + 1 = last → Inv n s → ∃ t, Inv last t ∧ ∀ final,
      Returns isa text head s final ↔ Returns isa text leave t final := by
    intro left
    induction left with
    | zero =>
        intro n s position holds
        obtain ⟨t, next, same⟩ := turn n s (by omega) holds
        rw [show n + 1 = last by omega] at next
        simp only [show n + 1 = last by omega, if_true] at same
        exact ⟨t, next, same⟩
    | succ left ih =>
        intro n s position holds
        obtain ⟨t, next, same⟩ := turn n s (by omega) holds
        obtain ⟨u, done, later⟩ := ih (n + 1) t (by omega) next
        refine ⟨u, done, fun final => (same final).trans ?_⟩
        rw [if_neg (by omega)]
        exact later final
  exact go (last - 1) 0 s (by omega) start

/-- A code returns in one state only. -/
theorem Returns.unique {code : List (Line Op Cond Label)} {other : State}
    (returns : Returns isa text code s final) (again : Returns isa text code s other) :
    other = final := by
  obtain ⟨fuel, taken⟩ := returns
  obtain ⟨more, same⟩ := again
  induction fuel generalizing code s more with
  | zero => cases taken
  | succ fuel ih =>
      cases more with
      | zero => cases same
      | succ more =>
          rcases code with _ | ⟨line, rest⟩
          · cases taken
          · cases line with
            | label name => exact ih taken more same
            | op op => exact ih taken more same
            | branch cond target => exact ih taken more same
            | ret => exact (Option.some.inj same).symm.trans (Option.some.inj taken)

section Counting

variable {name : Label} {count : Nat}

theorem ReturnsAfter.ret : ReturnsAfter isa text name 0 (.ret :: rest) s s := ⟨1, rfl, rfl⟩

theorem ReturnsAfter.label {other : Label} (after : ReturnsAfter isa text name count rest s final) :
    ReturnsAfter isa text name (count + if other = name then 1 else 0) (.label other :: rest) s final := by
  obtain ⟨fuel, taken, counted⟩ := after
  exact ⟨fuel + 1, taken, by rw [arrivals, counted]⟩

theorem ReturnsAfter.op {op : Op} (after : ReturnsAfter isa text name count rest (isa.exec op s) final) :
    ReturnsAfter isa text name count (.op op :: rest) s final := by
  obtain ⟨fuel, taken, counted⟩ := after
  exact ⟨fuel + 1, taken, counted⟩

/-- A branch to the label counts. -/
theorem ReturnsAfter.taken {cond : Cond} {target : Label} (holds : isa.holds cond s = true)
    (after : ReturnsAfter isa text name count (codeAt target text) s final) :
    ReturnsAfter isa text name (count + if target = name then 1 else 0)
      (.branch cond target :: rest) s final := by
  obtain ⟨fuel, taken, counted⟩ := after
  refine ⟨fuel + 1, ?_, ?_⟩
  · rw [run, if_pos holds]
    exact taken
  · rw [arrivals, if_pos holds, counted]

theorem ReturnsAfter.passed {cond : Cond} {target : Label} (fails : isa.holds cond s = false)
    (after : ReturnsAfter isa text name count rest s final) :
    ReturnsAfter isa text name count (.branch cond target :: rest) s final := by
  obtain ⟨fuel, taken, counted⟩ := after
  refine ⟨fuel + 1, ?_, ?_⟩
  · rw [run, fails, if_neg Bool.false_ne_true]
    exact taken
  · rw [arrivals, fails, if_neg Bool.false_ne_true, counted]

/-- Straight code comes to no label. -/
theorem ReturnsAfter.block {code : List (Line Op Cond Label)}
    (after : ReturnsAfter isa text name count (afterBlock code) (execAll isa (block code) s) final) :
    ReturnsAfter isa text name count code s final := by
  induction code generalizing s with
  | nil => exact after
  | cons line rest ih =>
      cases line with
      | op op => exact (ih after).op
      | label | branch | ret => exact after

end Counting

end Assembly

end VisionServer.Library
