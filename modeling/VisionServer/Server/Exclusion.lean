/-
This file decides when the loops of the server exclude each other and the changes of its registries.
-/

import VisionServer.Server.Accesses

namespace VisionServer.Server.RunControl
open Library

/-- The loop of a run function is active from the store of the flag to the end of the loop. -/
def Pc.Entered : Pc → Prop
  | .spawning _ => True
  | .loop _ _ => True
  | _ => False

/-- A run function needs the server for itself after its checks. The registry operations can share
it with each other. -/
def Pc.role : Pc → Option Role
  | .enter _ => some .exclusive
  | .spawning _ => some .exclusive
  | .loop _ _ => some .exclusive
  | .changing => some .shared
  | _ => none

def roles (s : Control) (t : Thread) : Option Role := (s.pc t).role

/-- A thread passes its last check only when no other thread is in the way: between its check and
the end of its loop, or, for a run function, between the check and the return of a registry
operation. -/
def Exclusive (s : Control) : Label → Prop
  | .advance t =>
      match s.pc t with
      | .sized mode => s.Passes mode → Grants (roles s) t .exclusive
      | .registry => s.isRunning = false → Grants (roles s) t .shared
      | _ => True
  | _ => True

/-- The roles of the threads agree with the discipline. -/
def Disciplined (s : Control) : Prop := Compatible (roles s)

/-- One loop is active at most, and the vectors do not change while one is active. -/
structure Safe (before : Control) (_ : Label) (after : Control) : Prop where
  single : ∀ t u, (after.pc t).Entered → (after.pc u).Entered → t = u
  unchanged : ∀ t, (before.pc t).Entered → after.vectors = before.vectors

theorem roles_goto (t : Thread) (pc : Pc) (s : Control) :
    roles (s.goto t pc) = Function.update (roles s) t pc.role := by
  funext u
  by_cases here : u = t
  · subst here
    simp [roles]
  · simp [roles, here]

theorem Pc.Entered.role {pc : Pc} (entered : pc.Entered) : pc.role = some .exclusive := by
  cases pc <;> first
    | rfl
    | exact absurd entered id

theorem afterCall_role (t : Thread) : (Control.afterCall t).role = none := by
  rcases t with (_ | _) | _ <;> rfl

theorem entry_role (what : Call) : what.entry.role = none := by
  cases what <;> rfl

/-- A move takes a role only at a last check. -/
theorem Move.role {s : Control} {t : Thread} {before after : Pc} (move : Move s t before after) :
    after.role = none ∨ after.role = before.role ∨
      (∃ mode, before = .sized mode ∧ s.Passes mode ∧ after.role = some .exclusive) ∨
        before = .registry ∧ s.isRunning = false ∧ after.role = some .shared := by
  cases move with
  | sizedPasses mode passes => exact Or.inr (Or.inr (Or.inl ⟨mode, rfl, passes, rfl⟩))
  | registryStopped stopped => exact Or.inr (Or.inr (Or.inr ⟨rfl, stopped, rfl⟩))
  | spawned => exact Or.inr (Or.inl rfl)
  | startRunning | sizedRefused | joined | registryRunning | changed | threadRunning | threadPresent
  | stopAbsent | stopJoined => exact Or.inl (afterCall_role t)
  | startStopped | loopStopped | joins | threadStopped | threadAbsent | stopPresent | runnerRunning
  | runnerStopped | processed => exact Or.inl rfl

section Compatibility

variable {s : Control} (compatible : Compatible (roles s))
include compatible

theorem goto_compatible {t : Thread} {pc : Pc}
    (allowed : pc.role = none ∨ pc.role = (s.pc t).role ∨
      ∃ given, pc.role = some given ∧ Grants (roles s) t given) :
    Compatible (roles (s.goto t pc)) := by
  rw [roles_goto]
  exact compatible.set allowed

theorem ret_compatible (t : Thread) : Compatible (roles (s.ret t)) :=
  goto_compatible compatible (Or.inl (afterCall_role t))

/-- The accesses keep the discipline when the last checks respect it. -/
theorem advance_compatible {t : Thread} {next : Control} (exclusive : Exclusive s (.advance t))
    (taken : s.advance t = some next) : Compatible (roles next) := by
  simp only [Exclusive] at exclusive
  cases advance_access taken with
  | moves pc move =>
      apply goto_compatible compatible
      rcases move.role with free | same | ⟨mode, here, passes, given⟩ | ⟨here, stopped, given⟩
      · exact Or.inl free
      · exact Or.inr (Or.inl same)
      · rw [here] at exclusive
        exact Or.inr (Or.inr ⟨.exclusive, given, exclusive passes⟩)
      · rw [here] at exclusive
        exact Or.inr (Or.inr ⟨.shared, given, exclusive stopped⟩)
  | enters mode here =>
      apply goto_compatible (s := { s with isRunning := true }) compatible
      right; left
      change _ = (s.pc t).role
      rw [here]
      split <;> rfl
  | loops => exact compatible
  | spawnsRunner owner k same here =>
      have created : Compatible (roles (s.goto (.runner owner k) .runner)) :=
        goto_compatible compatible (Or.inl rfl)
      apply goto_compatible created
      right; left
      rw [goto_pc_other (by rw [same]; exact Thread.noConfusion), here]
      rfl
  | spawnsHead mode =>
      have started : Compatible (roles ({ s with joinable := true }.goto head (.start mode))) :=
        goto_compatible (s := { s with joinable := true }) compatible (Or.inl rfl)
      exact ret_compatible started t
  | stores => exact goto_compatible (s := { s with isRunning := false }) compatible (Or.inl rfl)
  | joinsHead =>
      have joined : Compatible (roles ({ s with joinable := false }.goto head .idle)) :=
        goto_compatible (s := { s with joinable := false }) compatible (Or.inl rfl)
      exact ret_compatible joined t

theorem step_compatible {label : Label} {next : Control} (exclusive : Exclusive s label)
    (taken : step s label = some next) : Compatible (roles next) := by
  cases label with
  | call t what =>
      rcases t with (n | _) | ⟨owner, index⟩
      · simp only [step, Control.call, Option.ite_none_right_eq_some, Option.some.injEq] at taken
        rw [← taken.2]
        exact goto_compatible compatible (Or.inl (entry_role what))
      · simp [step, Control.call] at taken
      · cases what with
        | stop =>
            simp only [step, Control.call, Option.ite_none_right_eq_some, Option.some.injEq] at taken
            rw [← taken.2]
            exact goto_compatible compatible (Or.inl rfl)
        | run | runThread | registry => simp [step, Control.call] at taken
  | advance t => exact advance_compatible compatible exclusive taken
  | change t vectors =>
      simp only [step, Option.ite_none_right_eq_some, Option.some.injEq] at taken
      rw [← taken.2]
      exact compatible

end Compatibility

/-- Only a registry operation after its check changes the vectors. -/
theorem step_vectors {s next : Control} {label : Label} (taken : step s label = some next)
    (changed : next.vectors ≠ s.vectors) : ∃ t, s.pc t = .changing := by
  cases label with
  | call t what =>
      refine absurd ?_ changed
      rcases t with (n | _) | ⟨owner, index⟩ <;> cases what <;>
        simp only [step, Control.call, Option.ite_none_right_eq_some, Option.some.injEq,
          reduceCtorEq] at taken <;> (rw [← taken.2]; rfl)
  | advance t =>
      refine absurd ?_ changed
      cases advance_access taken <;> rfl
  | change t vectors =>
      simp only [step, Option.ite_none_right_eq_some] at taken
      exact ⟨t, taken.1⟩

/-- In a run whose threads respect the discipline at their last checks, one loop is active at most
and no registry changes while it is active. -/
theorem safe_of_exclusive (vectors : Vectors) {labels : List Label}
    (meets : machine.Meets Exclusive (initial vectors) labels) :
    machine.Along Safe (initial vectors) labels := by
  have ground : Disciplined (initial vectors) := fun _ _ _ holds => by cases holds
  apply meets.along machine _ ground
  intro s label next compatible exclusive taken
  have after := step_compatible compatible exclusive taken
  refine ⟨⟨fun t u first second => ?_, fun t entered => ?_⟩, after⟩
  · by_contra different
    have alone := after t u different first.role
    rw [roles, second.role] at alone
    cases alone
  · by_contra changed
    obtain ⟨u, changing⟩ := step_vectors taken changed
    have different : t ≠ u := by
      rintro rfl
      rw [changing] at entered
      exact entered
    have alone := compatible t u different entered.role
    rw [roles, changing] at alone
    cases alone

/-- A second client finds the flag set and leaves. -/
theorem refusedRun_safe : machine.Along Safe (initial ⟨[], [], [], []⟩)
    [.call (client 0) (.run .runRaw), .advance (client 0), .advance (client 0),
      .advance (client 0), .call (client 1) (.run .runRaw), .advance (client 1),
      .call (client 2) .registry, .advance (client 2)] := by
  apply safe_of_exclusive
  have alone : Grants (roles ((initial ⟨[], [], [], []⟩).goto (client 0) (.start .runRaw) |>.goto
      (client 0) (.sized .runRaw))) (client 0) .exclusive := by
    intro other different
    simp [roles, different, initial, Pc.role]
  apply Machine.Meets.cons machine rfl trivial
  apply Machine.Meets.cons machine rfl trivial
  apply Machine.Meets.cons machine rfl fun _ => alone
  apply Machine.Meets.cons machine rfl trivial
  apply Machine.Meets.cons machine rfl trivial
  apply Machine.Meets.cons machine rfl trivial
  apply Machine.Meets.cons machine rfl trivial
  apply Machine.Meets.cons machine rfl fun idle => absurd idle (by decide)
  exact trivial

/-- Two clients read the flag before one of them stores it. -/
theorem racingRuns_not_safe : ¬ machine.Along Safe (initial ⟨[], [], [], []⟩)
    [.call (client 0) (.run .runRaw), .call (client 1) (.run .runRaw), .advance (client 0),
      .advance (client 1), .advance (client 0), .advance (client 1), .advance (client 0),
      .advance (client 1)] := by
  intro along
  have safe := ((along _ rfl).2 _ rfl |>.2 _ rfl |>.2 _ rfl |>.2 _ rfl |>.2 _ rfl |>.2 _ rfl |>.2 _ rfl).1
  have same := safe.single (client 0) (client 1) trivial trivial
  exact absurd same (by decide)

/-- A thread after its last check enters its loop. -/
theorem exists_enter {s : Control} {t : Thread} {mode : Mode} (pc : s.pc t = .enter mode) :
    ∃ next, step s (.advance t) = some next ∧ (next.pc t).Entered ∧
      (∀ u, u ≠ t → next.pc u = s.pc u) ∧ next.vectors = s.vectors := by
  have taken : step s (.advance t) = some (({ s with isRunning := true }).goto t
      (if mode = Mode.run then .spawning 0 else .loop mode 0)) := by
    simp only [step, Control.advance, pc]
  refine ⟨_, taken, ?_, fun u different => ?_, rfl⟩
  · rw [goto_pc_self]
    split <;> exact trivial
  · rw [goto_pc_other different]

/-- A thread with an exclusive role is in its loop or enters it next. -/
theorem exclusive_cases {pc : Pc} (role : pc.role = some .exclusive) :
    pc.Entered ∨ ∃ mode, pc = .enter mode := by
  cases pc <;> simp_all [Pc.role, Pc.Entered]

/-- Two threads that cannot both be in a loop are stopped by no further access. -/
theorem not_safe_of_enter {s : Control} {t u : Thread} {mode : Mode} (different : t ≠ u)
    (pc : s.pc t = .enter mode) (entered : (s.pc u).Entered) :
    ¬ machine.Along Safe s [.advance t] := by
  intro along
  obtain ⟨next, taken, here, others, _⟩ := exists_enter pc
  have safe := (along next taken).1
  have there : (next.pc u).Entered := by
    rw [others u (Ne.symm different)]
    exact entered
  exact different (safe.single t u here there)

/-- A registry operation after its check changes the vectors under an active loop. -/
theorem not_safe_of_change {s : Control} {t u : Thread} (pc : s.pc t = .changing)
    (entered : (s.pc u).Entered) : ∃ vectors, ¬ machine.Along Safe s [.change t vectors] := by
  let changed : Vectors := { s.vectors with cameras := 0 :: s.vectors.cameras }
  refine ⟨changed, fun along => ?_⟩
  have safe := (along { s with vectors := changed } (if_pos pc)).1
  have same := congrArg Vectors.cameras (safe.unchanged u entered)
  exact List.cons_ne_self 0 _ same

/-- A run function that passes its check with another thread in its way can meet it in its loop. -/
theorem exists_not_safe_of_sized {s : Control} {t : Thread} (mode : Mode)
    (refused : ¬ Grants (roles s) t .exclusive) :
    ∃ labels, ¬ machine.Along Safe (s.goto t (.enter mode)) labels := by
  obtain ⟨u, different, holds | ⟨_, shared⟩⟩ := exists_of_not_grants refused
  · have kept := goto_pc_other different (.enter mode) s
    rcases exclusive_cases holds with entered | ⟨other, waiting⟩
    · refine ⟨_, not_safe_of_enter (Ne.symm different) (goto_pc_self t _ s) ?_⟩
      rw [kept]
      exact entered
    · obtain ⟨entered, first, here, others, _⟩ := exists_enter (kept.trans waiting)
      have later := not_safe_of_enter (Ne.symm different)
        ((others t (Ne.symm different)).trans (goto_pc_self t _ s)) here
      exact ⟨[.advance u, .advance t], fun along => later (along entered first).2⟩
  · have changing : s.pc u = .changing := by
      unfold roles at shared
      cases other : s.pc u <;> simp_all [Pc.role]
    obtain ⟨entered, first, here, others, _⟩ := exists_enter (goto_pc_self t (.enter mode) s)
    have still : entered.pc u = .changing := by
      rw [others u different, goto_pc_other different, changing]
    obtain ⟨vectors, later⟩ := not_safe_of_change still here
    exact ⟨[.advance t, .change u vectors], fun along => later (along entered first).2⟩

/-- A registry operation that passes its check with a run function in its way can change the vectors
under its loop. -/
theorem exists_not_safe_of_registry {s : Control} {t : Thread}
    (refused : ¬ Grants (roles s) t .shared) :
    ∃ labels, ¬ machine.Along Safe (s.goto t .changing) labels := by
  obtain ⟨u, different, holds | ⟨impossible, _⟩⟩ := exists_of_not_grants refused
  · have kept := goto_pc_other different .changing s
    rcases exclusive_cases holds with entered | ⟨other, waiting⟩
    · have there : ((s.goto t .changing).pc u).Entered := by
        rw [kept]
        exact entered
      obtain ⟨vectors, later⟩ := not_safe_of_change (goto_pc_self t .changing s) there
      exact ⟨_, later⟩
    · obtain ⟨entered, first, here, others, _⟩ := exists_enter (kept.trans waiting)
      have still : entered.pc t = .changing := by
        rw [others t (Ne.symm different), goto_pc_self]
      obtain ⟨vectors, later⟩ := not_safe_of_change still here
      exact ⟨[.advance u, .change t vectors], fun along => later (along entered first).2⟩
  · cases impossible

/-- A thread that passes its last check with another thread in its way can be followed by accesses
that break the exclusion. -/
theorem exists_not_safe {s next : Control} {label : Label} (refused : ¬ Exclusive s label)
    (taken : step s label = some next) :
    ∃ labels, ¬ machine.Along Safe next labels := by
  cases label with
  | call | change => exact absurd trivial refused
  | advance t =>
      simp only [Exclusive] at refused
      simp only [step, Control.advance] at taken
      cases pc : s.pc t with
      | sized mode =>
          simp only [pc, Classical.not_imp] at refused
          obtain ⟨passes, refused⟩ := refused
          simp only [pc, if_pos passes, Option.some.injEq] at taken
          subst taken
          exact exists_not_safe_of_sized mode refused
      | registry =>
          simp only [pc, Classical.not_imp] at refused
          obtain ⟨idle, refused⟩ := refused
          simp only [pc, idle, Bool.false_eq_true, if_false, Option.some.injEq] at taken
          subst taken
          exact exists_not_safe_of_registry refused
      | idle | start | enter | spawning | loop | joining | changing | threadStart | threadCheck
      | threadSpawn | stopStore | stopCheck | stopJoin | runner | process | finished =>
          simp only [pc, not_true_eq_false] at refused

end VisionServer.Server.RunControl
