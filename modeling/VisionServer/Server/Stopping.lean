/-
This file decides when a stop request can be lost or wait forever.
-/

import VisionServer.Server.Exclusion

namespace VisionServer.Server.RunControl
open Library

/-- One client starts `head`, and every thread except `head` can call `stop`. -/
def InScope : Label → Prop
  | .call t (.runThread _) => t = client 0
  | .call _ .stop => True
  | .call _ _ => False
  | .advance _ => True
  | .change _ _ => False

/-- The thread has stored the flag in `stop` and has not returned. -/
def Pc.PastStore : Pc → Prop
  | .stopCheck => True
  | .stopJoin => True
  | _ => False

/-- A stop request waits for `head`, which loops with the flag set or waits for the caller. -/
def Stuck (s : Control) : Prop :=
  ∃ t, s.pc t = .stopJoin ∧
    (s.isRunning = true ∧ (∃ mode k, s.pc head = .loop mode k) ∨
      ∃ index k, s.pc head = .joining index k ∧ t = .runner .head index)

/-- A thread at this access is on its way to store the flag. -/
def StartingAt (s : Control) : Pc → Prop
  | .start mode => s.Passes mode
  | .sized mode => s.Passes mode
  | .enter _ => True
  | _ => False

/-- A stop request stores the flag when `head` is not on its way to set it, and a runner does not
make one. No new `head` is started while a stop request is under way. -/
def Clear (s : Control) : Label → Prop
  | .advance t =>
      match s.pc t with
      | .stopStore => ¬ StartingAt s (s.pc head) ∧ ∀ owner index, t ≠ .runner owner index
      | .threadSpawn mode => s.Passes mode → ∀ u, ¬ (s.pc u).PastStore
      | _ => True
  | _ => True

/-- Each kind of thread has its own accesses. -/
def Side : Thread → Pc → Prop
  | .caller (.client _), pc => pc = .idle ∨ (∃ mode, pc = .threadStart mode) ∨
      (∃ mode, pc = .threadCheck mode) ∨ (∃ mode, pc = .threadSpawn mode) ∨
      pc = .stopStore ∨ pc = .stopCheck ∨ pc = .stopJoin
  | .caller .head, pc => pc = .idle ∨ (∃ mode, pc = .start mode) ∨ (∃ mode, pc = .sized mode) ∨
      (∃ mode, pc = .enter mode) ∨ (∃ k, pc = .spawning k) ∨ (∃ mode k, pc = .loop mode k) ∨
      (∃ index k, pc = .joining index k) ∨ pc = .finished
  | .runner _ _, pc => pc = .idle ∨ pc = .runner ∨ pc = .process ∨ pc = .finished ∨ pc = .stopStore

/-- While a stop request is under way, `head` does not set the flag any more. -/
structure Orderly (s : Control) : Prop where
  sides : ∀ t, Side t (s.pc t)
  past : (∃ t, (s.pc t).PastStore) →
    ¬ StartingAt s (s.pc head) ∧ ((s.pc head).Entered → s.isRunning = false)

/-- An orderly server is not stuck. -/
theorem Orderly.not_stuck {s : Control} (orderly : Orderly s) : ¬ Stuck s := by
  intro given
  obtain ⟨t, joining, ⟨running, mode, k, looping⟩ | ⟨index, k, _, rfl⟩⟩ := given
  · have past := (orderly.past ⟨t, by rw [joining]; exact trivial⟩).2
    rw [looping] at past
    exact absurd running (by rw [past trivial]; exact Bool.false_ne_true)
  · have side := orderly.sides (.runner .head index)
    rw [joining] at side
    simp [Side] at side

/-- A move stays among the accesses of its thread. -/
theorem Move.side {s : Control} {t : Thread} {before after : Pc} (move : Move s t before after)
    (side : Side t before) : Side t after := by
  rcases t with (n | _) | ⟨owner, index⟩ <;> cases move <;> simp_all [Side, Control.afterCall]

/-- A move stores no flag. -/
theorem Move.past {s : Control} {t : Thread} {before after : Pc} (move : Move s t before after)
    (stored : after.PastStore) : before.PastStore := by
  cases move with
  | stopPresent => exact trivial
  | startRunning | sizedRefused | joined | registryRunning | changed | threadRunning | threadPresent
  | stopAbsent | stopJoined => rcases t with (_ | _) | _ <;> exact absurd stored id
  | _ => exact absurd stored id

/-- A move to the store of the flag comes from an access that is on its way there. -/
theorem Move.starting {s : Control} {t : Thread} {before after : Pc} (move : Move s t before after)
    (starting : StartingAt s after) : StartingAt s before := by
  cases move with
  | startStopped mode => exact starting
  | sizedPasses mode passes => exact passes
  | startRunning | sizedRefused | joined | registryRunning | changed | threadRunning | threadPresent
  | stopAbsent | stopJoined => rcases t with (_ | _) | _ <;> exact absurd starting id
  | _ => exact absurd starting id

/-- A move into a loop comes from the same loop. -/
theorem Move.entered {s : Control} {t : Thread} {before after : Pc} (move : Move s t before after)
    (entered : after.Entered) : before.Entered := by
  cases move with
  | spawned => exact trivial
  | startRunning | sizedRefused | joined | registryRunning | changed | threadRunning | threadPresent
  | stopAbsent | stopJoined => rcases t with (_ | _) | _ <;> exact absurd entered id
  | _ => exact absurd entered id

/-- Only `head` enters a loop. -/
theorem Side.eq_head {t : Thread} {pc : Pc} (side : Side t pc)
    (enters : (∃ mode, pc = .enter mode) ∨ ∃ k, pc = .spawning k) : t = head := by
  rcases t with (n | _) | ⟨owner, index⟩ <;> rcases enters with ⟨mode, rfl⟩ | ⟨k, rfl⟩ <;>
    simp_all [Side, head]

/-- Only a client starts or joins `head`. -/
theorem Side.eq_client {t : Thread} {pc : Pc} (side : Side t pc)
    (calls : (∃ mode, pc = .threadSpawn mode) ∨ pc = .stopJoin) : ∃ n, t = client n := by
  rcases t with (n | _) | ⟨owner, index⟩ <;> rcases calls with ⟨mode, rfl⟩ | rfl <;>
    simp_all [Side, client]

section Goto

variable {s : Control} (orderly : Orderly s)
include orderly

theorem Orderly.goto_sides {t : Thread} {pc : Pc} (side : Side t pc) (u : Thread) :
    Side u ((s.goto t pc).pc u) :=
  goto_forall side (fun v _ => orderly.sides v) u

omit orderly in
theorem past_goto {t : Thread} {pc : Pc} (past : ∃ u, ((s.goto t pc).pc u).PastStore) :
    pc.PastStore ∨ ∃ u, (s.pc u).PastStore := by
  obtain ⟨u, stored⟩ := past
  by_cases here : u = t
  · subst here
    rw [goto_pc_self] at stored
    exact Or.inl stored
  · rw [goto_pc_other here] at stored
    exact Or.inr ⟨u, stored⟩

/-- An access of another thread leaves `head` alone. -/
theorem Orderly.goto_other {t : Thread} {pc : Pc} (different : head ≠ t) (side : Side t pc)
    (past : pc.PastStore → ∃ u, (s.pc u).PastStore) : Orderly (s.goto t pc) := by
  refine ⟨orderly.goto_sides side, fun stored => ?_⟩
  rw [goto_pc_other different]
  rcases past_goto stored with new | old
  · exact orderly.past (past new)
  · exact orderly.past old

/-- An access of `head` makes no stop request. -/
theorem Orderly.goto_head {pc : Pc} (side : Side head pc)
    (past : (∃ u, (s.pc u).PastStore) →
      ¬ StartingAt s pc ∧ (pc.Entered → s.isRunning = false)) : Orderly (s.goto head pc) := by
  refine ⟨orderly.goto_sides side, fun stored => ?_⟩
  rw [goto_pc_self]
  rcases past_goto stored with new | old
  · simp only [Side, head] at side
    rcases side with rfl | ⟨_, rfl⟩ | ⟨_, rfl⟩ | ⟨_, rfl⟩ | ⟨_, rfl⟩ | ⟨_, _, rfl⟩ |
      ⟨_, _, rfl⟩ | rfl <;>
      exact absurd new id
  · exact past old

/-- A move of a thread keeps the order. -/
theorem Orderly.move {t : Thread} {pc : Pc} (move : Move s t (s.pc t) pc) : Orderly (s.goto t pc) := by
  have side := move.side (orderly.sides t)
  by_cases here : head = t
  · subst here
    apply orderly.goto_head side
    intro stored
    obtain ⟨starting, entered⟩ := orderly.past stored
    exact ⟨fun after => starting (move.starting after), fun after => entered (move.entered after)⟩
  · exact orderly.goto_other here side fun stored => ⟨t, move.past stored⟩

/-- A client returns. -/
theorem Orderly.ret_client (n : Nat) : Orderly (s.ret (client n)) :=
  orderly.goto_other (by simp [head, client]) (Or.inl rfl) fun stored => absurd stored id

/-- `head` raises the flag before any stop request, and enters its loop. -/
theorem Orderly.enters {mode : Mode} (here : s.pc head = .enter mode) :
    Orderly ({ s with isRunning := true }.goto head
      (if mode = Mode.run then .spawning 0 else .loop mode 0)) := by
  have past := orderly.past
  rw [here] at past
  have none_stored : ¬ ∃ u, (s.pc u).PastStore := fun stored => (past stored).1 trivial
  refine Orderly.goto_head (s := { s with isRunning := true }) ?_ ?_ ?_
  · exact ⟨orderly.sides, fun stored => absurd stored none_stored⟩
  · split <;> simp [Side, head]
  · exact fun stored => absurd stored none_stored

/-- `head` creates a runner and stays in its loop. -/
theorem Orderly.spawnsRunner {owner : Caller} {k : Nat} (here : s.pc head = .spawning k) :
    Orderly ((s.goto (.runner owner k) .runner).goto head (.spawning (k + 1))) := by
  have past := orderly.past
  rw [here] at past
  have created : Orderly (s.goto (.runner owner k) .runner) :=
    orderly.goto_other (by simp [head]) (by simp [Side]) fun stored => absurd stored id
  refine created.goto_head (by simp [Side, head]) fun stored => ⟨id, fun _ => ?_⟩
  rcases past_goto stored with new | old
  · exact absurd new id
  · exact (past old).2 trivial

/-- A client creates `head` when no stop request is under way. -/
theorem Orderly.spawnsHead {mode : Mode} (n : Nat)
    (clear : s.Passes mode → ∀ u, ¬ (s.pc u).PastStore) :
    Orderly (({ s with joinable := true }.goto head (.start mode)).ret (client n)) := by
  have started : Orderly (({ s with joinable := true } : Control).goto head (.start mode)) := by
    apply Orderly.goto_head (s := { s with joinable := true }) ⟨orderly.sides, orderly.past⟩
    · simp [Side, head]
    · intro given
      obtain ⟨u, stored⟩ := given
      exact ⟨fun passes => clear passes u stored, fun entered => absurd entered id⟩
  exact started.ret_client n

/-- A client lowers the flag when `head` is not on its way to raise it. -/
theorem Orderly.stores {n : Nat} (starting : ¬ StartingAt s (s.pc head)) :
    Orderly ({ s with isRunning := false }.goto (client n) .stopCheck) := by
  have different : head ≠ client n := by simp [head, client]
  have stopped : Orderly { s with isRunning := false } :=
    ⟨orderly.sides, fun stored => ⟨(orderly.past stored).1, fun _ => rfl⟩⟩
  refine ⟨stopped.goto_sides (by simp [Side, client]), fun _ => ⟨fun after => starting ?_, fun _ => rfl⟩⟩
  rw [goto_pc_other different] at after
  exact after

/-- A client joins `head`. -/
theorem Orderly.joinsHead (n : Nat) :
    Orderly (({ s with joinable := false }.goto head .idle).ret (client n)) := by
  have joined : Orderly (({ s with joinable := false } : Control).goto head .idle) := by
    apply Orderly.goto_head (s := { s with joinable := false }) ⟨orderly.sides, orderly.past⟩
    · exact Or.inl rfl
    · exact fun _ => ⟨id, fun entered => absurd entered id⟩
  exact joined.ret_client n

/-- The accesses keep the order when the stop requests are clear. -/
theorem Orderly.advance {t : Thread} {next : Control} (clear : Clear s (.advance t))
    (taken : s.advance t = some next) : Orderly next := by
  have side := orderly.sides t
  simp only [Clear] at clear
  cases advance_access taken with
  | moves pc move => exact orderly.move move
  | loops => exact orderly
  | enters mode here =>
      rw [here] at side
      obtain rfl := side.eq_head (Or.inl ⟨mode, rfl⟩)
      exact orderly.enters here
  | spawnsRunner owner k same here =>
      rw [here] at side
      obtain rfl := side.eq_head (Or.inr ⟨k, rfl⟩)
      exact orderly.spawnsRunner here
  | spawnsHead mode here =>
      rw [here] at side clear
      obtain ⟨n, rfl⟩ := side.eq_client (Or.inl ⟨mode, rfl⟩)
      exact orderly.spawnsHead n clear
  | stores here =>
      rw [here] at clear side
      rcases t with (n | _) | ⟨owner, index⟩
      · exact orderly.stores clear.1
      · simp [Side] at side
      · exact absurd rfl (clear.2 owner index)
  | joinsHead here =>
      rw [here] at side
      obtain ⟨n, rfl⟩ := side.eq_client (Or.inr rfl)
      exact orderly.joinsHead n

/-- A step in scope keeps the order when its stop requests are clear. -/
theorem Orderly.step {label : Label} {next : Control} (scope : InScope label)
    (clear : Clear s label) (taken : step s label = some next) : Orderly next := by
  cases label with
  | call t what =>
      rcases t with (n | _) | ⟨owner, index⟩
      · simp only [RunControl.step, Control.call, Option.ite_none_right_eq_some,
          Option.some.injEq] at taken
        rw [← taken.2]
        cases what with
        | runThread mode =>
            exact orderly.goto_other (by simp [head]) (by simp [Side, Call.entry])
              fun stored => absurd stored id
        | stop =>
            exact orderly.goto_other (by simp [head]) (by simp [Side, Call.entry])
              fun stored => absurd stored id
        | run | registry => exact absurd scope id
      · simp [RunControl.step, Control.call] at taken
      · cases what with
        | stop =>
            simp only [RunControl.step, Control.call, Option.ite_none_right_eq_some,
              Option.some.injEq] at taken
            rw [← taken.2]
            exact orderly.goto_other (by simp [head]) (by simp [Side])
              fun stored => absurd stored id
        | run | runThread | registry => simp [RunControl.step, Control.call] at taken
  | advance t => exact orderly.advance clear taken
  | change => exact absurd scope id

end Goto

theorem initial_orderly (vectors : Vectors) : Orderly (initial vectors) := by
  refine ⟨fun t => ?_, fun ⟨_, stored⟩ => absurd stored id⟩
  rcases t with (_ | _) | _ <;> exact Or.inl rfl

/-- In a run of one starting client whose stop requests are clear, no stop request is lost and none
waits for a thread that waits for it. -/
theorem never_stuck_of_clear (vectors : Vectors) {labels : List Label}
    (scope : ∀ label ∈ labels, InScope label)
    (meets : machine.Meets Clear (initial vectors) labels) :
    machine.Always (fun s => ¬ Stuck s) (initial vectors) labels := by
  have both := meets.and_labels machine scope
  have orderly : machine.Always Orderly (initial vectors) labels := by
    apply both.always machine _ (initial_orderly vectors)
    intro s label next orderly ⟨allowed, clear⟩ taken
    exact orderly.step allowed clear taken
  exact orderly.mono machine fun _ => Orderly.not_stuck

/-- The stop request comes when `head` has entered its loop, and it waits for the end of `head`. -/
theorem lateStop_not_stuck : machine.Always (fun s => ¬ Stuck s) (initial ⟨[], [], [], []⟩)
    [.call (client 0) (.runThread .runRaw), .advance (client 0), .advance (client 0),
      .advance (client 0), .advance head, .advance head, .advance head,
      .call (client 0) .stop, .advance (client 0), .advance (client 0), .advance head,
      .advance head, .advance (client 0)] := by
  have scope : ∀ label ∈ [Label.call (client 0) (.runThread .runRaw), .advance (client 0),
      .advance (client 0), .advance (client 0), .advance head, .advance head, .advance head,
      .call (client 0) .stop, .advance (client 0), .advance (client 0), .advance head,
      .advance head, .advance (client 0)], InScope label := by
    simp [InScope]
  apply never_stuck_of_clear _ scope
  have others (u : Thread) : ¬ (((((initial ⟨[], [], [], []⟩).goto (client 0) (.threadStart .runRaw)).goto
      (client 0) (.threadCheck .runRaw)).goto (client 0) (.threadSpawn .runRaw)).pc u).PastStore := by
    by_cases here : u = client 0
    · rw [here, goto_pc_self]
      exact id
    · rw [goto_pc_other here, goto_pc_other here, goto_pc_other here]
      exact id
  apply Machine.Meets.cons machine rfl trivial
  apply Machine.Meets.cons machine rfl trivial
  apply Machine.Meets.cons machine rfl trivial
  apply Machine.Meets.cons machine rfl fun _ => others
  apply Machine.Meets.cons machine rfl trivial
  apply Machine.Meets.cons machine rfl trivial
  apply Machine.Meets.cons machine rfl trivial
  apply Machine.Meets.cons machine rfl trivial
  apply Machine.Meets.cons machine rfl ⟨id, fun _ _ => by simp [client]⟩
  apply Machine.Meets.cons machine rfl trivial
  apply Machine.Meets.cons machine rfl trivial
  apply Machine.Meets.cons machine rfl trivial
  apply Machine.Meets.cons machine rfl trivial
  exact trivial

/-- The stop request stores the flag before `head` does, and it waits for a loop that goes on. -/
theorem earlyStop_stuck :
    let labels : List Label := [.call (client 0) (.runThread .runRaw), .advance (client 0),
      .advance (client 0), .advance (client 0), .call (client 0) .stop, .advance (client 0),
      .advance (client 0), .advance head, .advance head, .advance head]
    (∀ label ∈ labels, InScope label) ∧
      ¬ machine.Always (fun s => ¬ Stuck s) (initial ⟨[], [], [], []⟩) labels := by
  refine ⟨by simp [InScope], fun always => ?_⟩
  have last := always.last machine rfl
  exact last ⟨client 0, rfl, Or.inl ⟨rfl, .runRaw, 0, rfl⟩⟩

/-- A pipeline stops the server in its `process()`, and `head` waits for this pipeline. -/
theorem processStop_stuck :
    let labels : List Label := [.call (client 0) (.runThread .run), .advance (client 0),
      .advance (client 0), .advance (client 0), .advance head, .advance head, .advance head,
      .advance head, .advance head, .advance (.runner .head 0), .call (.runner .head 0) .stop,
      .advance (.runner .head 0), .advance (.runner .head 0), .advance head]
    (∀ label ∈ labels, InScope label) ∧
      ¬ machine.Always (fun s => ¬ Stuck s) (initial ⟨[], [.user 0], [], []⟩) labels := by
  refine ⟨by simp [InScope], fun always => ?_⟩
  have last := always.last machine rfl
  exact last ⟨.runner .head 0, rfl, Or.inr ⟨0, 1, rfl, rfl⟩⟩

end VisionServer.Server.RunControl
