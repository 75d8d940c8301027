/-
This file shows that the histories of whole calls cover every schedule in which the clients take
turns.
-/

import VisionServer.Server.Instances
import VisionServer.Server.Turns

namespace VisionServer.Server.RunControl
open Library
open Instances (Head RunState)

/-- This is the loop of a thread. -/
def Pc.loops : Pc → Option Mode
  | .spawning _ => some .run
  | .loop mode _ => some mode
  | _ => none

/-- A thread that has not decided yet whether it loops counts as absent. -/
def Pc.asHead : Pc → Head
  | .spawning _ => .active .run
  | .loop mode _ => .active mode
  | .finished => .ended
  | _ => .none

/-- This is what the whole calls have done. A stop request takes effect when it stores the flag. -/
structure Shows (s : Control) (seen : RunState) : Prop where
  pipelines : seen.pipelines = s.vectors.pipelines.length
  isRunning : seen.isRunning = s.isRunning
  clients : ∀ n, seen.clients n = (s.pc (client n)).loops
  stopping : ∀ n, (s.pc (client n)).PastStore → seen.head = .none
  started : (∀ n, ¬ (s.pc (client n)).PastStore) → seen.head = (s.pc head).asHead

section Shown

variable {s : Control} {seen : RunState} (shows : Shows s seen)
include shows

/-- The whole calls do not see a move that keeps the loops and the stop requests. -/
theorem Shows.goto_client {n : Nat} {pc : Pc} (loops : pc.loops = (s.pc (client n)).loops)
    (past : pc.PastStore ↔ (s.pc (client n)).PastStore) : Shows (s.goto (client n) pc) seen := by
  have pasts (m : Nat) :
      ((s.goto (client n) pc).pc (client m)).PastStore ↔ (s.pc (client m)).PastStore := by
    by_cases same : client m = client n
    · rw [same, goto_pc_self, past]
    · rw [goto_pc_other same]
  refine ⟨shows.pipelines, shows.isRunning, fun m => ?_, fun m stored => ?_, fun none_ => ?_⟩
  · rw [shows.clients m]
    by_cases same : client m = client n
    · rw [same, goto_pc_self, loops]
    · rw [goto_pc_other same]
  · exact shows.stopping m ((pasts m).mp stored)
  · rw [goto_pc_other (head_ne_client n)]
    exact shows.started fun m stored => none_ m ((pasts m).mpr stored)

/-- The whole calls do not see a move of `head` before its decision or under a stop request. -/
theorem Shows.goto_head (joinable : Bool) (pc : Pc)
    (same : (∀ n, ¬ (s.pc (client n)).PastStore) → pc.asHead = (s.pc head).asHead) :
    Shows ({ s with joinable := joinable }.goto head pc) seen := by
  have kept (n : Nat) : ({ s with joinable := joinable }.goto head pc).pc (client n) =
      s.pc (client n) := goto_pc_other (client_ne_head n) pc { s with joinable := joinable }
  refine ⟨shows.pipelines, shows.isRunning, fun n => ?_, fun n stored => ?_, fun none_ => ?_⟩
  · rw [kept]
    exact shows.clients n
  · rw [kept] at stored
    exact shows.stopping n stored
  · have before (n : Nat) : ¬ (s.pc (client n)).PastStore := by
      rw [← kept n]
      exact none_ n
    rw [goto_pc_self, same before]
    exact shows.started before

/-- The whole calls do not see the runners. -/
theorem Shows.goto_runner (owner : Caller) (index : Nat) (pc : Pc) :
    Shows (s.goto (.runner owner index) pc) seen := by
  have kept (t : Caller) : (s.goto (.runner owner index) pc).pc (.caller t) = s.pc (.caller t) :=
    goto_pc_other (by simp) pc s
  refine ⟨shows.pipelines, shows.isRunning, fun n => ?_, fun n stored => ?_, fun none_ => ?_⟩
  · rw [client, kept]
    exact shows.clients n
  · rw [client, kept] at stored
    exact shows.stopping n stored
  · have before (n : Nat) : ¬ (s.pc (client n)).PastStore := by
      rw [client, ← kept]
      exact none_ n
    rw [head, kept]
    exact shows.started before

/-- The two views agree on the guard of the processing runs. -/
theorem Shows.passes_iff (mode : Mode) : seen.Passes mode ↔ s.Passes mode := by
  unfold RunState.Passes Control.Passes
  rw [shows.pipelines, List.length_pos_iff]

/-- A client enters or leaves its loop. -/
theorem Shows.client_decides {n : Nat} (flag : Bool) (pc : Pc)
    (before : ¬ (s.pc (client n)).PastStore) (after : ¬ pc.PastStore) :
    Shows ({ s with isRunning := flag }.goto (client n) pc)
      { seen with isRunning := flag, clients := Function.update seen.clients n pc.loops } := by
  have kept {u : Thread} (away : u ≠ client n) :
      ({ s with isRunning := flag }.goto (client n) pc).pc u = s.pc u :=
    goto_pc_other away pc { s with isRunning := flag }
  refine ⟨shows.pipelines, rfl, fun m => ?_, fun m stored => ?_, fun none_ => ?_⟩
  · by_cases same : m = n
    · rw [same, goto_pc_self]
      exact Function.update_self ..
    · rw [kept (client_ne_client same), ← shows.clients m]
      exact Function.update_of_ne same ..
  · by_cases same : m = n
    · rw [same, goto_pc_self] at stored
      exact absurd stored after
    · rw [kept (client_ne_client same)] at stored
      exact shows.stopping m stored
  · rw [kept (head_ne_client n)]
    refine shows.started fun m => ?_
    by_cases same : m = n
    · rw [same]
      exact before
    · rw [← kept (client_ne_client same)]
      exact none_ m

/-- The thread `head` loops or refuses. -/
theorem Shows.head_decides (flag : Bool) (pc : Pc) (none_ : ∀ n, ¬ (s.pc (client n)).PastStore) :
    Shows ({ s with isRunning := flag }.goto head pc)
      { seen with isRunning := flag, head := pc.asHead } := by
  have kept (n : Nat) : ({ s with isRunning := flag }.goto head pc).pc (client n) =
      s.pc (client n) := goto_pc_other (client_ne_head n) pc { s with isRunning := flag }
  refine ⟨shows.pipelines, rfl, fun n => ?_, fun n stored => ?_, fun _ => ?_⟩
  · rw [kept]
    exact shows.clients n
  · rw [kept] at stored
    exact absurd stored (none_ n)
  · rw [goto_pc_self]

/-- A stop request takes effect. -/
theorem Shows.stop_decides {n : Nat} (here : s.pc (client n) = .stopStore) :
    Shows ({ s with isRunning := false }.goto (client n) .stopCheck) seen.stop.2 := by
  rw [Instances.stop_state]
  refine ⟨shows.pipelines, rfl, fun m => ?_, fun _ _ => rfl, fun none_ => ?_⟩
  · rw [shows.clients m]
    by_cases same : m = n
    · rw [same, goto_pc_self, here]
      rfl
    · rw [goto_pc_other (client_ne_client same)]
  · exact absurd (by rw [goto_pc_self]; exact trivial) (none_ n)

/-- A stop request returns when there is no `head`. -/
theorem Shows.stop_returns {n : Nat} (here : (s.pc (client n)).PastStore)
    (absent : s.pc head = .idle) : Shows (s.goto (client n) .idle) seen := by
  refine ⟨shows.pipelines, shows.isRunning, fun m => ?_, fun m stored => ?_, fun _ => ?_⟩
  · rw [shows.clients m]
    by_cases same : m = n
    · rw [same, goto_pc_self]
      cases pc : s.pc (client n) <;> first
        | rfl
        | (rw [pc] at here; exact absurd here id)
    · rw [goto_pc_other (client_ne_client same)]
  · by_cases same : m = n
    · rw [same, goto_pc_self] at stored
      exact absurd stored id
    · rw [goto_pc_other (client_ne_client same)] at stored
      exact shows.stopping m stored
  · rw [goto_pc_other (head_ne_client n), absent]
    exact shows.stopping n here

end Shown

/-- The whole calls take a step that shows the next state, or they wait. -/
def Covered (seen : RunState) (next : Control) : Prop :=
  ∃ after, (InTurn next ∧ Shows next after) ∧
    (after = seen ∨ ∃ call, Instances.machine.step seen call = some after)

theorem covered_same {seen : RunState} {next : Control} (turn : InTurn next)
    (shows : Shows next seen) : Covered seen next := ⟨seen, ⟨turn, shows⟩, Or.inl rfl⟩

section Steps

variable {s : Control} {seen : RunState} (turn : InTurn s) (shows : Shows s seen)
include turn shows

/-- A client makes an access that decides nothing. -/
theorem client_waits {n : Nat} (pc : Pc) (others : ∀ u, u ≠ client n → (s.pc u).AtRest)
    (fits : pc.Fits (client n)) (found : Found s (client n) pc)
    (loops : pc.loops = (s.pc (client n)).loops)
    (past : pc.PastStore ↔ (s.pc (client n)).PastStore) : Covered seen (s.goto (client n) pc) :=
  covered_same (turn.goto_client s.isRunning others fits found
    (fun before => Or.inl (past.mpr before)) Or.inl) (shows.goto_client loops past)

/-- A client that passed its checks enters its loop. -/
theorem client_enters {n : Nat} {mode : Mode} (here : s.pc (client n) = .enter mode) :
    Covered seen ({ s with isRunning := true }.goto (client n)
      (if mode = Mode.run then .spawning 0 else .loop mode 0)) := by
  have others (u : Thread) (away : u ≠ client n) : (s.pc u).AtRest :=
    turn.alone (client n) u (by rw [here]; exact id) away
  have found : s.isRunning = false ∧ s.Passes mode := by
    have given := turn.found (client n)
    rw [here] at given
    exact given
  have outside : ¬ (s.pc (client n)).PastStore := by
    rw [here]
    exact id
  have free : seen.clients n = none := by
    rw [shows.clients n, here]
    rfl
  have entered : seen.run n mode =
      { seen with isRunning := true, clients := Function.update seen.clients n (some mode) } :=
    if_pos ⟨shows.isRunning.trans found.1, (shows.passes_iff mode).mpr found.2⟩
  have taken : Instances.machine.step seen (.run n mode) = some (seen.run n mode) := if_pos free
  refine ⟨seen.run n mode, ⟨?_, ?_⟩, Or.inr ⟨.run n mode, taken⟩⟩
  · apply turn.goto_client true others
    · split <;> simp
    · split <;> exact trivial
    · exact fun before => absurd before outside
    · exact fun _ => Or.inl rfl
  · rw [entered]
    by_cases multi : mode = Mode.run
    · rw [if_pos multi, multi]
      exact shows.client_decides true _ outside id
    · rw [if_neg multi]
      exact shows.client_decides true _ outside id

/-- A client leaves its loop after it has read the flag as false. -/
theorem client_leaves {n : Nat} {mode : Mode} {k : Nat} (here : s.pc (client n) = .loop mode k)
    (stopped : s.isRunning = false) : Covered seen (s.goto (client n) (.joining 0 k)) := by
  have outside : ¬ (s.pc (client n)).PastStore := by
    rw [here]
    exact id
  have looping : seen.clients n ≠ none := by
    rw [shows.clients n, here]
    exact Option.some_ne_none mode
  have taken : Instances.machine.step seen (.leave n) = some (seen.leave n) :=
    if_pos ⟨shows.isRunning.trans stopped, looping⟩
  refine ⟨seen.leave n, ⟨?_, ?_⟩, Or.inr ⟨.leave n, taken⟩⟩
  · apply turn.goto_resting (.joining 0 k) (client_ne_head n) (by rw [here]; exact trivial) trivial
    · simp
    · intro _ _ idle
      rw [here] at idle
      cases idle
  · have left := shows.client_decides s.isRunning (.joining 0 k) outside id
    have flag : RunState.leave n seen =
        { seen with isRunning := s.isRunning, clients := Function.update seen.clients n none } := by
      rw [← shows.isRunning]
      rfl
    rw [flag]
    exact left

/-- A stop request stores the flag. -/
theorem stop_stores {n : Nat} (here : s.pc (client n) = .stopStore) :
    Covered seen ({ s with isRunning := false }.goto (client n) .stopCheck) := by
  have others (u : Thread) (away : u ≠ client n) : (s.pc u).AtRest :=
    turn.alone (client n) u (by rw [here]; exact id) away
  have free : seen.clients n = none := by
    rw [shows.clients n, here]
    rfl
  have taken : Instances.machine.step seen (.stop n) = some seen.stop.2 := if_pos free
  refine ⟨seen.stop.2, ⟨?_, shows.stop_decides here⟩, Or.inr ⟨.stop n, taken⟩⟩
  exact turn.goto_client false others (by simp) trivial
    (fun _ => Or.inl trivial) fun _ => Or.inr trivial

/-- A stop request that waits for nothing returns. -/
theorem stop_returns {n : Nat} (here : (s.pc (client n)).PastStore) (absent : s.pc head = .idle) :
    Covered seen (s.goto (client n) .idle) := by
  have others (u : Thread) (away : u ≠ client n) : (s.pc u).AtRest :=
    turn.alone (client n) u (fun rest => rest.not_past here) away
  apply covered_same _ (shows.stop_returns here absent)
  exact turn.goto_client s.isRunning others (by simp) trivial
    (fun _ => Or.inr absent) Or.inl

/-- A stop request that has joined `head` returns. -/
theorem stop_joins {n : Nat} (here : s.pc (client n) = .stopJoin) :
    Covered seen (({ s with joinable := false }.goto head .idle).goto (client n) .idle) := by
  have past : (s.pc (client n)).PastStore := by
    rw [here]
    exact trivial
  have joined := shows.goto_head false .idle fun none_ => absurd past (none_ n)
  apply stop_returns turn.join_head joined
  · rw [goto_pc_other (client_ne_head n)]
    exact past
  · exact goto_pc_self ..

/-- A thread variant starts `head` and returns. -/
theorem thread_starts {n : Nat} {mode : Mode} (here : s.pc (client n) = .threadSpawn mode)
    (absent : s.joinable = false) :
    Covered seen (({ s with joinable := true }.goto head (.start mode)).goto (client n) .idle) := by
  have others (u : Thread) (away : u ≠ client n) : (s.pc u).AtRest :=
    turn.alone (client n) u (by rw [here]; exact id) away
  have stopped : s.isRunning = false := by
    have given := turn.found (client n)
    rw [here] at given
    exact given
  have returned : InTurn (s.goto (client n) .idle) :=
    turn.goto_client s.isRunning others (by simp) trivial
      (fun past => absurd past (by rw [here]; exact id)) Or.inl
  have idle : Pc.AtRest .idle := trivial
  have rest (u : Thread) : ((s.goto (client n) .idle).pc u).AtRest :=
    goto_forall (motive := fun _ pc => pc.AtRest) idle others u
  have waiting : Shows (s.goto (client n) .idle) seen :=
    shows.goto_client (by rw [here]; rfl) (by rw [here]; exact Iff.rfl)
  rw [goto_comm (head_ne_client n)]
  apply covered_same (returned.start_head rest (goto_pc_self ..) stopped mode)
  apply waiting.goto_head true
  intro _
  rw [goto_pc_other (head_ne_client n), turn.joinable.mp absent]
  rfl

/-- The decision of `head` is the effect of a thread variant. -/
theorem head_decides (mode : Mode) (busy : ¬ (s.pc head).AtRest)
    (undecided : (s.pc head).asHead = .none) (stopped : s.isRunning = false) :
    ∃ n, Instances.machine.step seen (.runThread n mode) = some (seen.spawnHead mode) := by
  obtain ⟨n, idle⟩ := turn.starting busy
  have free : seen.clients n = none := by
    rw [shows.clients n, idle]
    rfl
  have absent : seen.head = .none :=
    (shows.started (turn.no_stop busy)).trans undecided
  have joinable : seen.joinable = false := by
    rw [RunState.joinable, absent]
    rfl
  have spawned : seen.runThread mode = (true, seen.spawnHead mode) :=
    if_pos ⟨shows.isRunning.trans stopped, joinable⟩
  refine ⟨n, (if_pos free).trans ?_⟩
  rw [spawned]

/-- The thread `head` refuses without a pipeline. -/
theorem head_refuses {mode : Mode} (here : s.pc head = .sized mode) (refused : ¬ s.Passes mode) :
    Covered seen (s.goto head .finished) := by
  have busy : ¬ (s.pc head).AtRest := by
    rw [here]
    exact id
  have stopped : s.isRunning = false := by
    have given := turn.found head
    rw [here] at given
    exact given
  obtain ⟨n, taken⟩ := head_decides turn shows mode busy (by rw [here]; rfl) stopped
  have ended : seen.spawnHead mode = { seen with isRunning := s.isRunning, head := .ended } := by
    rw [RunState.spawnHead, if_neg (mt (shows.passes_iff mode).mp refused), ← shows.isRunning]
  refine ⟨seen.spawnHead mode, ⟨?_, ?_⟩, Or.inr ⟨_, taken⟩⟩
  · exact turn.goto_head s.isRunning busy (by simp) trivial Pc.noConfusion
      (fun entered => absurd entered id) fun _ _ => Pc.noConfusion
  · rw [ended]
    exact shows.head_decides s.isRunning .finished (turn.no_stop busy)

/-- The thread `head` enters its loop. -/
theorem head_enters {mode : Mode} (here : s.pc head = .enter mode) :
    Covered seen ({ s with isRunning := true }.goto head
      (if mode = Mode.run then .spawning 0 else .loop mode 0)) := by
  have busy : ¬ (s.pc head).AtRest := by
    rw [here]
    exact id
  have found : s.isRunning = false ∧ s.Passes mode := by
    have given := turn.found head
    rw [here] at given
    exact given
  obtain ⟨n, taken⟩ := head_decides turn shows mode busy (by rw [here]; rfl) found.1
  have active : seen.spawnHead mode = { seen with isRunning := true, head := .active mode } := by
    rw [RunState.spawnHead, if_pos ((shows.passes_iff mode).mpr found.2)]
  refine ⟨seen.spawnHead mode, ⟨?_, ?_⟩, Or.inr ⟨_, taken⟩⟩
  · apply turn.goto_head true busy
    · split <;> simp
    · split <;> exact trivial
    · split <;> exact Pc.noConfusion
    · exact fun _ => rfl
    · split <;> exact fun _ _ => Pc.noConfusion
  · rw [active]
    have alone := turn.no_stop busy
    by_cases multi : mode = Mode.run
    · rw [if_pos multi, multi]
      exact shows.head_decides true (.spawning 0) alone
    · rw [if_neg multi]
      exact shows.head_decides true (.loop mode 0) alone

/-- The thread `head` makes an access that decides nothing. -/
theorem head_waits {pc : Pc} (busy : ¬ (s.pc head).AtRest) (fits : pc.Fits head)
    (found : Found s head pc) (present : pc ≠ .idle) (looping : pc.Entered → s.isRunning = true)
    (staying : ∀ index k, pc ≠ .joining index k) (same : pc.asHead = (s.pc head).asHead) :
    Covered seen (s.goto head pc) :=
  covered_same (turn.goto_head s.isRunning busy fits found present looping staying)
    (shows.goto_head s.joinable pc fun _ => same)

/-- The thread `head` leaves its loop for a stop request. -/
theorem head_leaves {pc : Pc} (present : s.pc head ≠ .idle) (after : pc.AtRest)
    (fits : pc.Fits head) (stays : pc ≠ .idle) (past : ∃ n, (s.pc (client n)).PastStore) :
    Covered seen (s.goto head pc) := by
  apply covered_same (turn.goto_leaving present after fits stays past)
  apply shows.goto_head s.joinable
  intro none_
  obtain ⟨n, stored⟩ := past
  exact absurd stored (none_ n)

/-- A thread creates a runner. -/
theorem spawn_runner (owner : Caller) (k : Nat) :
    InTurn (s.goto (.runner owner k) .runner) ∧ Shows (s.goto (.runner owner k) .runner) seen := by
  have before : (s.pc (.runner owner k)).AtRest := by
    rcases turn.fits (.runner owner k) with pc | pc | pc | pc <;> rw [pc] <;> exact trivial
  exact ⟨turn.goto_resting .runner (by simp [head]) before trivial (Or.inr (Or.inl rfl))
    fun n other => by simp [client] at other, shows.goto_runner owner k .runner⟩

/-- The thread that spawns the runners goes on with the next one. -/
theorem runner_spawned {owner : Caller} {k : Nat} (here : s.pc (.caller owner) = .spawning k) :
    Covered seen ((s.goto (.runner owner k) .runner).goto (.caller owner) (.spawning (k + 1))) := by
  obtain ⟨created, shown⟩ := spawn_runner turn shows owner k
  have same : (s.goto (.runner owner k) .runner).pc (.caller owner) = .spawning k := by
    rw [← here]
    exact goto_pc_other Thread.noConfusion .runner s
  have busy : ¬ ((s.goto (.runner owner k) .runner).pc (.caller owner)).AtRest := by
    rw [same]
    exact id
  cases owner with
  | client n =>
      exact client_waits created shown (n := n) _ (fun u away => created.alone (client n) u busy away)
        (by simp) trivial (by rw [client, same]; rfl) (by rw [client, same]; exact Iff.rfl)
  | head =>
      have looping := created.looping
      rw [head, same] at looping
      exact head_waits created shown busy (by simp) trivial Pc.noConfusion
        (fun _ => (looping trivial).resolve_right fun past => created.no_stop busy _ past.choose_spec)
        (fun _ _ => Pc.noConfusion) (by rw [head, same]; rfl)

/-- The moves of a client are covered. -/
theorem client_move {n : Nat} {pc : Pc} (move : Move s (client n) (s.pc (client n)) pc) :
    Covered seen (s.goto (client n) pc) := by
  have fits := move.fits (turn.fits (client n))
  have found := move.found (turn.found (client n))
  have others (busy : ¬ (s.pc (client n)).AtRest) (u : Thread) (away : u ≠ client n) :
      (s.pc u).AtRest := turn.alone (client n) u busy away
  generalize here : s.pc (client n) = before at move
  rw [here] at others
  cases move with
  | loopStopped mode k stopped => exact client_leaves turn shows here stopped
  | stopAbsent absent | stopJoined absent =>
      exact stop_returns turn shows (by rw [here]; exact trivial) (turn.joinable.mp absent)
  | joins | joined =>
      have present (m : Nat) (_ : client n = client m) : s.pc (client n) ≠ .idle := by
        rw [here]
        exact Pc.noConfusion
      have rest : (s.pc (client n)).AtRest := by
        rw [here]
        exact trivial
      refine covered_same (turn.goto_resting _ (client_ne_head n) rest ?_ fits present) ?_
      · exact trivial
      apply shows.goto_client
      · rw [here]
        rfl
      · rw [here]
        exact Iff.rfl
  | startRunning | startStopped | sizedPasses | sizedRefused | spawned | threadRunning | threadStopped
  | threadPresent | threadAbsent | stopPresent =>
      exact client_waits turn shows _ (others id) fits found (by rw [here]; rfl)
        (by rw [here]; exact Iff.rfl)
  | registryRunning | registryStopped | changed | runnerRunning | runnerStopped | processed =>
      have impossible := turn.fits (client n)
      rw [here] at impossible
      simp at impossible

/-- The moves of `head` are covered. -/
theorem head_move {pc : Pc} (move : Move s head (s.pc head) pc) : Covered seen (s.goto head pc) := by
  have side := turn.fits head
  have given := turn.found head
  have fits := move.fits side
  have found := move.found given
  have looping := turn.looping
  generalize here : s.pc head = before at move side given looping
  cases move with
  | startRunning mode running =>
      have stopped : s.isRunning = false := given rfl
      rw [stopped] at running
      cases running
  | sizedRefused mode refused => exact head_refuses turn shows here refused
  | startStopped | sizedPasses =>
      exact head_waits turn shows (by rw [here]; exact id) fits found Pc.noConfusion
        (fun entered => absurd entered id) (fun _ _ => Pc.noConfusion) (by rw [here]; rfl)
  | spawned =>
      have busy : ¬ (s.pc head).AtRest := by
        rw [here]
        exact id
      exact head_waits turn shows busy fits found Pc.noConfusion
        (fun _ => (looping trivial).resolve_right fun past => turn.no_stop busy _ past.choose_spec)
        (fun _ _ => Pc.noConfusion) (by rw [here]; rfl)
  | loopStopped mode k stopped =>
      have past := (looping trivial).resolve_left (by rw [stopped]; exact Bool.false_ne_true)
      exact head_leaves turn shows (by rw [here]; exact Pc.noConfusion) trivial fits Pc.noConfusion past
  | joins owner index k | joined owner index k =>
      have past := turn.leaving index k here
      exact head_leaves turn shows (by rw [here]; exact Pc.noConfusion) trivial fits Pc.noConfusion past
  | registryRunning | registryStopped | changed | threadRunning | threadStopped | threadPresent
  | threadAbsent | stopPresent | stopAbsent | stopJoined | runnerRunning | runnerStopped | processed =>
      simp at side

/-- The moves of a runner are covered. -/
theorem runner_move {owner : Caller} {index : Nat} {pc : Pc}
    (move : Move s (.runner owner index) (s.pc (.runner owner index)) pc) :
    Covered seen (s.goto (.runner owner index) pc) := by
  have rests {pc : Pc} (fits : pc.Fits (.runner owner index)) : pc.AtRest := by
    rcases fits with rfl | rfl | rfl | rfl <;> exact trivial
  have before := turn.fits (.runner owner index)
  have after := move.fits before
  exact covered_same (turn.goto_resting pc (by simp [head]) (rests before) (rests after) after
    fun n other => by simp [client] at other) (shows.goto_runner owner index pc)

/-- The accesses are covered. -/
theorem advance_covered {t : Thread} {next : Control} (taken : s.advance t = some next) :
    Covered seen next := by
  have fits := turn.fits t
  cases advance_access taken with
  | moves pc move =>
      rcases t with (n | _) | ⟨owner, index⟩
      · exact client_move turn shows move
      · exact head_move turn shows move
      · exact runner_move turn shows move
  | loops => exact covered_same turn shows
  | enters mode here =>
      rcases t with (n | _) | ⟨owner, index⟩
      · exact client_enters turn shows here
      · exact head_enters turn shows here
      · rw [here] at fits
        simp [Pc.Fits] at fits
  | spawnsRunner owner k same here =>
      rw [same] at here ⊢
      exact runner_spawned turn shows here
  | spawnsHead mode here absent =>
      rw [here] at fits
      obtain ⟨n, rfl⟩ := fits.eq_client (Or.inl ⟨mode, rfl⟩)
      exact thread_starts turn shows here absent
  | stores here =>
      rw [here] at fits
      obtain ⟨n, rfl⟩ := fits.eq_client (Or.inr (Or.inl rfl))
      exact stop_stores turn shows here
  | joinsHead here =>
      rw [here] at fits
      obtain ⟨n, rfl⟩ := fits.eq_client (Or.inr (Or.inr rfl))
      exact stop_joins turn shows here

/-- A call that takes its turn is covered. -/
theorem call_covered {n : Nat} {what : Call} {next : Control} (runs : what ≠ .registry)
    (rest : ∀ u, (s.pc u).AtRest) (taken : s.call (client n) what = some next) :
    Covered seen next := by
  obtain ⟨idle, shape⟩ := Option.ite_none_right_eq_some.mp taken
  rw [← Option.some.inj shape]
  change s.pc (client n) = _ at idle
  have others (u : Thread) (_ : u ≠ client n) : (s.pc u).AtRest := rest u
  cases what with
  | registry => exact absurd rfl runs
  | run mode =>
      exact client_waits turn shows _ others (by simp [Call.entry]) (fun same => absurd same (client_ne_head n))
        (by rw [idle]; rfl) (by rw [idle]; exact Iff.rfl)
  | runThread mode =>
      exact client_waits turn shows _ others (by simp [Call.entry]) trivial
        (by rw [idle]; rfl) (by rw [idle]; exact Iff.rfl)
  | stop =>
      exact client_waits turn shows _ others (by simp [Call.entry]) trivial
        (by rw [idle]; rfl) (by rw [idle]; exact Iff.rfl)

end Steps

/-- Every step of clients that take turns is a step of the whole calls or decides nothing. -/
theorem step_covered {s next : Control} {label : Label} {seen : RunState}
    (before : InTurn s ∧ Shows s seen) (turns : TakesTurns s label)
    (taken : machine.step s label = some next) : Covered seen next := by
  obtain ⟨turn, shows⟩ := before
  cases label with
  | call t what =>
      obtain ⟨⟨n, rfl⟩, runs, rest⟩ := turns
      exact call_covered turn shows runs rest taken
  | advance t => exact advance_covered turn shows taken
  | change t vectors => exact absurd turns id

theorem initial_shows (vectors : Vectors) :
    Shows (initial vectors) (Instances.initial vectors.pipelines.length) :=
  ⟨rfl, rfl, fun _ => rfl, fun _ stored => absurd stored id, fun _ => rfl⟩

/-- The access that decides the answer of a call finds what the whole call finds. -/
structure Answered (s : Control) (seen : RunState) : Prop where
  stop : ∀ n, s.pc (client n) = .stopStore → seen.stop.1 = s.joinable
  runThread : ∀ n mode, s.pc (client n) = .threadStart mode →
    (seen.runThread mode).1 = (!s.isRunning && !s.joinable)

/-- A client whose call has decided nothing yet sees `head` as the whole calls do. -/
theorem joinable_shown {s : Control} {seen : RunState} (turn : InTurn s) (shows : Shows s seen) {n : Nat}
    (busy : ¬ (s.pc (client n)).AtRest) (past : ¬ (s.pc (client n)).PastStore) :
    seen.joinable = s.joinable := by
  have others (u : Thread) (away : u ≠ client n) : (s.pc u).AtRest :=
    turn.alone (client n) u busy away
  have none_ := not_past_of_others others past
  have rest := others head (head_ne_client n)
  have absent : seen.head = .none ↔ s.pc head = .idle := by
    rw [shows.started none_]
    cases pc : s.pc head with
    | joining index k =>
        obtain ⟨m, stored⟩ := turn.leaving index k pc
        exact absurd stored (none_ m)
    | runner | process =>
        have fits := turn.fits head
        rw [pc] at fits
        simp at fits
    | idle | loop | finished => simp [Pc.asHead]
    | _ =>
        rw [pc] at rest
        exact absurd rest id
  rw [← turn.joinable] at absent
  unfold RunState.joinable
  cases present : s.joinable with
  | false => exact decide_eq_false (not_not.mpr (absent.mpr present))
  | true => exact decide_eq_true fun missing => by simp [absent.mp missing] at present

theorem answered {s : Control} {seen : RunState} (turn : InTurn s) (shows : Shows s seen) :
    Answered s seen := by
  refine ⟨fun n here => ?_, fun n mode here => ?_⟩
  · have same := joinable_shown turn shows (n := n) (by rw [here]; exact id) (by rw [here]; exact id)
    rw [← same, Bool.eq_iff_iff, Instances.stop_answer, Instances.joinable_iff]
  · have same := joinable_shown turn shows (n := n) (by rw [here]; exact id) (by rw [here]; exact id)
    unfold RunState.runThread
    rw [same, shows.isRunning]
    cases s.isRunning <;> cases s.joinable <;> rfl

/-- The state that clients reach by taking turns is one that a history of whole calls reaches, with
the same answers. -/
theorem turns_covered (vectors : Vectors) {labels : List Label} {final : Control}
    (turns : machine.Meets TakesTurns (initial vectors) labels)
    (reached : machine.run (initial vectors) labels = some final) :
    ∃ history seen,
      Instances.machine.run (Instances.initial vectors.pipelines.length) history = some seen ∧
        Shows final seen ∧ Answered final seen := by
  obtain ⟨history, seen, ran, turn, shows⟩ := turns.follows machine
    (fun _ _ _ _ before allowed taken => step_covered before allowed taken)
    ⟨initial_inTurn vectors, initial_shows vectors⟩ reached
  exact ⟨history, seen, ran, shows, answered turn shows⟩

end VisionServer.Server.RunControl
