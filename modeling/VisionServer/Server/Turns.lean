/-
This file follows clients that call the run functions one after the other.
-/

import VisionServer.Server.Stopping

namespace VisionServer.Server.RunControl
open Library

/-- No call is on its way at this access. -/
def Pc.AtRest : Pc → Prop
  | .idle | .loop _ _ | .joining _ _ | .runner | .process | .finished => True
  | _ => False

/-- The clients call the run functions and `stop` one after the other. A started loop reaches its
body, or its thread ends, before the next call. -/
def TakesTurns (s : Control) : Label → Prop
  | .call t what => (∃ n, t = client n) ∧ what ≠ .registry ∧ ∀ u, (s.pc u).AtRest
  | .advance _ => True
  | .change _ _ => False

/-- Each kind of thread has its own accesses. -/
def Pc.Fits (pc : Pc) : Thread → Prop
  | .caller (.client _) =>
      pc ≠ .registry ∧ pc ≠ .changing ∧ pc ≠ .runner ∧ pc ≠ .process ∧ pc ≠ .finished
  | .caller .head => pc = .idle ∨ (∃ mode, pc = .start mode) ∨ (∃ mode, pc = .sized mode) ∨
      (∃ mode, pc = .enter mode) ∨ (∃ k, pc = .spawning k) ∨ (∃ mode k, pc = .loop mode k) ∨
      (∃ index k, pc = .joining index k) ∨ pc = .finished
  | .runner _ _ => pc = .idle ∨ pc = .runner ∨ pc = .process ∨ pc = .finished

@[simp] theorem fits_client (pc : Pc) (n : Nat) : pc.Fits (client n) ↔
    pc ≠ .registry ∧ pc ≠ .changing ∧ pc ≠ .runner ∧ pc ≠ .process ∧ pc ≠ .finished := Iff.rfl

@[simp] theorem fits_head (pc : Pc) : pc.Fits head ↔ pc = .idle ∨ (∃ mode, pc = .start mode) ∨
    (∃ mode, pc = .sized mode) ∨ (∃ mode, pc = .enter mode) ∨ (∃ k, pc = .spawning k) ∨
    (∃ mode k, pc = .loop mode k) ∨ (∃ index k, pc = .joining index k) ∨ pc = .finished := Iff.rfl

/-- A thread has found the flag as false, and a pipeline for a processing run. -/
def Found (s : Control) (t : Thread) : Pc → Prop
  | .start _ => t = head → s.isRunning = false
  | .sized _ => s.isRunning = false
  | .enter mode => s.isRunning = false ∧ s.Passes mode
  | .threadCheck _ => s.isRunning = false
  | .threadSpawn _ => s.isRunning = false
  | _ => True

/-- One call is on its way at most. A loop of `head` ends only for a stop request. -/
structure InTurn (s : Control) : Prop where
  fits : ∀ t, (s.pc t).Fits t
  alone : ∀ t u, ¬ (s.pc t).AtRest → u ≠ t → (s.pc u).AtRest
  found : ∀ t, Found s t (s.pc t)
  joinable : s.joinable = false ↔ s.pc head = .idle
  starting : ¬ (s.pc head).AtRest → ∃ n, s.pc (client n) = .idle
  looping : (s.pc head).Entered → s.isRunning = true ∨ ∃ n, (s.pc (client n)).PastStore
  leaving : ∀ index k, s.pc head = .joining index k → ∃ n, (s.pc (client n)).PastStore

theorem Pc.AtRest.found {pc : Pc} (rest : pc.AtRest) (s : Control) (t : Thread) : Found s t pc := by
  cases pc <;> first
    | exact trivial
    | exact absurd rest id

theorem Pc.AtRest.not_past {pc : Pc} (rest : pc.AtRest) : ¬ pc.PastStore := by
  cases pc <;> first
    | exact id
    | exact absurd rest id

/-- A move stays among the accesses of its thread. -/
theorem Move.fits {s : Control} {t : Thread} {before after : Pc} (move : Move s t before after)
    (fits : before.Fits t) : after.Fits t := by
  rcases t with (n | _) | ⟨owner, index⟩ <;> cases move <;> simp_all [Pc.Fits, Control.afterCall]

/-- Only a client starts, stops or joins `head`. -/
theorem Pc.Fits.eq_client {t : Thread} {pc : Pc} (fits : pc.Fits t)
    (calls : (∃ mode, pc = .threadSpawn mode) ∨ pc = .stopStore ∨ pc = .stopJoin) :
    ∃ n, t = client n := by
  rcases t with (n | _) | ⟨owner, index⟩ <;> rcases calls with ⟨mode, rfl⟩ | rfl | rfl <;>
    simp_all [Pc.Fits, client]

/-- A move knows what its thread has found. -/
theorem Move.found {s : Control} {t : Thread} {before after : Pc} (move : Move s t before after)
    (found : Found s t before) : Found s t after := by
  cases move with
  | startStopped mode stopped => exact stopped
  | sizedPasses mode passes => exact ⟨found, passes⟩
  | threadStopped mode stopped => exact stopped
  | threadAbsent mode absent => exact found
  | startRunning | sizedRefused | joined | registryRunning | changed | threadRunning | threadPresent
  | stopAbsent | stopJoined => rcases t with (_ | _) | _ <;> exact trivial
  | _ => exact trivial

theorem client_ne_head (n : Nat) : client n ≠ head := by simp [client, head]

theorem head_ne_client (n : Nat) : head ≠ client n := by simp [client, head]

theorem client_ne_client {n m : Nat} (different : n ≠ m) : client n ≠ client m := by
  simp [client, different]

/-- Two threads can move in any order. -/
theorem goto_comm {t u : Thread} (different : t ≠ u) (a b : Pc) (s : Control) :
    (s.goto t a).goto u b = (s.goto u b).goto t a := by
  unfold Control.goto
  dsimp only
  rw [Function.update_comm different]

/-- Only the thread whose call is on its way can have stored the flag for a stop request. -/
theorem not_past_of_others {s : Control} {t : Thread} (others : ∀ u, u ≠ t → (s.pc u).AtRest)
    (here : ¬ (s.pc t).PastStore) (n : Nat) : ¬ (s.pc (client n)).PastStore := by
  by_cases same : client n = t
  · rw [same]
    exact here
  · exact (others (client n) same).not_past

/-- The thread that makes an access is the only one with a call on its way. -/
theorem alone_of_others {s : Control} {t : Thread} (others : ∀ u, u ≠ t → (s.pc u).AtRest) (pc : Pc)
    (v u : Thread) (busy : ¬ ((s.goto t pc).pc v).AtRest) (different : u ≠ v) :
    ((s.goto t pc).pc u).AtRest := by
  by_cases moved : v = t
  · rw [goto_pc_other (moved ▸ different)]
    exact others u (moved ▸ different)
  · rw [goto_pc_other moved] at busy
    exact absurd (others v moved) busy

section Turns

variable {s : Control} (turn : InTurn s)
include turn

/-- A thread that has no call on its way any more leaves the turn to the others. -/
theorem InTurn.alone_of_rest {t : Thread} {pc : Pc} (after : pc.AtRest) (v u : Thread)
    (busy : ¬ ((s.goto t pc).pc v).AtRest) (different : u ≠ v) : ((s.goto t pc).pc u).AtRest := by
  have away : v ≠ t := fun moved => busy (by rw [moved, goto_pc_self]; exact after)
  rw [goto_pc_other away] at busy
  by_cases here : u = t
  · rw [here, goto_pc_self]
    exact after
  · rw [goto_pc_other here]
    exact turn.alone v u busy different

/-- A client whose call is on its way makes an access. -/
theorem InTurn.goto_client {n : Nat} {pc : Pc} (flag : Bool)
    (others : ∀ u, u ≠ client n → (s.pc u).AtRest) (fits : pc.Fits (client n))
    (found : Found { s with isRunning := flag } (client n) pc)
    (past : (s.pc (client n)).PastStore → pc.PastStore ∨ s.pc head = .idle)
    (stored : s.isRunning = true → flag = true ∨ pc.PastStore) :
    InTurn ({ s with isRunning := flag }.goto (client n) pc) := by
  have headKept : ({ s with isRunning := flag }.goto (client n) pc).pc head = s.pc head :=
    goto_pc_other (head_ne_client n) pc { s with isRunning := flag }
  have stops (m : Nat) (before : (s.pc (client m)).PastStore) : pc.PastStore ∨ s.pc head = .idle := by
    by_cases same : client m = client n
    · exact past (same ▸ before)
    · exact absurd before (others (client m) same).not_past
  have shown (after : pc.PastStore) :
      ∃ m, (({ s with isRunning := flag }.goto (client n) pc).pc (client m)).PastStore :=
    ⟨n, by rw [goto_pc_self]; exact after⟩
  refine ⟨?_, ?_, ?_, ?_, fun busy => ?_, fun entered => ?_, fun index k joining => ?_⟩
  · exact goto_forall (motive := fun u pc => pc.Fits u) fits fun u _ => turn.fits u
  · exact alone_of_others (s := { s with isRunning := flag }) others pc
  · exact goto_forall (motive := Found { s with isRunning := flag }) found
      fun u away => (others u away).found _ u
  · rw [headKept]
    exact turn.joinable
  · rw [headKept] at busy
    exact absurd (others head (head_ne_client n)) busy
  · rw [headKept] at entered
    rcases turn.looping entered with running | ⟨m, before⟩
    · rcases stored running with kept | after
      · exact Or.inl kept
      · exact Or.inr (shown after)
    · rcases stops m before with after | idle
      · exact Or.inr (shown after)
      · rw [idle] at entered
        exact absurd entered id
  · rw [headKept] at joining
    obtain ⟨m, before⟩ := turn.leaving index k joining
    rcases stops m before with after | idle
    · exact shown after
    · rw [idle] at joining
      cases joining

/-- The thread `head` makes an access before its loop. -/
theorem InTurn.goto_head {pc : Pc} (flag : Bool) (busy : ¬ (s.pc head).AtRest) (fits : pc.Fits head)
    (found : Found { s with isRunning := flag } head pc) (present : pc ≠ .idle)
    (looping : pc.Entered → flag = true) (staying : ∀ index k, pc ≠ .joining index k) :
    InTurn ({ s with isRunning := flag }.goto head pc) := by
  have others (u : Thread) (away : u ≠ head) : (s.pc u).AtRest := turn.alone head u busy away
  refine ⟨?_, ?_, ?_, ?_, fun _ => ?_, fun entered => ?_, fun index k joining => ?_⟩
  · exact goto_forall (motive := fun u pc => pc.Fits u) fits fun u _ => turn.fits u
  · exact alone_of_others (s := { s with isRunning := flag }) others pc
  · exact goto_forall (motive := Found { s with isRunning := flag }) found
      fun u away => (others u away).found _ u
  · have before : s.pc head ≠ .idle := fun idle => busy (by rw [idle]; exact trivial)
    rw [goto_pc_self]
    exact iff_of_false (fun absent => before (turn.joinable.mp absent)) present
  · obtain ⟨n, idle⟩ := turn.starting busy
    exact ⟨n, by rw [goto_pc_other (client_ne_head n)]; exact idle⟩
  · rw [goto_pc_self] at entered
    exact Or.inl (looping entered)
  · rw [goto_pc_self] at joining
    exact absurd joining (staying index k)

/-- Before its decision `head` is alone, and no stop request is on its way. -/
theorem InTurn.no_stop (busy : ¬ (s.pc head).AtRest) (n : Nat) : ¬ (s.pc (client n)).PastStore :=
  (turn.alone head (client n) busy (client_ne_head n)).not_past

/-- A thread other than `head` goes on while no call of its own is on its way. -/
theorem InTurn.goto_resting {t : Thread} (pc : Pc) (other : t ≠ head) (before : (s.pc t).AtRest)
    (after : pc.AtRest) (fits : pc.Fits t) (busy : ∀ n, t = client n → s.pc t ≠ .idle) :
    InTurn (s.goto t pc) := by
  have headKept : (s.goto t pc).pc head = s.pc head := goto_pc_other (Ne.symm other) pc s
  have stops (given : ∃ n, (s.pc (client n)).PastStore) :
      ∃ n, ((s.goto t pc).pc (client n)).PastStore := by
    obtain ⟨n, past⟩ := given
    have different : client n ≠ t := fun same => before.not_past (same ▸ past)
    exact ⟨n, by rw [goto_pc_other different]; exact past⟩
  refine ⟨?_, turn.alone_of_rest after, ?_, ?_, fun starts => ?_, fun entered => ?_,
    fun index k joining => ?_⟩
  · exact goto_forall (motive := fun u pc => pc.Fits u) fits fun u _ => turn.fits u
  · exact goto_forall (motive := Found s) (after.found s t) fun u _ => turn.found u
  · rw [headKept]
    exact turn.joinable
  · rw [headKept] at starts
    obtain ⟨n, idle⟩ := turn.starting starts
    have different : client n ≠ t := fun same => busy n same.symm (same ▸ idle)
    exact ⟨n, by rw [goto_pc_other different]; exact idle⟩
  · rw [headKept] at entered
    exact (turn.looping entered).imp_right stops
  · rw [headKept] at joining
    exact stops (turn.leaving index k joining)

/-- A started `head` leaves its loop while a stop request waits for it. -/
theorem InTurn.goto_leaving {pc : Pc} (present : s.pc head ≠ .idle) (after : pc.AtRest)
    (fits : pc.Fits head) (stays : pc ≠ .idle) (past : ∃ n, (s.pc (client n)).PastStore) :
    InTurn (s.goto head pc) := by
  have stops : ∃ n, ((s.goto head pc).pc (client n)).PastStore := by
    obtain ⟨n, stored⟩ := past
    exact ⟨n, by rw [goto_pc_other (client_ne_head n)]; exact stored⟩
  refine ⟨?_, turn.alone_of_rest after, ?_, ?_, fun busy => ?_, fun _ => Or.inr stops,
    fun _ _ _ => stops⟩
  · exact goto_forall (motive := fun u pc => pc.Fits u) fits fun u _ => turn.fits u
  · exact goto_forall (motive := Found s) (after.found s head) fun u _ => turn.found u
  · rw [goto_pc_self]
    exact iff_of_false (fun absent => present (turn.joinable.mp absent)) stays
  · rw [goto_pc_self] at busy
    exact absurd after busy

/-- A joined `head` is gone. -/
theorem InTurn.join_head : InTurn ({ s with joinable := false }.goto head .idle) := by
  refine ⟨?_, ?_, ?_, ?_, fun busy => ?_, fun entered => ?_, fun index k joining => ?_⟩
  · exact goto_forall (motive := fun u pc => pc.Fits u) (Or.inl rfl) fun u _ => turn.fits u
  · exact turn.alone_of_rest trivial
  · exact goto_forall (motive := Found { s with joinable := false }) trivial
      fun u _ => turn.found u
  · exact iff_of_true rfl (goto_pc_self ..)
  · rw [goto_pc_self] at busy
    exact absurd trivial busy
  · rw [goto_pc_self] at entered
    exact absurd entered id
  · rw [goto_pc_self] at joining
    cases joining

/-- A thread variant gives the turn to the new `head`. -/
theorem InTurn.start_head {n : Nat} (rest : ∀ u, (s.pc u).AtRest) (idle : s.pc (client n) = .idle)
    (stopped : s.isRunning = false) (mode : Mode) :
    InTurn ({ s with joinable := true }.goto head (.start mode)) := by
  refine ⟨?_, ?_, ?_, ?_, fun _ => ?_, fun entered => ?_, fun index k joining => ?_⟩
  · exact goto_forall (motive := fun u pc => pc.Fits u) (Or.inr (Or.inl ⟨mode, rfl⟩))
      fun u _ => turn.fits u
  · exact alone_of_others (s := { s with joinable := true }) (fun u _ => rest u) (.start mode)
  · exact goto_forall (motive := Found { s with joinable := true }) (fun _ => stopped)
      fun u _ => (rest u).found _ u
  · rw [goto_pc_self]
    exact iff_of_false Bool.noConfusion Pc.noConfusion
  · exact ⟨n, by rw [goto_pc_other (client_ne_head n)]; exact idle⟩
  · rw [goto_pc_self] at entered
    exact absurd entered id
  · rw [goto_pc_self] at joining
    cases joining

end Turns

theorem initial_inTurn (vectors : Vectors) : InTurn (initial vectors) := by
  refine ⟨fun t => ?_, fun _ _ _ _ => trivial, fun _ => trivial, iff_of_true rfl rfl,
    fun busy => absurd trivial busy, fun entered => absurd entered id, fun _ _ => Pc.noConfusion⟩
  rcases t with (_ | _) | _ <;> simp [initial, Pc.Fits]

end VisionServer.Server.RunControl
