/-
This file lists the accesses of the threads once, so that every invariant can be proved over them.
-/

import VisionServer.Server.RunControl

namespace VisionServer.Server.RunControl
open Control (afterCall)

/-- These are the accesses that only move their thread, with what they find. -/
inductive Move (s : Control) (t : Thread) : Pc → Pc → Prop where
  | startRunning (mode : Mode) (running : s.isRunning = true) : Move s t (.start mode) (afterCall t)
  | startStopped (mode : Mode) (stopped : s.isRunning = false) : Move s t (.start mode) (.sized mode)
  | sizedPasses (mode : Mode) (passes : s.Passes mode) : Move s t (.sized mode) (.enter mode)
  | sizedRefused (mode : Mode) (refused : ¬ s.Passes mode) : Move s t (.sized mode) (afterCall t)
  | spawned (owner : Caller) (k : Nat) (same : t = .caller owner)
      (last : ¬ k < s.vectors.pipelines.length) : Move s t (.spawning k) (.loop .run k)
  | loopStopped (mode : Mode) (k : Nat) (stopped : s.isRunning = false) :
      Move s t (.loop mode k) (.joining 0 k)
  | joins (owner : Caller) (index k : Nat) (same : t = .caller owner) (more : index < k)
      (ended : s.pc (.runner owner index) = .finished) :
      Move s t (.joining index k) (.joining (index + 1) k)
  | joined (owner : Caller) (index k : Nat) (same : t = .caller owner) (last : ¬ index < k) :
      Move s t (.joining index k) (afterCall t)
  | registryRunning (running : s.isRunning = true) : Move s t .registry (afterCall t)
  | registryStopped (stopped : s.isRunning = false) : Move s t .registry .changing
  | changed : Move s t .changing (afterCall t)
  | threadRunning (mode : Mode) (running : s.isRunning = true) : Move s t (.threadStart mode) (afterCall t)
  | threadStopped (mode : Mode) (stopped : s.isRunning = false) :
      Move s t (.threadStart mode) (.threadCheck mode)
  | threadPresent (mode : Mode) (present : s.joinable = true) : Move s t (.threadCheck mode) (afterCall t)
  | threadAbsent (mode : Mode) (absent : s.joinable = false) :
      Move s t (.threadCheck mode) (.threadSpawn mode)
  | stopPresent (present : s.joinable = true) : Move s t .stopCheck .stopJoin
  | stopAbsent (absent : s.joinable = false) : Move s t .stopCheck (afterCall t)
  | stopJoined (absent : s.joinable = false) : Move s t .stopJoin (afterCall t)
  | runnerRunning (running : s.isRunning = true) : Move s t .runner .process
  | runnerStopped (stopped : s.isRunning = false) : Move s t .runner .finished
  | processed : Move s t .process .runner

/-- These are all accesses of a thread. -/
inductive Access (s : Control) (t : Thread) : Control → Prop where
  | moves (pc : Pc) (move : Move s t (s.pc t) pc) : Access s t (s.goto t pc)
  | enters (mode : Mode) (here : s.pc t = .enter mode) : Access s t
      ({ s with isRunning := true }.goto t (if mode = Mode.run then .spawning 0 else .loop mode 0))
  | loops (mode : Mode) (k : Nat) (here : s.pc t = .loop mode k) (running : s.isRunning = true) :
      Access s t s
  | spawnsRunner (owner : Caller) (k : Nat) (same : t = .caller owner) (here : s.pc t = .spawning k)
      (more : k < s.vectors.pipelines.length) :
      Access s t ((s.goto (.runner owner k) .runner).goto t (.spawning (k + 1)))
  | spawnsHead (mode : Mode) (here : s.pc t = .threadSpawn mode) (absent : s.joinable = false) :
      Access s t (({ s with joinable := true }.goto head (.start mode)).ret t)
  | stores (here : s.pc t = .stopStore) : Access s t ({ s with isRunning := false }.goto t .stopCheck)
  | joinsHead (here : s.pc t = .stopJoin) (present : s.joinable = true)
      (ended : s.pc head = .finished) :
      Access s t (({ s with joinable := false }.goto head .idle).ret t)

/-- A thread moves from the access that it is at. -/
theorem Access.of_move {s : Control} {t : Thread} {before pc : Pc} (here : s.pc t = before)
    (move : Move s t before pc) : Access s t (s.goto t pc) := .moves pc (here ▸ move)

/-- A thread reads a flag and moves accordingly. -/
theorem Access.of_flag {s : Control} {t : Thread} {before : Pc} (here : s.pc t = before) {flag : Bool}
    {set clear : Pc} (moveSet : flag = true → Move s t before set)
    (moveClear : flag = false → Move s t before clear) :
    Access s t (if flag then s.goto t set else s.goto t clear) := by
  cases flag with
  | true => exact .of_move here (moveSet rfl)
  | false => exact .of_move here (moveClear rfl)

/-- An access is one of these. -/
theorem advance_access {s next : Control} {t : Thread} (taken : s.advance t = some next) :
    Access s t next := by
  unfold Control.advance at taken
  cases here : s.pc t with
  | idle | finished => simp [here] at taken
  | start mode =>
      simp only [here, Option.some.injEq] at taken
      exact taken ▸ .of_flag here (.startRunning mode) (.startStopped mode)
  | sized mode =>
      simp only [here, Option.some.injEq] at taken
      subst taken
      by_cases passes : s.Passes mode
      · rw [if_pos passes]
        exact .of_move here (.sizedPasses mode passes)
      · rw [if_neg passes]
        exact .of_move here (.sizedRefused mode passes)
  | enter mode =>
      simp only [here, Option.some.injEq] at taken
      exact taken ▸ .enters mode here
  | spawning k =>
      simp only [here] at taken
      cases t with
      | runner owner index => cases taken
      | caller owner =>
          dsimp only at taken
          by_cases more : k < s.vectors.pipelines.length
          · rw [if_pos more] at taken
            exact Option.some.inj taken ▸ .spawnsRunner owner k rfl here more
          · rw [if_neg more] at taken
            exact Option.some.inj taken ▸ .of_move here (.spawned owner k rfl more)
  | loop mode k =>
      simp only [here, Option.some.injEq] at taken
      subst taken
      by_cases running : s.isRunning = true
      · rw [if_pos running]
        exact .loops mode k here running
      · rw [if_neg running]
        exact .of_move here (.loopStopped mode k (eq_false_of_ne_true running))
  | joining index k =>
      simp only [here] at taken
      cases t with
      | runner owner index => cases taken
      | caller owner =>
          dsimp only at taken
          by_cases more : index < k
          · rw [if_pos more, Option.ite_none_right_eq_some, Option.some.injEq] at taken
            exact taken.2 ▸ .of_move here (.joins owner index k rfl more taken.1)
          · rw [if_neg more] at taken
            exact Option.some.inj taken ▸ .of_move here (.joined owner index k rfl more)
  | registry =>
      simp only [here, Option.some.injEq] at taken
      exact taken ▸ .of_flag here .registryRunning .registryStopped
  | changing =>
      simp only [here, Option.some.injEq] at taken
      exact taken ▸ .of_move here .changed
  | threadStart mode =>
      simp only [here, Option.some.injEq] at taken
      exact taken ▸ .of_flag here (.threadRunning mode) (.threadStopped mode)
  | threadCheck mode =>
      simp only [here, Option.some.injEq] at taken
      exact taken ▸ .of_flag here (.threadPresent mode) (.threadAbsent mode)
  | threadSpawn mode =>
      simp only [here] at taken
      by_cases present : s.joinable = true
      · rw [if_pos present] at taken
        cases taken
      · rw [if_neg present] at taken
        exact Option.some.inj taken ▸ .spawnsHead mode here (eq_false_of_ne_true present)
  | stopStore =>
      simp only [here, Option.some.injEq] at taken
      exact taken ▸ .stores here
  | stopCheck =>
      simp only [here, Option.some.injEq] at taken
      exact taken ▸ .of_flag here .stopPresent .stopAbsent
  | stopJoin =>
      simp only [here] at taken
      by_cases present : s.joinable = true
      · rw [if_pos present, Option.ite_none_right_eq_some, Option.some.injEq] at taken
        exact taken.2 ▸ .joinsHead here present taken.1
      · rw [if_neg present] at taken
        exact Option.some.inj taken ▸ .of_move here (.stopJoined (eq_false_of_ne_true present))
  | runner =>
      simp only [here, Option.some.injEq] at taken
      subst taken
      by_cases running : s.isRunning = true
      · rw [if_pos running]
        exact .of_move here (.runnerRunning running)
      · rw [if_neg running]
        exact .of_move here (.runnerStopped (eq_false_of_ne_true running))
  | process =>
      simp only [here, Option.some.injEq] at taken
      exact taken ▸ .of_move here .processed

end VisionServer.Server.RunControl
