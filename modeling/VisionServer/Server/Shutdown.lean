/-
This file bounds what the threads still do after the flag is cleared for good.
-/

import VisionServer.Library.Variants
import VisionServer.Server.Runners
import Mathlib.Data.Finset.Prod

namespace VisionServer.Server.RunControl
open Library

/-- A thread at this access can still set the flag or start `head`. -/
def Pc.MayStart : Pc → Prop
  | .start _ => True
  | .sized _ => True
  | .enter _ => True
  | .threadStart _ => True
  | .threadCheck _ => True
  | .threadSpawn _ => True
  | _ => False

/-- The flag is clear and no thread is on its way to set it. -/
structure Quiet (s : Control) : Prop where
  stopped : s.isRunning = false
  settled : ∀ t, ¬ (s.pc t).MayStart

/-- These are the runners that a run function has started. -/
def Pc.Started : Pc → Nat → Prop
  | .spawning k, i => i < k
  | .loop _ k, i => i < k
  | .joining _ k, i => i < k
  | _, _ => False

/-- A runner processes or stops the server. The thread `head` runs one run function. -/
def Pc.Of (pc : Pc) : Thread → Prop
  | .caller (.client _) => True
  | .caller .head => pc ≠ .stopStore ∧ pc ≠ .stopCheck ∧ pc ≠ .stopJoin
  | .runner _ _ => pc = .idle ∨ pc = .runner ∨ pc = .process ∨ pc = .finished ∨ pc = .stopStore ∨
      pc = .stopCheck ∨ pc = .stopJoin

/-- The started runners and a joinable `head` are threads. -/
structure Tracked (s : Control) : Prop where
  sides : ∀ t, (s.pc t).Of t
  started : ∀ owner i, (s.pc (.caller owner)).Started i → s.pc (.runner owner i) ≠ .idle
  present : s.joinable = true → s.pc head ≠ .idle

/-- These are the accesses that a thread makes at most once the flag stays clear, where each runner
makes one more. -/
def Pc.cost (pipelines : Nat) : Pc → Nat
  | .spawning k => 2 * (pipelines - k) + max k pipelines + 5
  | .loop _ k => k + 4
  | .joining next k => (k - next) + 3
  | .registry => 4
  | .changing => 3
  | .stopStore => 5
  | .stopCheck => 4
  | .stopJoin => 3
  | .process => 2
  | .runner => 1
  | _ => 0

/-- These are some callers with some of their runners. -/
def threadsOf (callers : Finset Caller) (count : Nat) : Finset Thread :=
  callers.image .caller ∪ (callers ×ˢ Finset.range count).image fun pair => .runner pair.1 pair.2

def costs (s : Control) (t : Thread) : Nat := (s.pc t).cost s.vectors.pipelines.length

/-- The accesses that are left to the threads of a caller. -/
def left (threads : Finset Thread) (s : Control) : Nat := work threads (costs s)

/-- The live threads are among these, and so are the runners of the pipelines. -/
structure Bounded (threads : Finset Thread) (s : Control) : Prop where
  live : ∀ t, (s.pc t).Live → t ∈ threads
  closed : ∀ owner i, Thread.caller owner ∈ threads → i < s.vectors.pipelines.length →
    Thread.runner owner i ∈ threads

theorem mem_threadsOf {callers : Finset Caller} {count : Nat} {t : Thread} :
    t ∈ threadsOf callers count ↔ owner t ∈ callers ∧ ∀ caller i, t = .runner caller i → i < count := by
  unfold threadsOf
  cases t with
  | caller caller => simp [owner]
  | runner caller i => simp [owner]

section Quiescence

variable {s : Control}

theorem Quiet.goto (quiet : Quiet s) {t : Thread} {pc : Pc} (settled : ¬ pc.MayStart) : Quiet (s.goto t pc) :=
  ⟨quiet.stopped, goto_forall (motive := fun _ pc => ¬ pc.MayStart) settled fun u _ => quiet.settled u⟩

theorem Quiet.ret (quiet : Quiet s) (t : Thread) : Quiet (s.ret t) :=
  quiet.goto (by rcases t with (_ | _) | _ <;> exact id)

variable {threads : Finset Thread}

/-- A live thread moves. -/
theorem Bounded.goto (bounded : Bounded threads s) {t : Thread} {pc : Pc} (member : pc.Live → t ∈ threads) :
    Bounded threads (s.goto t pc) :=
  ⟨fun u live => goto_forall (motive := fun u pc => pc.Live → u ∈ threads) member
    (fun v _ => bounded.live v) u live, bounded.closed⟩

end Quiescence

/-- A move starts no runner. -/
theorem Move.started {s : Control} {t : Thread} {before after : Pc} (move : Move s t before after) {i : Nat}
    (started : after.Started i) : before.Started i := by
  cases move with
  | spawned | loopStopped | joins => exact started
  | startRunning | sizedRefused | joined | registryRunning | changed | threadRunning | threadPresent
  | stopAbsent | stopJoined => rcases t with (_ | _) | _ <;> exact absurd started id
  | _ => exact absurd started id

theorem afterCall_of {t : Thread} : (Control.afterCall t).Of t := by
  rcases t with (_ | _) | _
  · exact trivial
  · exact ⟨Pc.noConfusion, Pc.noConfusion, Pc.noConfusion⟩
  · exact Or.inr (Or.inr (Or.inl rfl))

section Tracking

variable {s : Control} (tracked : Tracked s)
include tracked

/-- A thread moves and starts no runner that is no thread. -/
theorem Tracked.goto {t : Thread} {pc : Pc} (sides : pc.Of t)
    (started : ∀ owner i, t = .caller owner → pc.Started i → s.pc (.runner owner i) ≠ .idle)
    (busy : (∀ n, t ≠ client n) → pc ≠ .idle) : Tracked (s.goto t pc) := by
  refine ⟨goto_forall (motive := fun u pc => pc.Of u) sides fun u _ => tracked.sides u,
    fun owner i begun => ?_, fun joinable => ?_⟩
  · have threads : s.pc (.runner owner i) ≠ .idle := by
      by_cases here : .caller owner = t
      · rw [here, goto_pc_self] at begun
        exact started owner i here.symm begun
      · rw [goto_pc_other here] at begun
        exact tracked.started owner i begun
    by_cases moved : .runner owner i = t
    · rw [moved, goto_pc_self]
      exact busy fun n same => by cases moved.trans same
    · rw [goto_pc_other moved]
      exact threads
  · by_cases moved : head = t
    · rw [moved, goto_pc_self]
      exact busy fun n same => by cases moved.trans same
    · rw [goto_pc_other moved]
      exact tracked.present joinable

theorem Tracked.ret (t : Thread) : Tracked (s.ret t) := by
  apply tracked.goto afterCall_of
  · intro owner i same begun
    rcases t with (_ | _) | _ <;> exact absurd begun id
  · intro other
    rcases t with (n | _) | _
    · exact absurd rfl (other n)
    · exact Pc.noConfusion
    · exact Pc.noConfusion

end Tracking

/-- The live threads are some callers with some of their runners. -/
def Listed (s : Control) : Prop := ∃ callers count, ∀ t, (s.pc t).Live → t ∈ threadsOf callers count

section Listing

variable {s : Control} (listed : Listed s)
include listed

/-- One thread more is listed. -/
theorem Listed.goto (t : Thread) (pc : Pc) : Listed (s.goto t pc) := by
  obtain ⟨callers, count, live⟩ := listed
  have grown (u : Thread) (member : u = t ∨ u ∈ threadsOf callers count) (bound : Nat)
      (above : ∀ caller i, t = .runner caller i → i < bound) :
      u ∈ threadsOf (insert (owner t) callers) (max count bound) := by
    rw [mem_threadsOf]
    rcases member with rfl | member
    · exact ⟨Finset.mem_insert_self _ _, fun caller i same => lt_max_of_lt_right (above caller i same)⟩
    · obtain ⟨known, below⟩ := mem_threadsOf.mp member
      exact ⟨Finset.mem_insert_of_mem known, fun caller i same => lt_max_of_lt_left (below caller i same)⟩
  have exists_bound : ∃ bound, ∀ caller i, t = .runner caller i → i < bound := by
    cases t with
    | caller caller => exact ⟨0, fun _ _ same => by cases same⟩
    | runner caller i => exact ⟨i + 1, fun _ _ same => by cases same; exact Nat.lt_succ_self i⟩
  obtain ⟨bound, above⟩ := exists_bound
  refine ⟨insert (owner t) callers, max count bound, fun u alive => grown u ?_ bound above⟩
  by_cases here : u = t
  · exact Or.inl here
  · rw [goto_pc_other here] at alive
    exact Or.inr (live u alive)

end Listing

/-- The listed threads and the runners of the pipelines bound a state. -/
theorem Listed.bounded {s : Control} (listed : Listed s) : ∃ threads, Bounded threads s := by
  obtain ⟨callers, count, live⟩ := listed
  refine ⟨threadsOf callers (max count s.vectors.pipelines.length), fun t alive => ?_, fun caller i member below => ?_⟩
  · obtain ⟨known, few⟩ := mem_threadsOf.mp (live t alive)
    exact mem_threadsOf.mpr ⟨known, fun caller i same => lt_max_of_lt_left (few caller i same)⟩
  · refine mem_threadsOf.mpr ⟨(mem_threadsOf.mp member).1, fun _ _ same => ?_⟩
    cases same
    exact lt_max_of_lt_right below

end VisionServer.Server.RunControl
