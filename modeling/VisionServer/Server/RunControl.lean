/-
This file models the threads that start and stop the server, one access to the running flag at a
time.
-/

import VisionServer.Library.Machine
import VisionServer.Library.SharedLock
import VisionServer.Server.Registry

namespace VisionServer.Server.RunControl
open Library

inductive Mode where
  | run
  | runSingle
  | runRaw
deriving DecidableEq

/-- A run function is executed by a client thread or by the thread `head`. -/
inductive Caller where
  | client (n : Nat)
  | head
deriving DecidableEq

/-- The function `run` starts a runner thread for each pipeline. -/
inductive Thread where
  | caller (caller : Caller)
  | runner (owner : Caller) (index : Nat)
deriving DecidableEq

def client (n : Nat) : Thread := .caller (.client n)

def head : Thread := .caller .head

/-- These are the vectors that the registry operations change. -/
structure Vectors where
  cameras : List Nat
  pipelines : List BasePipe
  heapAllocated : List BasePipe
  streams : List OutputStream
deriving DecidableEq

/-- A program counter names the next access of a thread. -/
inductive Pc where
  | idle
  -- a run function reads the flag, reads the number of pipelines and stores the flag
  | start (mode : Mode)
  | sized (mode : Mode)
  | enter (mode : Mode)
  -- it starts its runners, loops while it reads the flag as set and joins its runners
  | spawning (runners : Nat)
  | loop (mode : Mode) (runners : Nat)
  | joining (next runners : Nat)
  -- a registry operation reads the flag and changes the vectors
  | registry
  | changing
  -- a thread variant reads the flag, asks for `head.joinable()` and assigns `head`
  | threadStart (mode : Mode)
  | threadCheck (mode : Mode)
  | threadSpawn (mode : Mode)
  -- `stop` stores the flag, asks for `head.joinable()` and joins `head`
  | stopStore
  | stopCheck
  | stopJoin
  -- a runner reads the flag before each `process()`
  | runner
  | process
  | finished
deriving DecidableEq

structure Control where
  isRunning : Bool
  vectors : Vectors
  joinable : Bool
  pc : Thread → Pc

inductive Call where
  | run (mode : Mode)
  | runThread (mode : Mode)
  | stop
  | registry

def Call.entry : Call → Pc
  | .run mode => .start mode
  | .runThread mode => .threadStart mode
  | .stop => .stopStore
  | .registry => .registry

namespace Control

def goto (t : Thread) (pc : Pc) (s : Control) : Control :=
  { s with pc := Function.update s.pc t pc }

/-- A client returns to its own code, a runner to its `process()`, and `head` ends. -/
def afterCall : Thread → Pc
  | .caller (.client _) => .idle
  | .caller .head => .finished
  | .runner _ _ => .process

def ret (t : Thread) (s : Control) : Control := s.goto t (afterCall t)

/-- The processing runs need a pipeline. -/
def Passes (s : Control) (mode : Mode) : Prop := mode = .runRaw ∨ s.vectors.pipelines ≠ []

instance (s : Control) (mode : Mode) : Decidable (s.Passes mode) :=
  inferInstanceAs (Decidable (_ ∨ _))

/-- A thread makes its next access. -/
def advance (t : Thread) (s : Control) : Option Control :=
  match s.pc t with
  | .idle => none
  | .start mode => some (if s.isRunning then s.ret t else s.goto t (.sized mode))
  | .sized mode => some (if s.Passes mode then s.goto t (.enter mode) else s.ret t)
  | .enter mode =>
      let s := { s with isRunning := true }
      some (s.goto t (if mode = .run then .spawning 0 else .loop mode 0))
  | .spawning k =>
      match t with
      | .caller owner =>
          if k < s.vectors.pipelines.length then
            some ((s.goto (.runner owner k) .runner).goto t (.spawning (k + 1)))
          else some (s.goto t (.loop .run k))
      | .runner _ _ => none
  | .loop _ k => some (if s.isRunning then s else s.goto t (.joining 0 k))
  | .joining next k =>
      match t with
      | .caller owner =>
          if next < k then
            if s.pc (.runner owner next) = .finished then some (s.goto t (.joining (next + 1) k))
            else none
          else some (s.ret t)
      | .runner _ _ => none
  | .registry => some (if s.isRunning then s.ret t else s.goto t .changing)
  | .changing => some (s.ret t)
  | .threadStart mode => some (if s.isRunning then s.ret t else s.goto t (.threadCheck mode))
  | .threadCheck mode => some (if s.joinable then s.ret t else s.goto t (.threadSpawn mode))
  | .threadSpawn mode =>
      -- the new thread is assigned to `head` before its first access, and an assignment to a joinable thread ends the
      -- program
      if s.joinable then none
      else some (({ s with joinable := true }.goto head (.start mode)).ret t)
  | .stopStore => some ({ s with isRunning := false }.goto t .stopCheck)
  | .stopCheck => some (if s.joinable then s.goto t .stopJoin else s.ret t)
  | .stopJoin =>
      if s.joinable then
        if s.pc head = .finished then some (({ s with joinable := false }.goto head .idle).ret t)
        else none
      -- another call has joined the thread, so `join` throws and this call ends as well
      else some (s.ret t)
  | .runner => some (s.goto t (if s.isRunning then .process else .finished))
  | .process => some (s.goto t .runner)
  | .finished => none

/-- A client calls any function. A pipeline can call `stop` in its `process()`. -/
def call (t : Thread) (what : Call) (s : Control) : Option Control :=
  match t, what with
  | .caller (.client _), _ => if s.pc t = .idle then some (s.goto t what.entry) else none
  | .runner _ _, .stop => if s.pc t = .process then some (s.goto t .stopStore) else none
  | _, _ => none

end Control

/-- A registry operation can change the vectors several times before it returns. -/
inductive Label where
  | call (t : Thread) (what : Call)
  | advance (t : Thread)
  | change (t : Thread) (vectors : Vectors)

def step (s : Control) : Label → Option Control
  | .call t what => s.call t what
  | .advance t => s.advance t
  | .change t vectors => if s.pc t = .changing then some { s with vectors := vectors } else none

def machine : Machine Control Label := ⟨step⟩

/-- No thread has called a function yet. -/
def initial (vectors : Vectors) : Control := ⟨false, vectors, false, fun _ => .idle⟩

@[simp] theorem goto_pc_self (t : Thread) (pc : Pc) (s : Control) : (s.goto t pc).pc t = pc :=
  Function.update_self ..

@[simp] theorem goto_pc_other {t u : Thread} (different : u ≠ t) (pc : Pc) (s : Control) :
    (s.goto t pc).pc u = s.pc u := Function.update_of_ne different ..

/-- What holds of the other threads and of the new access holds of all threads. -/
theorem goto_forall {motive : Thread → Pc → Prop} {t : Thread} {pc : Pc} {s : Control}
    (here : motive t pc) (others : ∀ u, u ≠ t → motive u (s.pc u)) (u : Thread) :
    motive u ((s.goto t pc).pc u) := by
  by_cases same : u = t
  · rw [same, goto_pc_self]
    exact here
  · rw [goto_pc_other same]
    exact others u same

end VisionServer.Server.RunControl
