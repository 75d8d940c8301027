/-
This file follows the runner threads of `run` from their start to their join.
-/

import VisionServer.Server.Turns

namespace VisionServer.Server.RunControl
open Library

/-- A runner is live from its start to the return of its function. -/
def Pc.Live : Pc → Prop
  | .idle => False
  | .finished => False
  | _ => True

/-- These are the runners that a run function has started and not joined. -/
def Pc.Unjoined : Pc → Nat → Prop
  | .spawning k, i => i < k
  | .loop .run k, i => i < k
  | .joining next k, i => next ≤ i ∧ i < k
  | _, _ => False

/-- A run function has passed its checks and has not returned. -/
def Pc.InRun : Pc → Prop
  | .enter _ => True
  | .spawning _ => True
  | .loop _ _ => True
  | .joining _ _ => True
  | _ => False

/-- Each live runner belongs to a run function that has not joined it, and `head` is no thread
unless it is joinable. -/
structure Attended (s : Control) : Prop where
  runners : ∀ owner i, (s.pc (.runner owner i)).Live → (s.pc (.caller owner)).Unjoined i
  absent : s.joinable = false → s.pc head = .idle

/-- The processing threads of a position are the runners that were started for it and each caller in `runSingle`,
where any position can be selected. -/
def Drives (s : Control) : Thread → Nat → Prop
  | .runner owner index, i => index = i ∧ (s.pc (.runner owner index)).Live
  | .caller caller, _ => ∃ k, s.pc (.caller caller) = .loop .runSingle k

/-- No position of the pipelines is processed by two threads at once. A pipeline that stands at two positions has two
runners. -/
def OneDriver (s : Control) : Prop := ∀ t u i, Drives s t i → Drives s u i → t = u

/-- One caller is inside a run function at most. -/
def Single (s : Control) : Prop := ∀ t u, (s.pc t).InRun → (s.pc u).InRun → t = u

/-- A run function passes its last check only when no other caller is inside a run function. -/
def Serial (s : Control) : Label → Prop
  | .advance t =>
      match s.pc t with
      | .sized mode => s.Passes mode → ∀ u, u ≠ t → ¬ (s.pc u).InRun
      | _ => True
  | _ => True

theorem Pc.Unjoined.inRun {pc : Pc} {i : Nat} (unjoined : pc.Unjoined i) : pc.InRun := by
  cases pc with
  | spawning | loop | joining => exact trivial
  | _ => exact absurd unjoined id

theorem afterCall_not_inRun (t : Thread) : ¬ (Control.afterCall t).InRun := by
  rcases t with (_ | _) | _ <;> exact id

theorem entry_not_inRun (what : Call) : ¬ what.entry.InRun := by
  cases what <;> exact id

/-- A move goes into a run function at its last check. -/
theorem Move.inRun {s : Control} {t : Thread} {before after : Pc} (move : Move s t before after)
    (inside : after.InRun) : before.InRun ∨ ∃ mode, before = .sized mode ∧ s.Passes mode := by
  cases move with
  | sizedPasses mode passes => exact Or.inr ⟨mode, rfl, passes⟩
  | spawned | loopStopped | joins => exact Or.inl trivial
  | startRunning | sizedRefused | joined | registryRunning | changed | threadRunning | threadPresent
  | stopAbsent | stopJoined => exact absurd inside (afterCall_not_inRun t)
  | startStopped | registryStopped | threadStopped | threadAbsent | stopPresent | runnerRunning
  | runnerStopped | processed => exact absurd inside id

/-- A thread that moves is live. -/
theorem Move.live {s : Control} {t : Thread} {before after : Pc} (move : Move s t before after) :
    before.Live := by
  cases move <;> trivial

/-- A caller leaves a runner behind only when it has joined it. -/
theorem Move.unjoined {s : Control} {owner : Caller} {before after : Pc}
    (move : Move s (.caller owner) before after) {i : Nat} (live : (s.pc (.runner owner i)).Live)
    (unjoined : before.Unjoined i) : after.Unjoined i := by
  cases move with
  | spawned => exact unjoined
  | loopStopped mode k =>
      cases mode with
      | run => exact ⟨Nat.zero_le i, unjoined⟩
      | runSingle | runRaw => exact absurd unjoined id
  | joins _ index k same _ ended =>
      cases same
      obtain ⟨above, below⟩ := unjoined
      have other : index ≠ i := by
        rintro rfl
        rw [ended] at live
        exact live
      exact ⟨Nat.lt_of_le_of_ne above other, below⟩
  | joined _ index k _ last => exact absurd (Nat.lt_of_le_of_lt unjoined.1 unjoined.2) last
  | _ => exact absurd unjoined id

section Attendance

variable {s : Control} (attended : Attended s)
include attended

/-- A caller moves and leaves no live runner behind. -/
theorem Attended.goto_caller {owner : Caller} {pc : Pc}
    (keeps : ∀ i, (s.pc (.runner owner i)).Live → pc.Unjoined i)
    (absent : s.joinable = false → .caller owner ≠ head) : Attended (s.goto (.caller owner) pc) := by
  refine ⟨fun other i live => ?_, fun none => ?_⟩
  · rw [goto_pc_other Thread.noConfusion] at live
    by_cases same : other = owner
    · subst same
      rw [goto_pc_self]
      exact keeps i live
    · rw [goto_pc_other fun here => same (Thread.caller.inj here)]
      exact attended.runners other i live
  · rw [goto_pc_other (Ne.symm (absent none))]
    exact attended.absent none

/-- A runner moves while its owner has not joined it. -/
theorem Attended.goto_runner {owner : Caller} {i : Nat} {pc : Pc}
    (unjoined : (s.pc (.caller owner)).Unjoined i) : Attended (s.goto (.runner owner i) pc) := by
  refine ⟨fun other index live => ?_, fun none => ?_⟩
  · rw [goto_pc_other Thread.noConfusion]
    by_cases same : Thread.runner other index = .runner owner i
    · cases same
      exact unjoined
    · rw [goto_pc_other same] at live
      exact attended.runners other index live
  · rw [goto_pc_other Thread.noConfusion]
    exact attended.absent none

/-- A thread moves and leaves no live runner behind. -/
theorem Attended.goto {t : Thread} {pc : Pc} (moving : (s.pc t).Live)
    (keeps : ∀ owner i, t = .caller owner → (s.pc (.runner owner i)).Live →
      (s.pc t).Unjoined i → pc.Unjoined i) : Attended (s.goto t pc) := by
  cases t with
  | caller owner =>
      apply attended.goto_caller fun i live => keeps owner i rfl live (attended.runners owner i live)
      intro none same
      rw [same, attended.absent none] at moving
      exact moving
  | runner owner i => exact attended.goto_runner (attended.runners owner i moving)

/-- A thread outside the run functions has no live runner. -/
theorem Attended.goto_outside {t : Thread} {pc : Pc} (moving : (s.pc t).Live)
    (outside : ∀ i, ¬ (s.pc t).Unjoined i) : Attended (s.goto t pc) :=
  attended.goto moving fun _ i _ _ unjoined => absurd unjoined (outside i)

/-- The accesses join the live runners before they leave them. -/
theorem advance_attended {t : Thread} {next : Control} (taken : s.advance t = some next) :
    Attended next := by
  cases advance_access taken with
  | moves pc move =>
      refine attended.goto move.live fun owner i same live unjoined => ?_
      subst same
      exact move.unjoined live unjoined
  | enters mode here =>
      have set : Attended { s with isRunning := true } := ⟨attended.runners, attended.absent⟩
      exact set.goto_outside (by simp [here, Pc.Live]) (by simp [here, Pc.Unjoined])
  | loops => exact attended
  | spawnsRunner owner k same here =>
      subst same
      rw [goto_comm Thread.noConfusion]
      have counted : Attended (s.goto (.caller owner) (.spawning (k + 1))) := by
        refine attended.goto (by simp [here, Pc.Live]) fun _ i _ _ unjoined => ?_
        rw [here] at unjoined
        exact Nat.lt_succ_of_lt unjoined
      apply counted.goto_runner
      rw [goto_pc_self]
      exact Nat.lt_succ_self k
  | spawnsHead mode here none =>
      have idle := attended.absent none
      have set : Attended { s with joinable := true } := ⟨attended.runners, fun clear => by cases clear⟩
      have started : Attended ({ s with joinable := true }.goto head (.start mode)) := by
        apply set.goto_caller
        · intro i live
          have unjoined := attended.runners .head i live
          rw [show s.pc (.caller .head) = .idle from idle] at unjoined
          exact absurd unjoined id
        · intro clear
          cases clear
      have away : t ≠ head := by
        rintro rfl
        rw [idle] at here
        cases here
      have still : ({ s with joinable := true }.goto head (.start mode)).pc t = .threadSpawn mode := by
        rw [goto_pc_other away, here]
      exact started.goto_outside (by simp [still, Pc.Live]) (by simp [still, Pc.Unjoined])
  | stores here =>
      have set : Attended { s with isRunning := false } := ⟨attended.runners, attended.absent⟩
      exact set.goto_outside (by simp [here, Pc.Live]) (by simp [here, Pc.Unjoined])
  | joinsHead here present ended =>
      have free : Attended (s.goto head .idle) := by
        apply attended.goto_caller
        · intro i live
          have unjoined := attended.runners .head i live
          rw [show s.pc (.caller .head) = .finished from ended] at unjoined
          exact absurd unjoined id
        · intro clear
          rw [present] at clear
          cases clear
      have joined : Attended ({ s with joinable := false }.goto head .idle) :=
        ⟨free.runners, fun _ => goto_pc_self head .idle s⟩
      have away : t ≠ head := by
        rintro rfl
        rw [ended] at here
        cases here
      have still : ({ s with joinable := false }.goto head .idle).pc t = .stopJoin := by
        rw [goto_pc_other away, here]
      exact joined.goto_outside (by simp [still, Pc.Live]) (by simp [still, Pc.Unjoined])

theorem step_attended {label : Label} {next : Control} (taken : step s label = some next) :
    Attended next := by
  cases label with
  | call t what =>
      rcases t with (n | _) | ⟨owner, index⟩
      · simp only [step, Control.call, Option.ite_none_right_eq_some, Option.some.injEq] at taken
        obtain ⟨idle, rfl⟩ := taken
        refine attended.goto_caller (fun i live => ?_) fun _ => by simp [head]
        have unjoined := attended.runners _ i live
        rw [idle] at unjoined
        exact absurd unjoined id
      · simp [step, Control.call] at taken
      · cases what with
        | stop =>
            simp only [step, Control.call, Option.ite_none_right_eq_some, Option.some.injEq] at taken
            obtain ⟨processing, rfl⟩ := taken
            exact attended.goto_outside (by simp [processing, Pc.Live]) (by simp [processing, Pc.Unjoined])
        | run | runThread | registry => simp [step, Control.call] at taken
  | advance t => exact advance_attended attended taken
  | change t vectors =>
      simp only [step, Option.ite_none_right_eq_some, Option.some.injEq] at taken
      obtain ⟨_, rfl⟩ := taken
      exact ⟨attended.runners, attended.absent⟩

end Attendance

theorem attended_initial (vectors : Vectors) : Attended (initial vectors) :=
  ⟨fun _ _ live => absurd live id, fun _ => rfl⟩

/-- In every order of accesses, each live runner belongs to a run function that still joins it. -/
theorem always_attended (vectors : Vectors) (labels : List Label) :
    machine.Always Attended (initial vectors) labels :=
  machine.always_of_invariant (fun _ _ _ attended taken => step_attended attended taken)
    (attended_initial vectors) labels

section Exclusion

variable {s : Control} (single : Single s)
include single

theorem Single.goto {t : Thread} {pc : Pc}
    (allowed : pc.InRun → (s.pc t).InRun ∨ ∀ u, u ≠ t → ¬ (s.pc u).InRun) : Single (s.goto t pc) := by
  intro u v first second
  by_cases one : u = t
  · by_cases other : v = t
    · rw [one, other]
    · rw [one, goto_pc_self] at first
      rw [goto_pc_other other] at second
      rcases allowed first with inside | alone
      · exact one.trans (single t v inside second)
      · exact absurd second (alone v other)
  · rw [goto_pc_other one] at first
    by_cases other : v = t
    · rw [other, goto_pc_self] at second
      rcases allowed second with inside | alone
      · exact (single u t first inside).trans other.symm
      · exact absurd first (alone u one)
    · rw [goto_pc_other other] at second
      exact single u v first second

theorem Single.goto_outside {t : Thread} {pc : Pc} (outside : ¬ pc.InRun) : Single (s.goto t pc) :=
  single.goto fun inside => absurd inside outside

/-- The accesses keep the run functions apart when their last checks respect it. -/
theorem advance_single {t : Thread} {next : Control} (serial : Serial s (.advance t))
    (taken : s.advance t = some next) : Single next := by
  simp only [Serial] at serial
  cases advance_access taken with
  | moves pc move =>
      apply single.goto
      intro inside
      rcases move.inRun inside with same | ⟨mode, here, passes⟩
      · exact Or.inl same
      · rw [here] at serial
        exact Or.inr (serial passes)
  | enters mode here =>
      apply Single.goto (s := { s with isRunning := true }) single
      intro _
      left
      change (s.pc t).InRun
      rw [here]
      exact trivial
  | loops => exact single
  | spawnsRunner owner k same here =>
      have created : Single (s.goto (.runner owner k) .runner) := single.goto_outside id
      apply created.goto
      intro _
      left
      rw [goto_pc_other (by rw [same]; exact Thread.noConfusion), here]
      exact trivial
  | spawnsHead mode =>
      have started : Single ({ s with joinable := true }.goto head (.start mode)) :=
        Single.goto_outside (s := { s with joinable := true }) single id
      exact started.goto_outside (afterCall_not_inRun t)
  | stores => exact Single.goto_outside (s := { s with isRunning := false }) single id
  | joinsHead =>
      have joined : Single ({ s with joinable := false }.goto head .idle) :=
        Single.goto_outside (s := { s with joinable := false }) single id
      exact joined.goto_outside (afterCall_not_inRun t)

theorem step_single {label : Label} {next : Control} (serial : Serial s label)
    (taken : step s label = some next) : Single next := by
  cases label with
  | call t what =>
      rcases t with (n | _) | ⟨owner, index⟩
      · simp only [step, Control.call, Option.ite_none_right_eq_some, Option.some.injEq] at taken
        exact taken.2 ▸ single.goto_outside (entry_not_inRun what)
      · simp [step, Control.call] at taken
      · cases what with
        | stop =>
            simp only [step, Control.call, Option.ite_none_right_eq_some, Option.some.injEq] at taken
            exact taken.2 ▸ single.goto_outside id
        | run | runThread | registry => simp [step, Control.call] at taken
  | advance t => exact advance_single single serial taken
  | change t vectors =>
      simp only [step, Option.ite_none_right_eq_some, Option.some.injEq] at taken
      exact taken.2 ▸ single

end Exclusion

/-- The run function that a processing thread belongs to. -/
def owner : Thread → Caller
  | .caller caller => caller
  | .runner owner _ => owner

/-- A processing thread belongs to a run function that has not returned. -/
theorem Drives.inRun {s : Control} (attended : Attended s) {t : Thread} {i : Nat} (drives : Drives s t i) :
    (s.pc (.caller (owner t))).InRun := by
  cases t with
  | caller caller =>
      obtain ⟨k, looping⟩ := drives
      rw [owner, looping]
      exact trivial
  | runner caller index => exact (attended.runners caller index drives.2).inRun

/-- The loop of `runSingle` has no runners. -/
theorem not_live_of_runSingle {s : Control} (attended : Attended s) {caller : Caller} {k : Nat}
    (looping : s.pc (.caller caller) = .loop .runSingle k) (i : Nat) :
    ¬ (s.pc (.runner caller i)).Live := by
  intro live
  have unjoined := attended.runners caller i live
  rw [looping] at unjoined
  exact unjoined

theorem oneDriver_of_single {s : Control} (attended : Attended s) (single : Single s) : OneDriver s := by
  intro t u i first second
  have same : owner t = owner u :=
    Thread.caller.inj (single _ _ (first.inRun attended) (second.inRun attended))
  cases t with
  | caller caller =>
      obtain ⟨k, looping⟩ := first
      cases u with
      | caller other => exact congrArg Thread.caller same
      | runner other index =>
          cases same
          exact absurd second.2 (not_live_of_runSingle attended looping index)
  | runner caller index =>
      obtain ⟨rfl, live⟩ := first
      cases u with
      | caller other =>
          obtain ⟨k, looping⟩ := second
          cases same
          exact absurd live (not_live_of_runSingle attended looping index)
      | runner other number =>
          obtain ⟨rfl, _⟩ := second
          exact congrArg (Thread.runner · number) same

/-- In a run whose run functions pass their last checks one after the other returns, no position of the pipelines is
processed by two threads at once. -/
theorem always_oneDriver (vectors : Vectors) {labels : List Label}
    (serial : machine.Meets Serial (initial vectors) labels) :
    machine.Always OneDriver (initial vectors) labels := by
  have start : Attended (initial vectors) ∧ Single (initial vectors) :=
    ⟨attended_initial vectors, fun _ _ inside => absurd inside id⟩
  have kept : machine.Always (fun s => Attended s ∧ Single s) (initial vectors) labels := by
    apply Machine.Meets.always machine _ start serial
    rintro s label next ⟨attended, single⟩ allowed taken
    exact ⟨step_attended attended taken, step_single single allowed taken⟩
  apply Machine.Always.mono machine _ kept
  rintro s ⟨attended, single⟩
  exact oneDriver_of_single attended single

def onePipeline : Vectors := ⟨[], [.user 0], [], []⟩

/-- The runner of the first client ends before another client runs the same pipeline. -/
def runAfterJoin : List Label :=
  [.call (client 0) (.run .run), .advance (client 0), .advance (client 0), .advance (client 0),
    .advance (client 0), .advance (client 0), .call (client 1) .stop, .advance (client 1),
    .advance (.runner (.client 0) 0), .advance (client 0), .advance (client 0), .advance (client 0),
    .call (client 2) (.run .run), .advance (client 2), .advance (client 2), .advance (client 2),
    .advance (client 2)]

theorem runAfterJoin_oneDriver : machine.Always OneDriver (initial onePipeline) runAfterJoin := by
  apply always_oneDriver
  unfold runAfterJoin
  apply Machine.Meets.cons machine rfl trivial
  apply Machine.Meets.cons machine rfl trivial
  apply Machine.Meets.cons machine rfl
  · rintro _ (((_ | _) | _) | _) different inside
    · exact different rfl
    all_goals exact inside
  apply Machine.Meets.cons machine rfl trivial
  apply Machine.Meets.cons machine rfl trivial
  apply Machine.Meets.cons machine rfl trivial
  apply Machine.Meets.cons machine rfl trivial
  apply Machine.Meets.cons machine rfl trivial
  apply Machine.Meets.cons machine rfl trivial
  apply Machine.Meets.cons machine rfl trivial
  apply Machine.Meets.cons machine rfl trivial
  apply Machine.Meets.cons machine rfl trivial
  apply Machine.Meets.cons machine rfl trivial
  apply Machine.Meets.cons machine rfl trivial
  apply Machine.Meets.cons machine rfl
  · rintro _ (((_ | _ | _ | _) | _) | ⟨(_ | _) | _, _ | _⟩) different inside
    · exact inside
    · exact inside
    · exact different rfl
    all_goals exact inside
  apply Machine.Meets.cons machine rfl trivial
  apply Machine.Meets.cons machine rfl trivial
  exact trivial

/-- A stop request of another client returns while the runner is still in its `process()`. -/
def runBeforeJoin : List Label :=
  [.call (client 0) (.run .run), .advance (client 0), .advance (client 0), .advance (client 0),
    .advance (client 0), .advance (client 0), .advance (.runner (.client 0) 0),
    .call (client 1) .stop, .advance (client 1), .advance (client 0), .advance (client 1),
    .call (client 1) (.run .run), .advance (client 1), .advance (client 1), .advance (client 1),
    .advance (client 1)]

/-- It is not enough that the loops of the run functions exclude each other. -/
theorem runBeforeJoin_not_oneDriver : machine.Meets Exclusive (initial onePipeline) runBeforeJoin ∧
    ¬ machine.Always OneDriver (initial onePipeline) runBeforeJoin := by
  constructor
  · unfold runBeforeJoin
    apply Machine.Meets.cons machine rfl trivial
    apply Machine.Meets.cons machine rfl trivial
    apply Machine.Meets.cons machine rfl
    · rintro _ (((_ | _) | _) | _) different
      · exact absurd rfl different
      all_goals rfl
    apply Machine.Meets.cons machine rfl trivial
    apply Machine.Meets.cons machine rfl trivial
    apply Machine.Meets.cons machine rfl trivial
    apply Machine.Meets.cons machine rfl trivial
    apply Machine.Meets.cons machine rfl trivial
    apply Machine.Meets.cons machine rfl trivial
    apply Machine.Meets.cons machine rfl trivial
    apply Machine.Meets.cons machine rfl trivial
    apply Machine.Meets.cons machine rfl trivial
    apply Machine.Meets.cons machine rfl trivial
    apply Machine.Meets.cons machine rfl
    · rintro _ (((_ | _ | _) | _) | ⟨(_ | _) | _, _ | _⟩) different
      · rfl
      · exact absurd rfl different
      all_goals rfl
    apply Machine.Meets.cons machine rfl trivial
    apply Machine.Meets.cons machine rfl trivial
    exact trivial
  · intro always
    have last := Machine.Always.last machine always (show machine.run _ runBeforeJoin = some _ from rfl)
    have same := last (.runner (.client 0) 0) (.runner (.client 1) 0) 0 ⟨rfl, trivial⟩ ⟨rfl, trivial⟩
    exact absurd same (by decide)

end VisionServer.Server.RunControl
