/-
This file follows the entry `Status` of the server through the runs of its threads.
-/

import VisionServer.Server.Runners

namespace VisionServer.Server.RunControl
open Library

/-- These are the texts of the run functions. -/
def Mode.text : Mode → String
  | .run => "Running Multithreaded"
  | .runSingle => "Running Singlethreaded"
  | .runRaw => "Streaming Raw"

/-- An access waits for the write that stands before it. -/
def Pc.Awaited (written : Option Mode) : Pc → Prop
  | .enter .runRaw => written = some .runRaw
  | .spawning _ => written = some .run
  | .loop mode _ => written = some mode
  | .joining next k => next < k ∨ written = none
  | _ => True

instance (written : Option Mode) : (pc : Pc) → Decidable (pc.Awaited written)
  | .enter .runRaw => inferInstanceAs (Decidable (written = _))
  | .spawning _ => inferInstanceAs (Decidable (written = _))
  | .loop _ _ => inferInstanceAs (Decidable (written = _))
  | .joining _ _ => inferInstanceAs (Decidable (_ ∨ written = none))
  | .idle | .start _ | .sized _ | .enter .run | .enter .runSingle | .registry | .changing | .threadStart _
  | .threadCheck _ | .threadSpawn _ | .stopStore | .stopCheck | .stopJoin | .runner | .process | .finished =>
      isTrue trivial

/-- The text that a thread has written last is remembered until it has written "Offline" again. -/
structure Board where
  control : Control
  status : String
  written : Thread → Option Mode

namespace Board

def put (t : Thread) (mode : Option Mode) (s : Board) : Board :=
  { s with status := (mode.map Mode.text).getD "Offline", written := Function.update s.written t mode }

/-- The function `runRaw` writes its text before it stores the flag, and the others write theirs
after it. They write "Offline" when they have joined their runners. -/
def write (t : Thread) (s : Board) : Option Board :=
  match s.control.pc t, s.written t with
  | .enter .runRaw, none => some (s.put t (some .runRaw))
  | .spawning 0, none => some (s.put t (some .run))
  | .loop .runSingle _, none => some (s.put t (some .runSingle))
  | .joining next k, some _ => if next < k then none else some (s.put t none)
  | _, _ => none

end Board

inductive BoardLabel where
  | control (label : Label)
  | write (t : Thread)

def boardStep (s : Board) : BoardLabel → Option Board
  | .control (.advance t) =>
      if (s.control.pc t).Awaited (s.written t) then
        (s.control.advance t).map fun control => { s with control := control }
      else none
  | .control label => (step s.control label).map fun control => { s with control := control }
  | .write t => s.write t

def boardMachine : Machine Board BoardLabel := ⟨boardStep⟩

/-- The constructor of the server writes "Offline". -/
def boardInitial (vectors : Vectors) : Board := ⟨initial vectors, "Offline", fun _ => none⟩

/-- These are the accesses of a run function after its text is written. -/
def Pc.Shows : Pc → Mode → Prop
  | .enter given, mode => given = mode
  | .spawning _, mode => mode = .run
  | .loop given _, mode => given = mode
  | .joining _ _, _ => True
  | _, _ => False

/-- The runners and the loops of `run` and `runRaw` come after the write. -/
def Pc.Announced (written : Option Mode) : Pc → Prop
  | .spawning (_ + 1) => written = some .run
  | .loop .run _ => written = some .run
  | .loop .runRaw _ => written = some .runRaw
  | _ => True

/-- A text belongs to a thread inside the run function, and the entry shows one of these texts or
"Offline". -/
structure Accounted (s : Board) : Prop where
  attended : Attended s.control
  inside : ∀ t mode, s.written t = some mode → (s.control.pc t).Shows mode
  announced : ∀ t, (s.control.pc t).Announced (s.written t)
  shown : s.status = "Offline" ∨ ∃ t mode, s.written t = some mode ∧ s.status = mode.text

/-- The entry shows the text of each thread that has written one. -/
def Truthful (s : Board) : Prop := ∀ t mode, s.written t = some mode → s.status = mode.text

/-- The entry shows the run function of each loop, where `runSingle` writes its text at the start of
its loop. -/
def Tells (s : Board) : Prop :=
  ∀ t mode k, s.control.pc t = .loop mode k → (mode = .runSingle → s.written t ≠ none) → s.status = mode.text

/-- The run functions pass their last checks one after the other returns. -/
def BoardSerial (s : Board) : BoardLabel → Prop
  | .control label => Serial s.control label
  | .write _ => True

theorem Pc.Shows.inRun {pc : Pc} {mode : Mode} (shows : pc.Shows mode) : pc.InRun := by
  cases pc with
  | enter | spawning | loop | joining => exact trivial
  | _ => exact absurd shows id

theorem Pc.Shows.live {pc : Pc} {mode : Mode} (shows : pc.Shows mode) : pc.Live := by
  cases pc with
  | enter | spawning | loop | joining => exact trivial
  | _ => exact absurd shows id

/-- A move keeps a text that is written. -/
theorem Move.shows {s : Control} {t : Thread} {before after : Pc} (move : Move s t before after)
    {mode : Mode} (waits : before.Awaited (some mode)) (shows : before.Shows mode) : after.Shows mode := by
  cases move with
  | spawned => exact shows.symm
  | loopStopped | joins => exact trivial
  | joined _ index k _ last =>
      rcases waits with more | none
      · exact absurd more last
      · cases none
  | _ => exact absurd shows id

/-- The texts that are written belong to threads inside the run functions. -/
def Inside (written : Thread → Option Mode) (s : Control) : Prop :=
  ∀ t mode, written t = some mode → (s.pc t).Shows mode

section Texts

variable {written : Thread → Option Mode} {s : Control} (inside : Inside written s)
include inside

theorem Inside.goto {t : Thread} {pc : Pc} (shows : ∀ mode, written t = some mode → pc.Shows mode) :
    Inside written (s.goto t pc) :=
  goto_forall (motive := fun u pc => ∀ mode, written u = some mode → pc.Shows mode) shows
    fun u _ => inside u

/-- A thread outside the run functions has no text. -/
theorem Inside.goto_outside {t : Thread} {pc : Pc} (outside : ¬ (s.pc t).InRun) :
    Inside written (s.goto t pc) :=
  inside.goto fun mode text => absurd (inside t mode text).inRun outside

/-- The accesses keep the texts inside the run functions. -/
theorem advance_inside (attended : Attended s) {t : Thread} {next : Control}
    (waits : (s.pc t).Awaited (written t)) (taken : s.advance t = some next) : Inside written next := by
  cases advance_access taken with
  | moves pc move =>
      apply inside.goto
      intro mode text
      rw [text] at waits
      exact move.shows waits (inside t mode text)
  | enters mode here =>
      have set : Inside written { s with isRunning := true } := inside
      apply set.goto
      intro given text
      have shows := inside t given text
      rw [here] at shows
      obtain rfl : mode = given := shows
      by_cases runs : mode = .run
      · rw [if_pos runs]
        exact runs
      · rw [if_neg runs]
        exact rfl
  | loops => exact inside
  | spawnsRunner owner k same here =>
      subst same
      have fresh : ¬ (s.pc (.runner owner k)).Live := by
        intro live
        have unjoined := attended.runners owner k live
        rw [here] at unjoined
        exact Nat.lt_irrefl k unjoined
      have created : Inside written (s.goto (.runner owner k) .runner) :=
        inside.goto fun mode text => absurd (inside _ mode text).live fresh
      apply created.goto
      intro mode text
      have shows := inside _ mode text
      rw [here] at shows
      exact shows
  | spawnsHead mode here none =>
      have set : Inside written { s with joinable := true } := inside
      have started : Inside written ({ s with joinable := true }.goto head (.start mode)) := by
        apply set.goto_outside
        change ¬ (s.pc head).InRun
        rw [attended.absent none]
        exact id
      apply started.goto
      intro given text
      have shows := inside t given text
      rw [here] at shows
      exact absurd shows id
  | stores here =>
      have set : Inside written { s with isRunning := false } := inside
      apply set.goto_outside
      change ¬ (s.pc t).InRun
      rw [here]
      exact id
  | joinsHead here present ended =>
      have set : Inside written { s with joinable := false } := inside
      have joined : Inside written ({ s with joinable := false }.goto head .idle) := by
        apply set.goto_outside
        change ¬ (s.pc head).InRun
        rw [ended]
        exact id
      apply joined.goto
      intro given text
      have shows := inside t given text
      rw [here] at shows
      exact absurd shows id

theorem call_inside {t : Thread} {what : Call} {next : Control} (taken : s.call t what = some next) :
    Inside written next := by
  rcases t with (n | _) | ⟨owner, index⟩
  · simp only [Control.call, Option.ite_none_right_eq_some, Option.some.injEq] at taken
    obtain ⟨idle, rfl⟩ := taken
    exact inside.goto_outside (by rw [idle]; exact id)
  · simp [Control.call] at taken
  · cases what with
    | stop =>
        simp only [Control.call, Option.ite_none_right_eq_some, Option.some.injEq] at taken
        obtain ⟨processing, rfl⟩ := taken
        exact inside.goto_outside (by rw [processing]; exact id)
    | run | runThread | registry => simp [Control.call] at taken

end Texts

theorem afterCall_announced (t : Thread) (written : Option Mode) : (Control.afterCall t).Announced written := by
  rcases t with (_ | _) | _ <;> exact trivial

theorem entry_announced (what : Call) (written : Option Mode) : what.entry.Announced written := by
  cases what <;> exact trivial

/-- A move waits for the text that it needs. -/
theorem Move.announced {s : Control} {t : Thread} {before after : Pc} (move : Move s t before after)
    {written : Option Mode} (waits : before.Awaited written) : after.Announced written := by
  cases move with
  | spawned => exact waits
  | startRunning | sizedRefused | joined | registryRunning | changed | threadRunning | threadPresent
  | stopAbsent | stopJoined => exact afterCall_announced t written
  | _ => exact trivial

section Announcements

variable {written : Thread → Option Mode} {s : Control}
  (announced : ∀ t, (s.pc t).Announced (written t))
include announced

theorem announced_goto (t : Thread) (pc : Pc) (here : pc.Announced (written t)) (u : Thread) :
    ((s.goto t pc).pc u).Announced (written u) :=
  goto_forall (motive := fun u pc => pc.Announced (written u)) here (fun v _ => announced v) u

/-- The accesses wait for the texts that they need. -/
theorem advance_announced {t : Thread} {next : Control} (waits : (s.pc t).Awaited (written t))
    (taken : s.advance t = some next) (u : Thread) : (next.pc u).Announced (written u) := by
  cases advance_access taken with
  | moves pc move => exact announced_goto announced t pc (move.announced waits) u
  | enters mode here =>
      rw [here] at waits
      apply announced_goto (s := { s with isRunning := true }) announced t
      cases mode with
      | run | runSingle => exact trivial
      | runRaw => exact waits
  | loops => exact announced u
  | spawnsRunner owner k same here =>
      rw [here] at waits
      have created := announced_goto announced (.runner owner k) .runner trivial
      exact announced_goto created t (.spawning (k + 1)) waits u
  | spawnsHead mode =>
      have started := announced_goto (s := { s with joinable := true }) announced head
        (.start mode) trivial
      exact announced_goto started t _ (afterCall_announced t _) u
  | stores => exact announced_goto (s := { s with isRunning := false }) announced t .stopCheck trivial u
  | joinsHead =>
      have joined := announced_goto (s := { s with joinable := false }) announced head .idle trivial
      exact announced_goto joined t _ (afterCall_announced t _) u

theorem call_announced {t : Thread} {what : Call} {next : Control} (taken : s.call t what = some next)
    (u : Thread) : (next.pc u).Announced (written u) := by
  rcases t with (n | _) | ⟨owner, index⟩
  · simp only [Control.call, Option.ite_none_right_eq_some, Option.some.injEq] at taken
    exact taken.2 ▸ announced_goto announced _ _ (entry_announced what _) u
  · simp [Control.call] at taken
  · cases what with
    | stop =>
        simp only [Control.call, Option.ite_none_right_eq_some, Option.some.injEq] at taken
        exact taken.2 ▸ announced_goto announced (.runner owner index) .stopStore trivial u
    | run | runThread | registry => simp [Control.call] at taken

end Announcements

/-- A step of the board takes a step of the threads or writes the entry. -/
theorem boardStep_cases {s next : Board} {label : BoardLabel} (taken : boardStep s label = some next) :
    (∃ given control, label = .control given ∧ step s.control given = some control ∧
      next = { s with control := control } ∧
        ∀ t, given = .advance t → (s.control.pc t).Awaited (s.written t)) ∨
      ∃ t, label = .write t ∧ s.write t = some next := by
  cases label with
  | write t => exact Or.inr ⟨t, rfl, taken⟩
  | control given =>
      left
      cases given with
      | advance t =>
          obtain ⟨waits, taken⟩ := Option.ite_none_right_eq_some.mp taken
          obtain ⟨control, moved, same⟩ := Option.map_eq_some_iff.mp taken
          exact ⟨_, control, rfl, moved, same.symm, fun u here => Label.advance.inj here ▸ waits⟩
      | call t what =>
          obtain ⟨control, moved, same⟩ := Option.map_eq_some_iff.mp taken
          exact ⟨_, control, rfl, moved, same.symm, fun u here => by cases here⟩
      | change t vectors =>
          obtain ⟨control, moved, same⟩ := Option.map_eq_some_iff.mp taken
          exact ⟨_, control, rfl, moved, same.symm, fun u here => by cases here⟩

/-- A thread writes its text when it has none, and "Offline" when it has one. -/
theorem write_cases {s next : Board} {t : Thread} (taken : s.write t = some next) :
    (∃ mode, (s.control.pc t).Shows mode ∧ (s.control.pc t).Announced (some mode) ∧
        next = s.put t (some mode)) ∨
      (s.control.pc t).InRun ∧ (s.control.pc t).Announced none ∧ next = s.put t none := by
  unfold Board.write at taken
  split at taken
  next here none =>
    rw [here]
    exact Or.inl ⟨.runRaw, rfl, trivial, (Option.some.inj taken).symm⟩
  next here none =>
    rw [here]
    exact Or.inl ⟨.run, rfl, trivial, (Option.some.inj taken).symm⟩
  next here none =>
    rw [here]
    exact Or.inl ⟨.runSingle, rfl, trivial, (Option.some.inj taken).symm⟩
  next mode here text =>
    rw [here]
    obtain ⟨_, same⟩ := Option.ite_none_left_eq_some.mp taken
    exact Or.inr ⟨trivial, trivial, (Option.some.inj same).symm⟩
  next => cases taken

theorem put_written_self (t : Thread) (mode : Option Mode) (s : Board) : (s.put t mode).written t = mode :=
  Function.update_self ..

theorem put_written_other {t u : Thread} (different : u ≠ t) (mode : Option Mode) (s : Board) :
    (s.put t mode).written u = s.written u := Function.update_of_ne different ..

/-- A write keeps the texts inside the run functions. -/
theorem put_inside {s : Board} (inside : Inside s.written s.control) {t : Thread} {text : Option Mode}
    (shows : ∀ mode, text = some mode → (s.control.pc t).Shows mode) :
    Inside (s.put t text).written (s.put t text).control := by
  intro u mode written
  by_cases here : u = t
  · subst here
    rw [put_written_self] at written
    exact shows mode written
  · rw [put_written_other here] at written
    exact inside u mode written

/-- A write announces what the accesses after it need. -/
theorem put_announced {s : Board} (announced : ∀ t, (s.control.pc t).Announced (s.written t)) {t : Thread}
    {text : Option Mode} (here : (s.control.pc t).Announced text) (u : Thread) :
    ((s.put t text).control.pc u).Announced ((s.put t text).written u) := by
  by_cases same : u = t
  · subst same
    rw [put_written_self]
    exact here
  · rw [put_written_other same]
    exact announced u

theorem boardStep_accounted {s next : Board} {label : BoardLabel} (accounted : Accounted s)
    (taken : boardStep s label = some next) : Accounted next := by
  obtain ⟨attended, inside, announced, shown⟩ := accounted
  rcases boardStep_cases taken with ⟨given, control, _, moved, rfl, waits⟩ | ⟨t, _, written⟩
  · have after := step_attended attended moved
    cases given with
    | call t what => exact ⟨after, call_inside inside moved, call_announced announced moved, shown⟩
    | advance t =>
        exact ⟨after, advance_inside inside attended (waits t rfl) moved,
          advance_announced announced (waits t rfl) moved, shown⟩
    | change t vectors =>
        obtain ⟨_, same⟩ := Option.ite_none_right_eq_some.mp moved
        exact Option.some.inj same ▸ ⟨Option.some.inj same ▸ after, inside, announced, shown⟩
  · rcases write_cases written with ⟨mode, shows, here, rfl⟩ | ⟨_, here, rfl⟩
    · refine ⟨attended, put_inside inside fun given same => ?_, put_announced announced here,
        Or.inr ⟨t, mode, put_written_self .., rfl⟩⟩
      exact Option.some.inj same ▸ shows
    · refine ⟨attended, put_inside inside fun given same => ?_, put_announced announced here, Or.inl rfl⟩
      cases same

theorem boardInitial_accounted (vectors : Vectors) : Accounted (boardInitial vectors) :=
  ⟨attended_initial vectors, fun _ mode text => absurd text.symm (Option.some_ne_none mode), fun _ => trivial,
    Or.inl rfl⟩

/-- In every order of accesses, the entry shows "Offline" or the text of a run function that has not
returned. -/
theorem always_accounted (vectors : Vectors) (labels : List BoardLabel) :
    boardMachine.Always Accounted (boardInitial vectors) labels :=
  boardMachine.always_of_invariant (fun _ _ _ accounted taken => boardStep_accounted accounted taken)
    (boardInitial_accounted vectors) labels

/-- After the run functions have returned, the entry shows "Offline". -/
theorem Accounted.offline {s : Board} (accounted : Accounted s) (returned : ∀ t, ¬ (s.control.pc t).InRun) :
    s.status = "Offline" := by
  rcases accounted.shown with offline | ⟨t, mode, text, _⟩
  · exact offline
  · exact absurd (accounted.inside t mode text).inRun (returned t)

/-- A run function that is alone writes its own text. -/
theorem write_truthful {s next : Board} {t : Thread} (accounted : Accounted s) (single : Single s.control)
    (taken : s.write t = some next) : Truthful next := by
  have others (inRun : (s.control.pc t).InRun) (u : Thread) (mode : Mode) (text : s.written u = some mode) :
      u = t := single u t (accounted.inside u mode text).inRun inRun
  rcases write_cases taken with ⟨given, shows, _, rfl⟩ | ⟨inRun, _, rfl⟩
  · intro u mode written
    by_cases here : u = t
    · subst here
      rw [put_written_self] at written
      exact congrArg Mode.text (Option.some.inj written)
    · rw [put_written_other here] at written
      exact absurd (others shows.inRun u mode written) here
  · intro u mode written
    by_cases here : u = t
    · subst here
      rw [put_written_self] at written
      cases written
    · rw [put_written_other here] at written
      exact absurd (others inRun u mode written) here

/-- A loop has written its text. -/
theorem Accounted.tells {s : Board} (accounted : Accounted s) (truthful : Truthful s) : Tells s := by
  intro t mode k looping later
  have announced := accounted.announced t
  rw [looping] at announced
  cases mode with
  | run => exact truthful t .run announced
  | runRaw => exact truthful t .runRaw announced
  | runSingle =>
      obtain ⟨given, written⟩ := Option.ne_none_iff_exists'.mp (later rfl)
      have shows := accounted.inside t given written
      rw [looping] at shows
      obtain rfl : Mode.runSingle = given := shows
      exact truthful t .runSingle written

/-- In a run whose run functions pass their last checks one after the other returns, the entry shows
the run function of each loop. -/
theorem always_tells (vectors : Vectors) {labels : List BoardLabel}
    (serial : boardMachine.Meets BoardSerial (boardInitial vectors) labels) :
    boardMachine.Always Tells (boardInitial vectors) labels := by
  have start : Accounted (boardInitial vectors) ∧ Single (boardInitial vectors).control ∧
      Truthful (boardInitial vectors) := by
    refine ⟨boardInitial_accounted vectors, fun _ _ inRun => absurd inRun id, fun _ mode text => ?_⟩
    exact absurd text.symm (Option.some_ne_none mode)
  have kept : boardMachine.Always (fun s => Accounted s ∧ Single s.control ∧ Truthful s)
      (boardInitial vectors) labels := by
    apply Machine.Meets.always boardMachine _ start serial
    rintro s label next ⟨accounted, single, truthful⟩ allowed taken
    have after := boardStep_accounted accounted taken
    rcases boardStep_cases taken with ⟨given, control, rfl, moved, rfl, _⟩ | ⟨t, rfl, written⟩
    · exact ⟨after, step_single single allowed moved, truthful⟩
    · refine ⟨after, ?_, write_truthful accounted single written⟩
      rcases write_cases written with ⟨_, _, _, rfl⟩ | ⟨_, _, rfl⟩
      · exact single
      · exact single
  apply Machine.Always.mono boardMachine _ kept
  rintro s ⟨accounted, _, truthful⟩
  exact accounted.tells truthful

/-- A client streams after another one has returned. -/
def streamTwice : List BoardLabel :=
  [.control (.call (client 0) (.run .runRaw)), .control (.advance (client 0)),
    .control (.advance (client 0)), .write (client 0), .control (.advance (client 0)),
    .control (.call (client 1) .stop), .control (.advance (client 1)), .control (.advance (client 0)),
    .write (client 0), .control (.advance (client 0)), .control (.call (client 2) (.run .runRaw)),
    .control (.advance (client 2)), .control (.advance (client 2)), .write (client 2),
    .control (.advance (client 2))]

theorem streamTwice_tells : boardMachine.Always Tells (boardInitial ⟨[], [], [], []⟩) streamTwice := by
  apply always_tells
  unfold streamTwice
  apply Machine.Meets.cons boardMachine rfl trivial
  apply Machine.Meets.cons boardMachine rfl trivial
  apply Machine.Meets.cons boardMachine rfl
  · rintro _ (((_ | _) | _) | _) different inside
    · exact different rfl
    all_goals exact inside
  apply Machine.Meets.cons boardMachine rfl trivial
  apply Machine.Meets.cons boardMachine rfl trivial
  apply Machine.Meets.cons boardMachine rfl trivial
  apply Machine.Meets.cons boardMachine rfl trivial
  apply Machine.Meets.cons boardMachine rfl trivial
  apply Machine.Meets.cons boardMachine rfl trivial
  apply Machine.Meets.cons boardMachine rfl trivial
  apply Machine.Meets.cons boardMachine rfl trivial
  apply Machine.Meets.cons boardMachine rfl trivial
  apply Machine.Meets.cons boardMachine rfl
  · rintro _ (((_ | _ | _ | _) | _) | _) different inside
    · exact inside
    · exact inside
    · exact different rfl
    all_goals exact inside
  apply Machine.Meets.cons boardMachine rfl trivial
  apply Machine.Meets.cons boardMachine rfl trivial
  exact trivial

/-- The second client streams before the first one has written "Offline". -/
def streamBeforeReturn : List BoardLabel :=
  [.control (.call (client 0) (.run .runRaw)), .control (.advance (client 0)),
    .control (.advance (client 0)), .write (client 0), .control (.advance (client 0)),
    .control (.call (client 1) .stop), .control (.advance (client 1)), .control (.advance (client 0)),
    .control (.advance (client 1)), .control (.call (client 1) (.run .runRaw)),
    .control (.advance (client 1)), .control (.advance (client 1)), .write (client 1),
    .control (.advance (client 1)), .write (client 0)]

/-- A late "Offline" stands while the second client loops. -/
theorem streamBeforeReturn_not_tells :
    ¬ boardMachine.Always Tells (boardInitial ⟨[], [], [], []⟩) streamBeforeReturn := by
  intro always
  have last := Machine.Always.last boardMachine always
    (show boardMachine.run _ streamBeforeReturn = some _ from rfl)
  have text := last (client 1) .runRaw 0 rfl (by decide)
  exact absurd text (by decide)

end VisionServer.Server.RunControl
