/-
This file decides when the getters of a camera show the settings of the hardware.
-/

import Mathlib.Data.List.Induction
import VisionServer.Camera.Controls
import VisionServer.Library.Machine

namespace VisionServer.Camera.Controls
open Library

/-- The network knows these numeric types. -/
inductive NumericType where
  | integer
  | double
  | float
deriving DecidableEq

/-- A value of each type can hold the integer. -/
def NumericType.value : NumericType → Int → Value
  | .integer, val => .integer val
  | .double, val => .double (.finite val)
  | .float, val => .float (.finite val)

/-- A remote client gives a control any value of an `int` but `-1`. -/
structure Update where
  control : Control
  type : NumericType
  val : Int
  int : IsInt val
  unmarked : val ≠ -1

/-- An update is an event of the topic of its control. -/
def Update.event (topics : Topics) (update : Update) : Event :=
  .value (topics.handle update.control) (update.type.value update.val)

/-- The delivered updates wait for the listener in order. A local setter is in progress between its
private setter and its publication, and holds the value that it publishes. -/
structure State where
  camera : VisionCamera (Control → Setting)
  pending : List Update
  calling : Option (Control × Int)

/-- The local calls follow each other. The network and the listener act at any time. -/
inductive Action where
  | call (control : Control) (val : Int)
  | publish
  | remote (update : Update)
  | handle

/-- An entry holds the last value of its topic, and a remote client writes to it as well. -/
def machine (topics : Topics) : Machine State Action where
  step state action :=
    match action with
    | .call control val =>
        match state.calling with
        | some _ => none
        | none => some { state with
            camera := state.camera.issue SourceCall.perform (privateSet control val).1
            calling := some (control, (privateSet control val).2) }
    | .publish =>
        state.calling.map fun call =>
          { state with camera := state.camera.publish call.1 call.2, calling := none }
    | .remote update => some { state with
        camera := state.camera.publish update.control update.val
        pending := state.pending ++ [update] }
    | .handle =>
        match state.pending with
        | [] => none
        | update :: rest =>
            (state.camera.listener SourceCall.perform topics (update.event topics)).map fun camera =>
              { state with camera := camera, pending := rest }

/-- The listener starts after the first settings. -/
def initial (camera : VisionCamera (Control → Setting)) : State :=
  ⟨camera.setNetworkAdjustable SourceCall.perform, [], none⟩

/-- All delivered updates are handled and no setter is in progress. -/
structure State.Quiet (state : State) : Prop where
  handled : state.pending = []
  returned : state.calling = none

/-- A negative value shows the automatic mode. -/
def shown (value : Int) : Setting := if value < 0 then .auto else .manual value

/-- The getters return what the hardware has, in the documented ranges. -/
structure Agrees (camera : VisionCamera (Control → Setting)) : Prop where
  brightness : shown camera.getBrightness = camera.hardware .brightness
  exposure : shown camera.getExposure = camera.hardware .exposure
  whiteBalance : shown camera.getWhiteBalance = camera.hardware .whiteBalance
  brightnessRange : 0 ≤ camera.getBrightness ∧ camera.getBrightness ≤ 100
  exposureRange : camera.getExposure ≤ 100

/-- These steps only finish what has begun. -/
def Action.Finishes : Action → Prop
  | .publish | .handle => True
  | .call _ _ | .remote _ => False

/-- The getters agree with the hardware as soon as everything delivered is handled. -/
def Settles (topics : Topics) (state : State) : Prop :=
  ∀ labels final, (∀ label ∈ labels, label.Finishes) →
    (machine topics).run state labels = some final → final.Quiet → Agrees final.camera

/-- This is the setting that a private setter gives to its control. -/
def applied (control : Control) (val : Int) : Setting := (privateSet control val).1.setting

/-- These values are not clamped. -/
def InRange : Control → Int → Prop
  | .brightness, val => 0 ≤ val ∧ val ≤ 100
  | .exposure, val => val ≤ 100
  | .whiteBalance, _ => True

/-- This is the last update of the control. -/
def latest (control : Control) (updates : List Update) : Option Update :=
  (updates.filter fun update => update.control = control).getLast?

/-- A call needs the setting of the last update that waits for the listener. An update needs the setting
of the call in progress, and a value that is not clamped if there is no such call. -/
def Careful (state : State) : Action → Prop
  | .call control val =>
      ∀ update, latest control state.pending = some update → applied control update.val = applied control val
  | .remote update =>
      match state.calling with
      | some (control, value) =>
          if control = update.control then shown value = applied update.control update.val
          else InRange update.control update.val
      | none => InRange update.control update.val
  | .publish | .handle => True

/-- The private setter of a control changes this control of the hardware. -/
theorem perform_privateSet (control : Control) (val : Int) (hardware : Control → Setting) :
    (privateSet control val).1.perform hardware =
      Function.update hardware control (applied control val) := by
  rw [SourceCall.perform, privateSet_control, applied]

/-- The brightness is clamped on both sides. -/
theorem applied_brightness (val : Int) :
    applied .brightness val = .manual (if val > 100 then 100 else if val < 0 then 0 else val) := rfl

/-- The exposure is clamped above. -/
theorem applied_exposure (val : Int) :
    applied .exposure val = if val < 0 then .auto else .manual (if val > 100 then 100 else val) := by
  simp only [applied, privateSet, privateSetExposure, apply_ite SourceCall.setting]
  grind [SourceCall.setting]

/-- The white balance is not clamped. -/
theorem applied_whiteBalance (val : Int) : applied .whiteBalance val = shown val := by
  simp only [applied, privateSet, privateSetWhiteBalance, apply_ite SourceCall.setting]
  rfl

/-- What a private setter returns shows what it applies. -/
theorem shown_result (control : Control) (val : Int) :
    shown (privateSet control val).2 = applied control val := by
  cases control with
  | brightness =>
      rw [applied_brightness]
      exact if_neg (by simp only [privateSet, privateSetBrightness]; grind)
  | exposure =>
      rw [applied_exposure]
      simp only [shown, privateSet, privateSetExposure]
      grind
  | whiteBalance => rw [applied_whiteBalance, privateSet, privateSetWhiteBalance]

/-- A value shows what its setter applies where it is not clamped. -/
theorem shown_eq_applied_iff {control : Control} {val : Int} :
    shown val = applied control val ↔ InRange control val := by
  cases control with
  | brightness =>
      rw [applied_brightness]
      grind [shown, InRange]
  | exposure =>
      rw [applied_exposure]
      grind [shown, InRange]
  | whiteBalance => exact iff_of_true (applied_whiteBalance val).symm trivial

/-- A setting that a setter applies is shown only by a value in the range. -/
theorem inRange_of_shown {control : Control} {value val : Int} (same : shown value = applied control val) :
    InRange control value := by
  cases control with
  | brightness =>
      rw [applied_brightness] at same
      grind [shown, InRange]
  | exposure =>
      rw [applied_exposure] at same
      grind [shown, InRange]
  | whiteBalance => trivial

/-- The listener issues the call of the private setter for an update. -/
theorem listener_update (topics : Topics) (update : Update) (camera : VisionCamera (Control → Setting)) :
    camera.listener SourceCall.perform topics (update.event topics) =
      some (camera.issue SourceCall.perform (privateSet update.control update.val).1) := by
  have truncated : (update.type.value update.val).truncated = some update.val := by
    cases update.type <;> simp [NumericType.value, Value.truncated]
  have converted := Value.toInt_common truncated update.int
  rw [Update.event, VisionCamera.listener_of_int _ _ _ _ converted update.int, if_neg update.unmarked]

/-- The waiting updates reach the hardware in order. -/
def settle (updates : List Update) (hardware : Control → Setting) : Control → Setting :=
  updates.foldl (fun hardware update => (privateSet update.control update.val).1.perform hardware) hardware

/-- The last update of a control decides its setting. -/
theorem settle_apply (updates : List Update) (hardware : Control → Setting) (control : Control) :
    settle updates hardware control =
      ((latest control updates).map fun update => applied control update.val).getD (hardware control) := by
  induction updates using List.reverseRec with
  | nil => rfl
  | append_singleton updates update ih =>
      rw [settle, List.foldl_concat, perform_privateSet, latest, List.filter_append,
        List.getLast?_append]
      by_cases same : update.control = control
      · subst same
        simp
      · have other := Function.update_of_ne (Ne.symm same) (applied update.control update.val)
          (settle updates hardware)
        simp only [settle] at other ih
        simp [same, other, ih, latest]

namespace State

/-- The entries will have these values when the setter in progress has returned. -/
def settledEntry (state : State) : Control → Int :=
  match state.calling with
  | some (control, value) => Function.update state.camera.entry control value
  | none => state.camera.entry

def settledHardware (state : State) : Control → Setting := settle state.pending state.camera.hardware

/-- The entries show the hardware after everything is finished. -/
def Settled (state : State) : Prop :=
  ∀ control, shown (state.settledEntry control) = state.settledHardware control

/-- A setter gave each control of the hardware its setting. -/
def Clamped (state : State) : Prop :=
  ∀ control, ∃ val, state.camera.hardware control = applied control val

end State

section Steps

variable {topics : Topics} {state next : State}

theorem step_call {control : Control} {val : Int}
    (taken : (machine topics).step state (.call control val) = some next) :
    state.calling = none ∧ next = { state with
      camera := state.camera.issue SourceCall.perform (privateSet control val).1
      calling := some (control, (privateSet control val).2) } := by
  cases calling : state.calling with
  | some call => simp [machine, calling] at taken
  | none =>
      simp only [machine, calling, Option.some.injEq] at taken
      exact ⟨rfl, taken.symm⟩

theorem step_publish (taken : (machine topics).step state .publish = some next) :
    ∃ control value, state.calling = some (control, value) ∧
      next = { state with camera := state.camera.publish control value, calling := none } := by
  obtain ⟨call, calling, moved⟩ := Option.map_eq_some_iff.mp taken
  exact ⟨call.1, call.2, calling, moved.symm⟩

theorem step_remote {update : Update}
    (taken : (machine topics).step state (.remote update) = some next) :
    next = { state with
      camera := state.camera.publish update.control update.val
      pending := state.pending ++ [update] } :=
  (Option.some.inj taken).symm

/-- The listener takes the first waiting update. -/
theorem handle_cons (topics : Topics) (camera : VisionCamera (Control → Setting)) (update : Update)
    (rest : List Update) (calling : Option (Control × Int)) :
    (machine topics).step ⟨camera, update :: rest, calling⟩ .handle =
      some ⟨camera.issue SourceCall.perform (privateSet update.control update.val).1, rest, calling⟩ := by
  simp only [machine, listener_update, Option.map_some]

theorem step_handle (taken : (machine topics).step state .handle = some next) :
    ∃ update rest, state.pending = update :: rest ∧ next = { state with
      camera := state.camera.issue SourceCall.perform (privateSet update.control update.val).1
      pending := rest } := by
  obtain ⟨camera, pending, calling⟩ := state
  cases pending with
  | nil => nomatch taken
  | cons update rest =>
      rw [handle_cons, Option.some.injEq] at taken
      exact ⟨update, rest, rfl, taken.symm⟩

/-- The hardware keeps settings that a setter gave. -/
theorem clamped_step {action : Action} (clamped : state.Clamped)
    (taken : (machine topics).step state action = some next) : next.Clamped := by
  have issued (control : Control) (val : Int) (other : Control) :
      ∃ given, (privateSet control val).1.perform state.camera.hardware other = applied other given := by
    rw [perform_privateSet]
    by_cases same : other = control
    · subst same
      exact ⟨val, Function.update_self ..⟩
    · rw [Function.update_of_ne same]
      exact clamped other
  cases action with
  | call control val =>
      obtain ⟨-, rfl⟩ := step_call taken
      exact issued control val
  | publish =>
      obtain ⟨control, value, -, rfl⟩ := step_publish taken
      exact clamped
  | remote update =>
      rw [step_remote taken]
      exact clamped
  | handle =>
      obtain ⟨update, rest, -, rfl⟩ := step_handle taken
      exact issued update.control update.val

/-- The finishing steps change nothing that they lead to. -/
theorem settled_finish {action : Action} (finishes : action.Finishes)
    (taken : (machine topics).step state action = some next) :
    next.settledEntry = state.settledEntry ∧ next.settledHardware = state.settledHardware := by
  cases action with
  | publish =>
      obtain ⟨control, value, calling, rfl⟩ := step_publish taken
      simp [State.settledEntry, State.settledHardware, calling]
  | handle =>
      obtain ⟨update, rest, pending, rfl⟩ := step_handle taken
      simp [State.settledEntry, State.settledHardware, pending, settle]
  | call | remote => exact finishes.elim

/-- A call keeps the entries and the hardware together exactly where no later update undoes it. -/
theorem settled_call {control : Control} {val : Int} (settled : state.Settled)
    (taken : (machine topics).step state (.call control val) = some next) :
    next.Settled ↔ Careful state (.call control val) := by
  obtain ⟨calling, rfl⟩ := step_call taken
  have hardware (other : Control) : settle state.pending
      (Function.update state.camera.hardware control (applied control val)) other =
        if other = control then
          ((latest control state.pending).map fun update => applied control update.val).getD
            (applied control val)
        else settle state.pending state.camera.hardware other := by
    rw [settle_apply, settle_apply]
    split
    · next same => rw [same, Function.update_self]
    · next differ => rw [Function.update_of_ne differ]
  simp only [State.Settled, State.settledEntry, State.settledHardware, VisionCamera.issue_hardware,
    VisionCamera.issue_entry, perform_privateSet, hardware, Careful]
  constructor
  · intro after update last
    have here := after control
    rw [Function.update_self, if_pos rfl, shown_result, last] at here
    exact here.symm
  · intro careful other
    by_cases same : other = control
    · subst same
      rw [Function.update_self, if_pos rfl, shown_result]
      cases last : latest other state.pending with
      | none => rfl
      | some update => exact (careful update last).symm
    · rw [Function.update_of_ne same, if_neg same]
      have before := settled other
      rw [State.settledEntry, calling] at before
      exact before

/-- An update reaches the entry of its control unless a setter of this control is in progress. -/
theorem settledEntry_remote (state : State) (update : Update) (other : Control) :
    ({ state with
      camera := state.camera.publish update.control update.val
      pending := state.pending ++ [update] } : State).settledEntry other =
      if other = update.control then
        match state.calling with
        | some (control, value) => if control = update.control then value else update.val
        | none => update.val
      else state.settledEntry other := by
  unfold State.settledEntry
  cases state.calling with
  | none => exact Function.update_apply ..
  | some call =>
      simp only [VisionCamera.publish_entry, Function.update_apply]
      grind

/-- An update keeps them together exactly where nothing clamps it or publishes over it. -/
theorem settled_remote {update : Update} (settled : state.Settled)
    (taken : (machine topics).step state (.remote update) = some next) :
    next.Settled ↔ Careful state (.remote update) := by
  have hardware (other : Control) : next.settledHardware other =
      if other = update.control then applied update.control update.val
      else state.settledHardware other := by
    rw [step_remote taken, State.settledHardware, settle, List.foldl_concat, perform_privateSet,
      Function.update_apply]
    rfl
  have entry (other : Control) := settledEntry_remote state update other
  rw [← step_remote taken] at entry
  have here : next.Settled ↔ shown (next.settledEntry update.control) = applied update.control update.val := by
    constructor
    · intro after
      rw [after update.control, hardware, if_pos rfl]
    · intro same other
      rw [hardware]
      split
      · next equal => rw [equal, same]
      · next differ => rw [entry, if_neg differ, settled other]
  rw [here, entry, if_pos rfl, Careful]
  cases state.calling with
  | none => exact shown_eq_applied_iff
  | some call =>
      dsimp only
      split
      · exact Iff.rfl
      · exact shown_eq_applied_iff

/-- One step keeps the entries and the hardware together exactly where it is careful. -/
theorem settled_step {action : Action} (settled : state.Settled)
    (taken : (machine topics).step state action = some next) :
    next.Settled ↔ Careful state action := by
  cases action with
  | call control val => exact settled_call settled taken
  | remote update => exact settled_remote settled taken
  | publish | handle =>
      obtain ⟨entry, hardware⟩ := settled_finish (by trivial) taken
      refine iff_of_true (fun control => ?_) trivial
      rw [entry, hardware]
      exact settled control

/-- In a quiet state the getters agree with the hardware exactly where it has settled. -/
theorem agrees_iff_settled (quiet : state.Quiet) (clamped : state.Clamped) :
    Agrees state.camera ↔ state.Settled := by
  have settled : state.Settled ↔
      ∀ control, shown (state.camera.entry control) = state.camera.hardware control := by
    simp only [State.Settled, State.settledEntry, State.settledHardware, quiet.handled, quiet.returned,
      settle, List.foldl_nil]
  rw [settled]
  constructor
  · intro agrees control
    cases control with
    | brightness => exact agrees.brightness
    | exposure => exact agrees.exposure
    | whiteBalance => exact agrees.whiteBalance
  · intro same
    have range (control : Control) : InRange control (state.camera.entry control) := by
      obtain ⟨val, given⟩ := clamped control
      exact inRange_of_shown ((same control).trans given)
    exact ⟨same .brightness, same .exposure, same .whiteBalance, range .brightness, range .exposure⟩

/-- The finishing steps of a run change nothing that they lead to. -/
theorem settled_run {labels : List Action} {final : State} (clamped : state.Clamped)
    (finishes : ∀ label ∈ labels, label.Finishes)
    (reached : (machine topics).run state labels = some final) :
    final.Clamped ∧ (final.Settled ↔ state.Settled) := by
  induction labels generalizing state with
  | nil =>
      obtain rfl : state = final := Option.some.inj reached
      exact ⟨clamped, Iff.rfl⟩
  | cons label rest ih =>
      obtain ⟨next, taken, tail⟩ := Option.bind_eq_some_iff.mp reached
      obtain ⟨entry, hardware⟩ := settled_finish (finishes label List.mem_cons_self) taken
      have later := ih (clamped_step clamped taken)
        (fun other member => finishes other (List.mem_cons_of_mem _ member)) tail
      rw [State.Settled, State.Settled, entry, hardware] at later
      exact later

/-- The waiting updates can be handled and the setter in progress can return. -/
theorem exists_quiet (topics : Topics) (state : State) : ∃ labels final,
    (∀ label ∈ labels, label.Finishes) ∧ (machine topics).run state labels = some final ∧
      final.Quiet := by
  obtain ⟨camera, pending, calling⟩ := state
  induction pending generalizing camera with
  | nil =>
      cases calling with
      | none => exact ⟨[], _, by simp, rfl, rfl, rfl⟩
      | some call => exact ⟨[.publish], _, by simp [Action.Finishes], rfl, rfl, rfl⟩
  | cons update rest ih =>
      obtain ⟨labels, final, finishes, reached, quiet⟩ :=
        ih (camera.issue SourceCall.perform (privateSet update.control update.val).1)
      refine ⟨.handle :: labels, final, by simpa [Action.Finishes] using finishes, ?_, quiet⟩
      rw [Machine.run_cons, handle_cons, Option.bind_some]
      exact reached

/-- What finishes agrees exactly where it has settled. -/
theorem settles_iff_settled (clamped : state.Clamped) : Settles topics state ↔ state.Settled := by
  constructor
  · intro settles
    obtain ⟨labels, final, finishes, reached, quiet⟩ := exists_quiet topics state
    obtain ⟨bounded, same⟩ := settled_run clamped finishes reached
    have agrees := settles labels final finishes reached quiet
    exact same.mp ((agrees_iff_settled quiet bounded).mp agrees)
  · intro settled labels final finishes reached quiet
    obtain ⟨bounded, same⟩ := settled_run clamped finishes reached
    exact (agrees_iff_settled quiet bounded).mpr (same.mpr settled)

end Steps

section Initial

variable (camera : VisionCamera (Control → Setting))

theorem initial_settled : (initial camera).Settled := by
  intro control
  cases control <;> rfl

theorem initial_clamped : (initial camera).Clamped := by
  intro control
  cases control with
  | brightness => exact ⟨50, rfl⟩
  | exposure => exact ⟨-1, rfl⟩
  | whiteBalance => exact ⟨-1, rfl⟩

end Initial

/-- Everything delivered leads to agreement in each state of a run exactly where each step is careful.
The getters then agree with the hardware in each quiet state of the run. -/
theorem settles_iff_careful (topics : Topics) (camera : VisionCamera (Control → Setting))
    (labels : List Action) :
    ((machine topics).Always (Settles topics) (initial camera) labels ↔
      (machine topics).Meets Careful (initial camera) labels) ∧
    ((machine topics).Meets Careful (initial camera) labels →
      (machine topics).Always (fun state => state.Quiet → Agrees state.camera) (initial camera) labels) := by
  have exact_step : (machine topics).Always (Settles topics) (initial camera) labels ↔
      (machine topics).Meets Careful (initial camera) labels := by
    have start : Settles topics (initial camera) :=
      (settles_iff_settled (initial_clamped camera)).mpr (initial_settled camera)
    refine Machine.always_iff_meets (machine topics)
      (fun (state : State) action next (clamped : state.Clamped) taken => clamped_step clamped taken)
      (fun state action next clamped settles taken => ?_) (initial_clamped camera) start labels
    rw [settles_iff_settled (clamped_step clamped taken)]
    exact settled_step ((settles_iff_settled clamped).mp settles) taken
  refine ⟨exact_step, fun careful => ?_⟩
  exact Machine.Always.mono (machine topics)
    (fun state settles quiet => settles [] state (by simp) rfl quiet) (exact_step.mpr careful)

def brightUpdate : Update where
  control := .brightness
  type := .integer
  val := 250
  int := by decide
  unmarked := by decide

def automaticCamera : VisionCamera (Control → Setting) := ⟨fun _ => .auto, fun _ => 0⟩

/-- A remote brightness stays in the entry though the hardware clamps it. -/
theorem brightUpdate_not_agrees :
    ¬ (machine exampleTopics).Always (fun state => state.Quiet → Agrees state.camera)
      (initial automaticCamera) [.remote brightUpdate, .handle] := by
  intro always
  have reached : (machine exampleTopics).run (initial automaticCamera) [.remote brightUpdate, .handle] =
      some ⟨((initial automaticCamera).camera.publish .brightness 250).issue SourceCall.perform
        (privateSet .brightness 250).1, [], none⟩ := by
    rw [Machine.run_cons]
    change ((machine exampleTopics).step ⟨_, [brightUpdate], none⟩ .handle).bind _ = _
    rw [handle_cons]
    rfl
  have agrees := always.last (machine exampleTopics) reached ⟨rfl, rfl⟩
  have range : (250 : Int) ≤ 100 := agrees.brightnessRange.2
  omega

end VisionServer.Camera.Controls
