/-
This file models the controls of a camera and the listener of their topics.
-/

import Mathlib.Logic.Function.Basic
import VisionServer.Library.Floating

namespace VisionServer.Camera.Controls
open Library

/-- A camera publishes an entry for each of these controls. -/
inductive Control where
  | brightness
  | exposure
  | whiteBalance
deriving DecidableEq

/-- These are the calls of the setters into the capture source. -/
inductive SourceCall where
  | setBrightness (value : Int)
  | setExposureAuto
  | setExposureManual (value : Int)
  | setWhiteBalanceAuto
  | setWhiteBalanceManual (value : Int)
deriving DecidableEq

/-- This is `_setBrightness`. It returns the value that it passes on. -/
def privateSetBrightness (val : Int) : SourceCall × Int :=
  let val := if val > 100 then 100 else if val < 0 then 0 else val
  (.setBrightness val, val)

/-- This is `_setWhiteBalance`. -/
def privateSetWhiteBalance (val : Int) : SourceCall × Int :=
  (if val < 0 then .setWhiteBalanceAuto else .setWhiteBalanceManual val, val)

/-- This is `_setExposure`. -/
def privateSetExposure (val : Int) : SourceCall × Int :=
  let val := if val > 100 then 100 else val
  (if val < 0 then .setExposureAuto else .setExposureManual val, val)

def privateSet : Control → Int → SourceCall × Int
  | .brightness => privateSetBrightness
  | .exposure => privateSetExposure
  | .whiteBalance => privateSetWhiteBalance

/-- A value of a topic has a numeric type or another one. -/
inductive Value where
  | integer (value : Int)
  | double (value : Floating)
  | float (value : Floating)
  | other

namespace Value

def IsNumeric : Value → Prop
  | .other => False
  | _ => True

/-- A number loses its fractional part. -/
def truncated : Value → Option Int
  | .integer value => some value
  | .double value => value.truncate
  | .float value => value.truncate
  | .other => none

/-- The branches of the conditional have the common type `double`. The last two have the common type
`float` before. -/
def common : Value → Floating
  | .integer value => .finite (toDouble value)
  | .double value => value
  | .float value => value
  | .other => .finite (toFloat 0xFFFFFFFF)

end Value

/-- An event carries a value of its topic or tells about the topic itself. -/
inductive Event where
  | value (topic : Nat) (value : Value)
  | topic (topic : Nat)

/-- Each control has a topic of its own. -/
structure Topics where
  handle : Control → Nat
  distinct : Function.Injective handle

/-- The hardware is behind the capture source. An entry gives the last value of its topic. -/
structure VisionCamera (Hardware : Type) where
  hardware : Hardware
  entry : Control → Int

namespace VisionCamera

variable {Hardware : Type}

def getBrightness (camera : VisionCamera Hardware) : Int := camera.entry .brightness

def getExposure (camera : VisionCamera Hardware) : Int := camera.entry .exposure

def getWhiteBalance (camera : VisionCamera Hardware) : Int := camera.entry .whiteBalance

variable (perform : SourceCall → Hardware → Hardware)

/-- A call into the source changes the hardware only. -/
def issue (call : SourceCall) (camera : VisionCamera Hardware) : VisionCamera Hardware :=
  { camera with hardware := perform call camera.hardware }

def publish (control : Control) (value : Int) (camera : VisionCamera Hardware) : VisionCamera Hardware :=
  { camera with entry := Function.update camera.entry control value }

/-- A setter publishes what its private setter returns. -/
def set (control : Control) (val : Int) (camera : VisionCamera Hardware) : VisionCamera Hardware :=
  (camera.issue perform (privateSet control val).1).publish control (privateSet control val).2

def setBrightness (val : Int) : VisionCamera Hardware → VisionCamera Hardware :=
  set perform .brightness val

def setWhiteBalance (val : Int) : VisionCamera Hardware → VisionCamera Hardware :=
  set perform .whiteBalance val

def setExposure (val : Int) : VisionCamera Hardware → VisionCamera Hardware :=
  set perform .exposure val

/-- This is the part of `setNetworkAdjustable` before the listener exists. -/
def setNetworkAdjustable (camera : VisionCamera Hardware) : VisionCamera Hardware :=
  ((camera.setBrightness perform 50).setWhiteBalance perform (-1)).setExposure perform (-1)

/-- The listener has no defined outcome where the conversion to `int` has none. -/
def listener (topics : Topics) (e : Event) (camera : VisionCamera Hardware) :
    Option (VisionCamera Hardware) :=
  match e with
  | .topic _ => some camera
  | .value h value =>
      value.common.toInt.map fun val =>
        -- The comparison with the unsigned constant takes `val` modulo `2 ^ 32`.
        if val % 2 ^ 32 ≠ 0xFFFFFFFF then
          if h = topics.handle .brightness then camera.issue perform (privateSetBrightness val).1
          else if h = topics.handle .exposure then camera.issue perform (privateSetExposure val).1
          else if h = topics.handle .whiteBalance then
            camera.issue perform (privateSetWhiteBalance val).1
          else camera
        else camera

/-- An update reaches the hardware as the setter would, and a value without a number does not. -/
def Mirrors (topics : Topics) (control : Control) (value : Value) (camera : VisionCamera Hardware) : Prop :=
  let result := camera.listener perform topics (.value (topics.handle control) value)
  (∀ t, value.truncated = some t → IsInt t →
    result.map hardware = some (camera.set perform control t).hardware) ∧
  (¬ value.IsNumeric → result.map hardware = some camera.hardware)

end VisionCamera

/-- This is the call for the value `-1`. The brightness has no automatic mode. -/
def Control.auto : Control → SourceCall
  | .brightness => .setBrightness 0
  | .exposure => .setExposureAuto
  | .whiteBalance => .setWhiteBalanceAuto

@[simp] theorem privateSet_auto (control : Control) : (privateSet control (-1)).1 = control.auto := by
  cases control <;> rfl

/-- Only one value of an `int` has the bits of the unsigned constant. -/
theorem sentinel_iff {val : Int} (int : IsInt val) : val % 2 ^ 32 = 0xFFFFFFFF ↔ val = -1 := by
  obtain ⟨low, high⟩ := int
  omega

/-- The conversion of the unsigned constant to `float` rounds it up. -/
theorem toFloat_sentinel : toFloat 0xFFFFFFFF = 2 ^ 32 := by
  have log : Nat.log 2 0xFFFFFFFF = 31 :=
    Nat.log_eq_of_pow_le_of_lt_pow (by decide) (by decide)
  rw [toFloat, roundToBits, log]
  decide

namespace Value

/-- The conversions keep a truncated number that an `int` can hold. -/
theorem toInt_common {value : Value} {t : Int} (truncated : value.truncated = some t) (int : IsInt t) :
    value.common.toInt = some t := by
  refine Floating.toInt_eq_some.mpr ⟨?_, int⟩
  cases value with
  | integer value =>
      obtain rfl : value = t := Option.some.inj truncated
      rw [common, toDouble_of_range int.1 int.2, Floating.truncate_intCast]
  | double value => exact truncated
  | float value => exact truncated
  | other => nomatch truncated

/-- The marker of a value without a number does not survive the conversions. -/
theorem toInt_common_other {value : Value} (other : ¬ value.IsNumeric) : value.common.toInt = none := by
  cases value with
  | other =>
      rw [common, toFloat_sentinel]
      exact Floating.toInt_intCast_of_not (by decide)
  | integer | double | float => exact absurd trivial other

end Value

namespace VisionCamera

variable {Hardware : Type} (perform : SourceCall → Hardware → Hardware) (topics : Topics)
  (control : Control) (camera : VisionCamera Hardware)

@[simp] theorem issue_hardware (call : SourceCall) :
    (camera.issue perform call).hardware = perform call camera.hardware := rfl

@[simp] theorem issue_entry (call : SourceCall) : (camera.issue perform call).entry = camera.entry := rfl

@[simp] theorem publish_hardware (value : Int) :
    (camera.publish control value).hardware = camera.hardware := rfl

@[simp] theorem publish_entry (value : Int) :
    (camera.publish control value).entry = Function.update camera.entry control value := rfl

@[simp] theorem set_hardware (val : Int) :
    (camera.set perform control val).hardware = perform (privateSet control val).1 camera.hardware := rfl

/-- The listener passes every value but one to the private setter of its control. -/
theorem listener_of_int {value : Value} {val : Int} (converted : value.common.toInt = some val)
    (int : IsInt val) :
    camera.listener perform topics (.value (topics.handle control) value) =
      some (if val = -1 then camera else camera.issue perform (privateSet control val).1) := by
  have different {other : Control} (differ : control ≠ other) :
      topics.handle control ≠ topics.handle other := fun same => differ (topics.distinct same)
  simp only [listener, converted, Option.map_some, ne_eq, sentinel_iff int, ite_not]
  cases control with
  | brightness => simp [privateSet]
  | exposure => simp [privateSet, different]
  | whiteBalance => simp [privateSet, different]

/-- A value without a number leaves no defined outcome. -/
theorem listener_of_other {value : Value} (other : ¬ value.IsNumeric) :
    camera.listener perform topics (.value (topics.handle control) value) = none := by
  rw [listener, Value.toInt_common_other other, Option.map_none]

/-- An update reaches the hardware as the setter would where it is a number and, for the value `-1`,
where the hardware is automatic already. -/
theorem mirrors_iff_heard (value : Value) :
    camera.Mirrors perform topics control value ↔
      value.IsNumeric ∧
        (value.truncated = some (-1) → perform control.auto camera.hardware = camera.hardware) := by
  constructor
  · intro mirrors
    constructor
    · by_contra other
      have unchanged := mirrors.2 other
      rw [listener_of_other perform topics control camera other] at unchanged
      nomatch unchanged
    · intro truncated
      have int : IsInt (-1) := by decide
      have mirrored := mirrors.1 (-1) truncated int
      rw [listener_of_int perform topics control camera (Value.toInt_common truncated int) int] at mirrored
      simpa using mirrored.symm
  · rintro ⟨numeric, auto⟩
    refine ⟨fun t truncated int => ?_, fun other => absurd numeric other⟩
    rw [listener_of_int perform topics control camera (Value.toInt_common truncated int) int]
    by_cases marker : t = -1
    · subst marker
      simp [auto truncated]
    · simp [marker]

end VisionCamera

/-- A control of the hardware is automatic or has a value. -/
inductive Setting where
  | auto
  | manual (value : Int)
deriving DecidableEq

namespace SourceCall

def control : SourceCall → Control
  | .setBrightness _ => .brightness
  | .setExposureAuto | .setExposureManual _ => .exposure
  | .setWhiteBalanceAuto | .setWhiteBalanceManual _ => .whiteBalance

def setting : SourceCall → Setting
  | .setBrightness value | .setExposureManual value | .setWhiteBalanceManual value => .manual value
  | .setExposureAuto | .setWhiteBalanceAuto => .auto

/-- This hardware keeps the last setting of each control. -/
def perform (call : SourceCall) (hardware : Control → Setting) : Control → Setting :=
  Function.update hardware call.control call.setting

end SourceCall

/-- The calls of a private setter belong to its control. -/
theorem privateSet_control (control : Control) (val : Int) : (privateSet control val).1.control = control := by
  cases control with
  | brightness => rfl
  | exposure =>
      simp only [privateSet, privateSetExposure, apply_ite SourceCall.control]
      exact ite_self _
  | whiteBalance =>
      simp only [privateSet, privateSetWhiteBalance, apply_ite SourceCall.control]
      exact ite_self _

def exampleTopics : Topics where
  handle
    | .brightness => 1
    | .exposure => 2
    | .whiteBalance => 3
  distinct := fun first second same => by cases first <;> cases second <;> first | rfl | nomatch same

/-- The documented value `-1` does not end a manual exposure. -/
theorem manualExposure_not_mirrors :
    ¬ VisionCamera.Mirrors SourceCall.perform exampleTopics .exposure (.integer (-1))
      ⟨fun _ => .manual 40, fun _ => 40⟩ := by
  intro mirrors
  have int : IsInt (-1) := by decide
  have mirrored := mirrors.1 (-1) rfl int
  rw [VisionCamera.listener_of_int SourceCall.perform exampleTopics .exposure _
    (Value.toInt_common rfl int) int] at mirrored
  have exposure := congrFun (Option.some.inj mirrored) .exposure
  nomatch exposure

end VisionServer.Camera.Controls
