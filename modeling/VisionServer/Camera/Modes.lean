/-
This file compares the video modes that the constructors of a camera store.
-/

import VisionServer.Camera.Construct

namespace VisionServer.Camera
open Library

variable {Scalar : Type} (env : Environment Scalar)

/-- The constructors from an existing source share this body. -/
def VisionCamera.ofSource (source : Nat) (config : Json) : Loader Scalar VisionCamera := do
  let name ← getName source
  let properties := getVideoMode env source
  return {
    handle := source, config, calibration := .null
    cameraMatrix := defaultMatrix, distortion := defaultDistort
    raw := ⟨name ++ "_cvraw", source⟩
    properties := if properties.toBool then getJsonVideoMode config else properties }

/-- This is the constructor from a `cs::VideoSource`. -/
def VisionCamera.ofVideoSource (source : Nat) (config : Json) : Loader Scalar VisionCamera :=
  VisionCamera.ofSource env source config

/-- This is the constructor from a `cs::UsbCamera`. -/
def VisionCamera.ofUsbCamera (source : Nat) (config : Json) : Loader Scalar VisionCamera :=
  VisionCamera.ofSource env source config

/-- This is the constructor from a `cs::HttpCamera`. -/
def VisionCamera.ofHttpCamera (source : Nat) (config : Json) : Loader Scalar VisionCamera :=
  VisionCamera.ofSource env source config

/-- This is `cv::Size`. -/
structure Size where
  width : Int
  height : Int
deriving DecidableEq

namespace VisionCamera

def getWidth (camera : VisionCamera) : Int := camera.properties.width

def getHeight (camera : VisionCamera) : Int := camera.properties.height

def getConfigFPS (camera : VisionCamera) : Int := camera.properties.fps

def getResolution (camera : VisionCamera) : Size :=
  ⟨camera.properties.width, camera.properties.height⟩

end VisionCamera

/-- The constructor takes the mode of the block only when the live mode is unknown. -/
def configuredMode (live : VideoMode) (config : Json) : VideoMode :=
  if live.pixelFormat = .kUnknown then getJsonVideoMode config else live

theorem configuredMode_eq (live : VideoMode) (config : Json) :
    configuredMode live config = if live.toBool then getJsonVideoMode config else live := by
  by_cases unknown : live.pixelFormat = .kUnknown <;>
    simp [configuredMode, VideoMode.toBool, unknown]

/-- The getters of the camera report the mode. -/
structure ReportsMode (camera : VisionCamera) (mode : VideoMode) : Prop where
  width : camera.getWidth = mode.width
  height : camera.getHeight = mode.height
  fps : camera.getConfigFPS = mode.fps
  resolution : camera.getResolution = ⟨mode.width, mode.height⟩

/-- The modes differ at most in their pixel formats. -/
structure SameSizes (first second : VideoMode) : Prop where
  width : first.width = second.width
  height : first.height = second.height
  fps : first.fps = second.fps

theorem reportsMode_iff (camera : VisionCamera) (mode : VideoMode) :
    ReportsMode camera mode ↔ SameSizes camera.properties mode := by
  constructor
  · intro reports
    exact ⟨reports.width, reports.height, reports.fps⟩
  · intro same
    refine ⟨same.width, same.height, same.fps, ?_⟩
    rw [VisionCamera.getResolution, same.width, same.height]

/-- The source of a block has the next handle, or none when the name or the path is missing. -/
def openedHandle (sourceConfig : Json) (sources : Nat) : Nat :=
  match sourceConfig.atKey "name" >>= Json.getString,
    sourceConfig.atKey "path" >>= Json.getString with
  | .ok _, .ok _ => sources + 1
  | _, _ => 0

/-- Opening a source returns its handle and keeps the buffers and the cameras. -/
theorem openUsbCamera_run (sourceConfig : Json) (world : World Scalar) :
    ∃ opened : World Scalar, (openUsbCamera sourceConfig).run world =
        .ok (openedHandle sourceConfig world.sources.length) opened ∧
      opened.store = world.store ∧ opened.cameras = world.cameras ∧
      opened.sources.length =
        world.sources.length + if openedHandle sourceConfig world.sources.length = 0 then 0 else 1 := by
  unfold openUsbCamera openedHandle
  cases name : sourceConfig.atKey "name" >>= Json.getString with
  | error e => exact ⟨_, rfl, rfl, rfl, rfl⟩
  | ok nameText =>
      cases path : sourceConfig.atKey "path" >>= Json.getString with
      | error e => exact ⟨_, rfl, rfl, rfl, rfl⟩
      | ok pathText =>
          refine ⟨_, rfl, rfl, rfl, ?_⟩
          simp

/-- This view holds the opened sources and the cameras vector. -/
def World.devices (world : World Scalar) : List UsbSource × List VisionCamera :=
  (world.sources, world.cameras)

theorem fillArray_keeps (array : Mat) (matx : Json) (rows cols : Nat) :
    Keeps World.devices (fillArray env array matx rows cols) := by
  refine Keeps.forM (fun row => Keeps.forM (fun col => ?_) _) _
  exact Keeps.bind (Keeps.liftExcept _) fun value => Keeps.modify fun _ => rfl

theorem getJsonCameraMatrix_keeps (calibration : Json) (array : Mat) :
    Keeps World.devices (getJsonCameraMatrix env calibration array) := by
  unfold getJsonCameraMatrix
  split
  · refine Keeps.bind (Keeps.tryCatch ?_ fun e => Keeps.modify fun _ => rfl) fun _ => Keeps.pure _
    exact Keeps.bind (Keeps.liftExcept _) fun matx => fillArray_keeps env array matx 3 3
  · exact Keeps.pure _

theorem getJsonDistortionCoefs_keeps (calibration : Json) (array : Mat) :
    Keeps World.devices (getJsonDistortionCoefs env calibration array) := by
  unfold getJsonDistortionCoefs
  split
  · refine Keeps.bind (Keeps.tryCatch ?_ fun e => Keeps.modify fun _ => rfl) fun _ => Keeps.pure _
    exact Keeps.bind (Keeps.liftExcept _) fun matx => fillArray_keeps env array matx 1 5
  · exact Keeps.pure _

theorem getJsonCameraMatrix_total (calibration : Json) (array : Mat) :
    Total (getJsonCameraMatrix env calibration array) := by
  unfold getJsonCameraMatrix
  split
  · exact Total.bind (Total.tryCatch _ fun e => Total.modify _) fun _ => Total.pure _
  · exact Total.pure _

theorem getJsonDistortionCoefs_total (calibration : Json) (array : Mat) :
    Total (getJsonDistortionCoefs env calibration array) := by
  unfold getJsonDistortionCoefs
  split
  · exact Total.bind (Total.tryCatch _ fun e => Total.modify _) fun _ => Total.pure _
  · exact Total.pure _

/-- This is the live mode of the source that a block opens beside the given number of sources. -/
def openedMode (sourceConfig : Json) (sources : Nat) : VideoMode :=
  getVideoMode env (openedHandle sourceConfig sources)

/-- A constructed camera has this handle and this mode beside its block. -/
structure Constructed (sourceConfig : Json) (handle : Nat) (mode : VideoMode)
    (camera : VisionCamera) : Prop where
  config : camera.config = sourceConfig
  handle : camera.handle = handle
  properties : camera.properties = mode
  cameraMatrix : camera.cameraMatrix = defaultMatrix
  distortion : camera.distortion = defaultDistort

/-- A construction from an existing source changes nothing else. -/
theorem ofSource_run (source : Nat) (config : Json) (world : World Scalar) :
    ∃ camera, (VisionCamera.ofSource env source config).run world = .ok camera world ∧
      Constructed config source (configuredMode (getVideoMode env source) config) camera := by
  obtain ⟨name, named⟩ := getName_run source world
  refine ⟨_, by rw [VisionCamera.ofSource, run_bind_of_ok named]; rfl, rfl, rfl, ?_, rfl, rfl⟩
  exact (configuredMode_eq _ _).symm

/-- A construction from a camera block takes the mode of the block when the live mode is known. -/
theorem ofConfig_constructs (sourceConfig : Json) (world : World Scalar) :
    ∃ camera after, (VisionCamera.ofConfig env sourceConfig).run world = .ok camera after ∧
      Constructed sourceConfig (openedHandle sourceConfig world.sources.length)
        (if (openedMode env sourceConfig world.sources.length).toBool
          then openedMode env sourceConfig world.sources.length
          else getJsonVideoMode sourceConfig) camera ∧
      after.store = world.store ∧ after.cameras = world.cameras ∧
      after.sources.length = world.sources.length +
        if openedHandle sourceConfig world.sources.length = 0 then 0 else 1 := by
  obtain ⟨opened, done, store, cameras, sources⟩ := openUsbCamera_run sourceConfig world
  obtain ⟨name, named⟩ := getName_run (openedHandle sourceConfig world.sources.length) opened
  refine ⟨_, opened, by rw [VisionCamera.ofConfig, run_bind_of_ok done, run_bind_of_ok named]; rfl,
    ⟨rfl, rfl, ?_, rfl, rfl⟩, store, cameras, sources⟩
  unfold openedMode
  cases (getVideoMode env (openedHandle sourceConfig world.sources.length)).toBool <;> rfl

/-- A construction with a calibration block takes the mode of the block when the live mode is
unknown. -/
theorem ofCalibration_constructs (sourceConfig calibration : Json) (world : World Scalar) :
    ∃ camera after, (VisionCamera.ofCalibration env sourceConfig calibration).run world =
        .ok camera after ∧
      Constructed sourceConfig (openedHandle sourceConfig world.sources.length)
        (configuredMode (openedMode env sourceConfig world.sources.length) sourceConfig) camera ∧
      after.cameras = world.cameras ∧
      after.sources.length = world.sources.length +
        if openedHandle sourceConfig world.sources.length = 0 then 0 else 1 := by
  obtain ⟨opened, done, _, cameras, sources⟩ := openUsbCamera_run sourceConfig world
  obtain ⟨_, middle, matrix⟩ := getJsonCameraMatrix_total env calibration defaultMatrix opened
  obtain ⟨_, after, coefs⟩ := getJsonDistortionCoefs_total env calibration defaultDistort middle
  have kept : after.devices = opened.devices :=
    ((getJsonDistortionCoefs_keeps env calibration defaultDistort).of_ok coefs).trans
      ((getJsonCameraMatrix_keeps env calibration defaultMatrix).of_ok matrix)
  obtain ⟨name, named⟩ := getName_run (openedHandle sourceConfig world.sources.length) after
  refine ⟨_, after, by rw [VisionCamera.ofCalibration, run_bind_of_ok done, run_bind_of_ok matrix,
      run_bind_of_ok coefs, run_bind_of_ok named]; rfl,
    ⟨rfl, rfl, ?_, rfl, rfl⟩, (congrArg Prod.snd kept).trans cameras, ?_⟩
  · exact (configuredMode_eq _ _).symm
  · rw [show after.sources = opened.sources from congrArg Prod.fst kept, sources]

end VisionServer.Camera
