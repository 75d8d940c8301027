/-
This file models the construction of cameras from JSON blocks.
-/

import VisionServer.Camera.World

namespace VisionServer.Camera
open Library

variable {Scalar : Type} (env : Environment Scalar)

/-- The body fills the array row by row and leaves it partly filled when a position is wrong. -/
def fillArray (array : Mat) (matx : Json) (rows cols : Nat) : Loader Scalar Unit :=
  forM (List.range rows) fun row => forM (List.range cols) fun col => do
    let value ← liftExcept do (← (← matx.atIndex row).atIndex col).getFloat env.toFloat
    setEntry array row col value

/-- This is `getJsonCameraMatrix` for `float`. -/
def getJsonCameraMatrix (calibration : Json) (array : Mat) : Loader Scalar Bool :=
  if calibration.isObject then do
    try
      let matx ← liftExcept (calibration.atKey "camera_matrix")
      fillArray env array matx 3 3
    catch e => errs ("Failed to parse camera matrix: " ++ e.what)
    return true
  else
    return false

/-- This is `getJsonDistortionCoefs` for `float`. -/
def getJsonDistortionCoefs (calibration : Json) (array : Mat) : Loader Scalar Bool :=
  if calibration.isObject then do
    try
      let matx ← liftExcept (calibration.atKey "distortion")
      fillArray env array matx 1 5
    catch e => errs ("Failed to parse camera matrix: " ++ e.what)
    return true
  else
    return false

/-- This is the constructor `cs::UsbCamera(name, path)`. -/
def createUsbCamera (name path : String) : Loader Scalar Nat :=
  modifyGet fun world =>
    (world.sources.length + 1,
      { world with sources := world.sources ++ [⟨name, path, none, false⟩] })

/-- A configuration call on the handle zero changes no source. -/
def configureSource (handle : Nat) (config : Json) : Loader Scalar Unit :=
  modify fun world => match handle with
    | 0 => world
    | index + 1 => { world with sources := world.sources.modify index fun source =>
        { source with config := some config, keepOpen := true } }

/-- This is `GetName`, which is empty for the handle zero. -/
def getName (handle : Nat) : Loader Scalar String := do
  let world ← get
  match handle with
  | 0 => return ""
  | index + 1 => return (world.sources[index]?.map UsbSource.name).getD ""

theorem getName_run (handle : Nat) (world : World Scalar) :
    ∃ name, (getName handle).run world = .ok name world := by
  cases handle <;> exact ⟨_, rfl⟩

/-- This is `GetVideoMode`, which is the default mode for the handle zero. -/
def getVideoMode (handle : Nat) : VideoMode :=
  if handle = 0 then .default else env.liveMode handle

/-- The local camera of the JSON constructors is empty when the name or the path is missing. -/
def openUsbCamera (sourceConfig : Json) : Loader Scalar Nat := do
  let handle ← try
      let name ← liftExcept (sourceConfig.atKey "name" >>= Json.getString)
      let path ← liftExcept (sourceConfig.atKey "path" >>= Json.getString)
      createUsbCamera name path
    catch e =>
      errs ("Config error in source JSON -> could not read camera name and/or path: " ++ e.what)
      pure 0
  configureSource handle sourceConfig
  return handle

/-- This is the constructor from a camera block and a calibration block. -/
def VisionCamera.ofCalibration (sourceConfig calibration : Json) : Loader Scalar VisionCamera := do
  let cameraMatrix := defaultMatrix
  let distortion := defaultDistort
  let handle ← openUsbCamera sourceConfig
  let _ ← getJsonCameraMatrix env calibration cameraMatrix
  let _ ← getJsonDistortionCoefs env calibration distortion
  let name ← getName handle
  let properties := getVideoMode env handle
  return {
    handle, config := sourceConfig, calibration, cameraMatrix, distortion
    raw := ⟨name ++ "_cvraw", handle⟩
    properties := if properties.toBool then getJsonVideoMode sourceConfig else properties }

/-- This is the constructor from a camera block. Its test of the live mode is negated. -/
def VisionCamera.ofConfig (sourceConfig : Json) : Loader Scalar VisionCamera := do
  let handle ← openUsbCamera sourceConfig
  let name ← getName handle
  let properties := getVideoMode env handle
  return {
    handle, config := sourceConfig, calibration := .null
    cameraMatrix := defaultMatrix, distortion := defaultDistort
    raw := ⟨name ++ "_cvraw", handle⟩
    properties := if !properties.toBool then getJsonVideoMode sourceConfig else properties }

end VisionServer.Camera
