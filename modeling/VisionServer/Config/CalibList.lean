/-
This file models the camera loader that takes a list of calibrations.
-/

import VisionServer.Camera.Arrays
import VisionServer.Camera.Modes
import VisionServer.Config.Loader

namespace VisionServer.Config
open Library Camera

variable {Scalar : Type} (env : Environment Scalar)

/-- These are the calibrations of one name by resolution. -/
abbrev CalibSet := List (Size × (CalibMat × CalibMat))

/-- Both maps of the list are vectors of pairs. -/
abbrev CalibList := List (String × CalibSet)

/-- This is the sequential search for the first entry with the name. -/
def findSet (name : String) (map : CalibList) : Option CalibSet :=
  (map.find? fun set => set.1 == name).map Prod.snd

/-- This is the sequential search for the first entry with the size. -/
def CalibSet.findCalib (sz : Size) (set : CalibSet) : Option (CalibMat × CalibMat) :=
  (set.find? fun calib => calib.1 == sz).map Prod.snd

def findCalib (name : String) (sz : Size) (map : CalibList) : Option (CalibMat × CalibMat) :=
  match findSet name map with
  | some set => CalibSet.findCalib sz set
  | none => none

/-- Some entry of the name has a calibration for the size, wherever the entry is in the list. -/
def HasCalib (name : String) (sz : Size) (map : CalibList) : Prop :=
  ∃ set cal, (name, set) ∈ map ∧ (sz, cal) ∈ set

/-- This loader passes the exceptions of the image library on. -/
abbrev ListLoader (Scalar : Type) := EStateM LoadException (World Scalar)

/-- These are the steps that throw at most JSON exceptions. -/
def ofLoader {Value : Type} (program : Loader Scalar Value) : ListLoader Scalar Value :=
  fun world => match program.run world with
    | .ok value next => .ok value next
    | .error e next => .error (.json e) next

/-- This is a handler for JSON exceptions. -/
def catchJson (body : ListLoader Scalar Unit) (handler : JsonException → ListLoader Scalar Unit) :
    ListLoader Scalar Unit :=
  tryCatch body fun
    | .json e => handler e
    | other => throw other

/-- This is `cameras.back()`. -/
def back : ListLoader Scalar VisionCamera := do
  match (← get).cameras.getLast? with
  | some camera => return camera
  | none => throw .emptyBack

/-- This is the end of a call that changes `cameras.back()`. -/
def setBack (camera : VisionCamera) : ListLoader Scalar Unit :=
  modify fun world => { world with cameras := world.cameras.dropLast ++ [camera] }

/-- The condition looks for a type only when the camera has properties. -/
def createCamerasList.hasType (camera : Json) : Except JsonException Bool :=
  if camera.count "properties" ≠ 0 then do
    return (← camera.atKey "properties").count "type" ≠ 0
  else return false

/-- This is the type that selects a calibration. -/
def createCamerasList.typeOf (camera : Json) : Except JsonException String := do
  (← (← camera.atKey "properties").atKey "type").getString

/-- The resolution of the new camera decides the lookup. -/
def createCamerasList.lookup (type : String) (calibrations : CalibList) :
    ListLoader Scalar (Option (CalibMat × CalibMat)) := do
  let sz := (← back).getResolution
  return findCalib type sz calibrations

/-- A calibration of the list replaces both matrices of the new camera. -/
def createCamerasList.setListed (camera : Json) (calibrations : CalibList) :
    ListLoader Scalar Unit := do
  let type ← ofLoader (liftExcept (createCamerasList.typeOf camera))
  match ← createCamerasList.lookup type calibrations with
  | some cal =>
      setBack (← liftExcept ((← back).setCameraMatrix cal.1)).1
      setBack (← liftExcept ((← back).setDistortionCoefs cal.2)).1
  | none => pure ()

/-- A calibration of the file is written into both matrices of the new camera. -/
def createCamerasList.setNamed (j camera : Json) : ListLoader Scalar Unit := do
  let blocks ← ofLoader (liftExcept (j.atKey "calibrations"))
  let key ← ofLoader (liftExcept (camera.atKey "calibration" >>= Json.getString))
  let calibration ← ofLoader (liftExcept (blocks.atKey key))
  setBack (← ofLoader (VisionCamera.setCalibrationJson env (← back) calibration)).1

/-- One pass of the loop appends one camera and then looks for its calibration. -/
def createCamerasList.addCamera (file : String) (j : Json) (calibrations : CalibList)
    (hasCalibs : Bool) (camera : Json) : ListLoader Scalar Unit := do
  ofLoader (do emplaceBack (← VisionCamera.ofConfig env camera))
  if ← ofLoader (liftExcept (createCamerasList.hasType camera)) then
    catchJson (createCamerasList.setListed camera calibrations) fun e =>
      ofLoader (errs ("Config error in " ++ file ++ ": failed to get 'type' property: " ++ e.what))
  else if hasCalibs ∧ camera.count "calibration" > 0 then
    catchJson (createCamerasList.setNamed env j camera) fun e =>
      ofLoader (errs ("Config error in " ++ file ++ ": failed to get configuration object: " ++
        e.what))

def createCamerasList.addCameras (file : String) (j : Json) (calibrations : CalibList) :
    ListLoader Scalar Unit := do
  if j.count "cameras" < 1 then
    ofLoader (errs ("Config error in " ++ file ++
      ": no camera configs found, this program requires cameras to function"))
  else
    catchJson (do
      let hasCalibs : Bool := j.count "calibrations" > 0
      let cameras ← ofLoader (liftExcept (j.atKey "cameras"))
      forM cameras.items (createCamerasList.addCamera env file j calibrations hasCalibs)) fun e =>
      ofLoader (errs ("Config error in " ++ file ++ ": could not read cameras: " ++ e.what))

/-- This is the overload of `createCameras` with a calibration list. -/
def createCamerasList (calibrations : CalibList) (file : String) : ListLoader Scalar Bool := do
  match ← ofLoader (loadJson env file) with
  | none => return false
  | some j =>
      createCamerasList.addCameras env file j calibrations
      return true

end VisionServer.Config
