/-
This file models the start-up functions that read the configuration file.
-/

import VisionServer.Camera.Construct

namespace VisionServer.Config
open Library Camera

variable {Scalar : Type} (env : Environment Scalar)

/-- The loader returns the object of the file, or nothing after a reported error. A number beyond
`double` is no parse error and escapes. -/
def loadJson (file : String) : Loader Scalar (Option Json) :=
  match env.files file with
  | .unreadable message => do
      errs ("Could not open '" ++ file ++ "': " ++ message)
      return none
  | .malformed e => do
      errs ("Config error in " ++ file ++ ": " ++ e.what)
      return none
  | .overflowing e => throw e
  | .value j =>
      if !j.isObject then do
        errs ("Config error in " ++ file ++ ": must be JSON object")
        return none
      else return some j

/-- The build chooses the protocol version of the client. -/
def startClient : NetworkCall :=
  if env.clientVersion = 4 then .startClient4 "VisionServer" else .startClient3 "VisionServer"

/-- The result is false when the team number of a client is missing. -/
def initNT.selectMode (file : String) (j : Json) : Loader Scalar Bool := do
  if j.count "ntmode" ≠ 0 then
    try
      let str ← liftExcept (j.atKey "ntmode" >>= Json.getString)
      if equalsLower str "client" then
        outs "Setting up NetworkTables in CLIENT mode"
        try
          network (startClient env)
          let team ← liftExcept (j.atKey "team" >>= Json.getUnsigned)
          network (.setServerTeam team)
          network .startDSClient
          pure true
        catch e =>
          errs ("Config error in " ++ file ++ ": could not read team number: " ++ e.what)
          pure false
      else if equalsLower str "server" then
        outs "Setting up NetworkTables in SERVER mode"
        network .startServer
        pure true
      else
        outs ("Setting up NetworkTables for SIMULATION mode - host: " ++ str)
        network (startClient env)
        network (.setServer str)
        pure true
    catch e =>
      errs ("Config error in " ++ file ++ ": coud not read ntmode: " ++ e.what)
      pure true
  else pure true

def initNT (file : String) : Loader Scalar Bool := do
  match ← loadJson env file with
  | none => return false
  | some j => initNT.selectMode env file j

/-- One pass of the loop appends one camera. -/
def createCameras.addCamera (file : String) (j camera : Json) : Loader Scalar Unit := do
  if camera.count "calibration" > 0 ∧ j.count "calibrations" > 0 then
    try
      let blocks ← liftExcept (j.atKey "calibrations")
      let key ← liftExcept (camera.atKey "calibration" >>= Json.getString)
      let calibration ← liftExcept (blocks.atKey key)
      emplaceBack (← VisionCamera.ofCalibration env camera calibration)
    catch e =>
      errs ("Config error in " ++ file ++ ": failed to get configuration object: " ++ e.what)
      emplaceBack (← VisionCamera.ofConfig env camera)
  else
    emplaceBack (← VisionCamera.ofConfig env camera)

def createCameras.addCameras (file : String) (j : Json) : Loader Scalar Unit := do
  if j.count "cameras" < 1 then
    errs ("Config error in " ++ file ++
      ": no camera configs found, this program requires cameras to function")
  else
    try
      let cameras ← liftExcept (j.atKey "cameras")
      forM cameras.items (createCameras.addCamera env file j)
    catch e =>
      errs ("Config error in " ++ file ++ ": could not read cameras: " ++ e.what)

/-- This is the overload without a calibration list. -/
def createCameras (file : String) : Loader Scalar Bool := do
  match ← loadJson env file with
  | none => return false
  | some j =>
      createCameras.addCameras env file j
      return true

/-- The legacy loader has its own copy of the mode selection. -/
def readConfig.selectMode (file : String) (j : Json) : Loader Scalar Bool := do
  if j.count "ntmode" ≠ 0 then
    try
      let str ← liftExcept (j.atKey "ntmode" >>= Json.getString)
      if equalsLower str "client" then
        outs "Setting up NetworkTables in CLIENT mode"
        try
          network (startClient env)
          let team ← liftExcept (j.atKey "team" >>= Json.getUnsigned)
          network (.setServerTeam team)
          network .startDSClient
          pure true
        catch e =>
          errs ("Config error in " ++ file ++ ": could not read team number: " ++ e.what)
          pure false
      else if equalsLower str "server" then
        outs "Setting up NetworkTables in SERVER mode"
        network .startServer
        pure true
      else
        outs ("Setting up NetworkTables for SIMULATION mode - host: " ++ str)
        network (startClient env)
        network (.setServer str)
        pure true
    catch e =>
      errs ("Config error in " ++ file ++ ": coud not read ntmode: " ++ e.what)
      pure true
  else pure true

/-- The legacy loader has its own copy of the camera loop. -/
def readConfig.addCamera (file : String) (j camera : Json) : Loader Scalar Unit := do
  if camera.count "calibration" > 0 ∧ j.count "calibrations" > 0 then
    try
      let blocks ← liftExcept (j.atKey "calibrations")
      let key ← liftExcept (camera.atKey "calibration" >>= Json.getString)
      let calibration ← liftExcept (blocks.atKey key)
      emplaceBack (← VisionCamera.ofCalibration env camera calibration)
    catch e =>
      errs ("Config error in " ++ file ++ ": failed to get configuration object: " ++ e.what)
      emplaceBack (← VisionCamera.ofConfig env camera)
  else
    emplaceBack (← VisionCamera.ofConfig env camera)

def readConfig.addCameras (file : String) (j : Json) : Loader Scalar Unit := do
  if j.count "cameras" < 1 then
    errs ("Config error in " ++ file ++
      ": no camera configs found, this program requires cameras to function")
  else
    try
      let cameras ← liftExcept (j.atKey "cameras")
      forM cameras.items (readConfig.addCamera env file j)
    catch e =>
      errs ("Config error in " ++ file ++ ": could not read cameras: " ++ e.what)

def readConfig (file : String) : Loader Scalar Bool := do
  match ← loadJson env file with
  | none => return false
  | some j =>
      if ← readConfig.selectMode env file j then
        readConfig.addCameras env file j
        return true
      else return false

end VisionServer.Config
