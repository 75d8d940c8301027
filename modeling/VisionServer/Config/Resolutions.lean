/-
This file determines when the constructors of a camera and the lookup of its calibration agree.
-/

import VisionServer.Config.CalibList

namespace VisionServer.Config
open Library Camera

variable {Scalar : Type} (env : Environment Scalar)

/-- The constructor ends with a camera that reports its live mode, or the mode of the block. -/
def BuildsMode (build : Loader Scalar VisionCamera) (config : Json) (world : World Scalar) : Prop :=
  ∃ camera after, build.run world = .ok camera after ∧
    ReportsMode camera (configuredMode (getVideoMode env camera.handle) config)

/-- The lookup uses the configured size while the live mode of the new camera is unknown. -/
def LooksUpConfigured (config : Json) (world : World Scalar) : Prop :=
  (openedMode env config world.sources.length).pixelFormat = .kUnknown →
    ∀ type calibrations, ∃ after, (do
        ofLoader (do emplaceBack (← VisionCamera.ofConfig env config))
        createCamerasList.lookup type calibrations : ListLoader Scalar _).run world =
      .ok (findCalib type ⟨(getJsonVideoMode config).width, (getJsonVideoMode config).height⟩
        calibrations) after

/-- The five constructors with a configuration and the lookup agree on the mode. -/
structure ModesAgree (config calibration : Json) (source : Nat) (world : World Scalar) : Prop where
  videoSource : BuildsMode env (VisionCamera.ofVideoSource env source config) config world
  usbCamera : BuildsMode env (VisionCamera.ofUsbCamera env source config) config world
  httpCamera : BuildsMode env (VisionCamera.ofHttpCamera env source config) config world
  calibrated : BuildsMode env (VisionCamera.ofCalibration env config calibration) config world
  configured : BuildsMode env (VisionCamera.ofConfig env config) config world
  lookup : LooksUpConfigured env config world

/-- The constructor from a camera block stores this mode. -/
def storedMode (config : Json) (sources : Nat) : VideoMode :=
  if (openedMode env config sources).toBool then openedMode env config sources
  else getJsonVideoMode config

/-- The stored mode and the configured mode are the two candidates in turn. -/
theorem sameSizes_stored_iff (config : Json) (sources : Nat) :
    SameSizes (storedMode env config sources)
        (configuredMode (openedMode env config sources) config) ↔
      SameSizes (openedMode env config sources) (getJsonVideoMode config) := by
  rw [configuredMode_eq, storedMode]
  cases (openedMode env config sources).toBool with
  | true => simp
  | false =>
      simp only [Bool.false_eq_true, if_false]
      exact ⟨fun same => ⟨same.width.symm, same.height.symm, same.fps.symm⟩,
        fun same => ⟨same.width.symm, same.height.symm, same.fps.symm⟩⟩

theorem buildsMode_ofSource (source : Nat) (config : Json) (world : World Scalar) :
    BuildsMode env (VisionCamera.ofSource env source config) config world := by
  obtain ⟨camera, done, built⟩ := ofSource_run env source config world
  refine ⟨camera, world, done, (reportsMode_iff _ _).mpr ?_⟩
  rw [built.properties, built.handle]
  exact ⟨rfl, rfl, rfl⟩

theorem buildsMode_ofCalibration (config calibration : Json) (world : World Scalar) :
    BuildsMode env (VisionCamera.ofCalibration env config calibration) config world := by
  obtain ⟨camera, after, done, built, _⟩ := ofCalibration_constructs env config calibration world
  refine ⟨camera, after, done, (reportsMode_iff _ _).mpr ?_⟩
  rw [built.properties, built.handle]
  exact ⟨rfl, rfl, rfl⟩

/-- The constructor from a camera block stores the right mode exactly when both candidates agree. -/
theorem buildsMode_ofConfig_iff (config : Json) (world : World Scalar) :
    BuildsMode env (VisionCamera.ofConfig env config) config world ↔
      SameSizes (openedMode env config world.sources.length) (getJsonVideoMode config) := by
  obtain ⟨camera, after, done, built, _⟩ := ofConfig_constructs env config world
  have reports : ReportsMode camera (configuredMode (getVideoMode env camera.handle) config) ↔
      SameSizes (openedMode env config world.sources.length) (getJsonVideoMode config) := by
    rw [reportsMode_iff, built.properties, built.handle]
    exact sameSizes_stored_iff env config world.sources.length
  constructor
  · intro builds
    obtain ⟨other, final, again, right⟩ := builds
    rw [done] at again
    cases again
    exact reports.mp right
  · intro same
    exact ⟨camera, after, done, reports.mpr same⟩

theorem run_ofLoader {Value : Type} (program : Loader Scalar Value) (world : World Scalar) :
    (ofLoader program).run world = match program.run world with
      | .ok value next => .ok value next
      | .error e next => .error (LoadException.json e) next := rfl

/-- A lifted program that ends normally ends in the same state. -/
theorem ofLoader_run {Value : Type} {program : Loader Scalar Value} {world after : World Scalar}
    {value : Value} (done : program.run world = .ok value after) :
    (ofLoader program).run world = .ok value after := by
  rw [run_ofLoader, done]

/-- A lifted program that throws passes its exception on. -/
theorem ofLoader_error {Value : Type} {program : Loader Scalar Value} {world after : World Scalar}
    {e : JsonException} (failed : program.run world = .error e after) :
    (ofLoader program).run world = .error (.json e) after := by
  rw [run_ofLoader, failed]

/-- The new camera is at the end of the vector. -/
theorem back_run {camera : VisionCamera} {world : World Scalar} {cameras : List VisionCamera}
    (last : world.cameras = cameras ++ [camera]) :
    (back : ListLoader Scalar VisionCamera).run world = .ok camera world := by
  have found : world.cameras.getLast? = some camera := by
    rw [last, List.getLast?_concat]
  rw [back, run_bind_of_ok (show (get : ListLoader Scalar _).run world = .ok world world from rfl),
    found]
  rfl

/-- The loop appends the camera of a block before it looks for the calibration. -/
theorem append_run (config : Json) (world : World Scalar) :
    ∃ camera after, (ofLoader (do emplaceBack (← VisionCamera.ofConfig env config))
        : ListLoader Scalar Unit).run world = .ok () after ∧
      Constructed config (openedHandle config world.sources.length)
        (storedMode env config world.sources.length) camera ∧
      after.store = world.store ∧ after.cameras = world.cameras ++ [camera] ∧
      after.sources.length = world.sources.length +
        if openedHandle config world.sources.length = 0 then 0 else 1 := by
  obtain ⟨camera, after, done, built, store, cameras, sources⟩ :=
    ofConfig_constructs env config world
  refine ⟨camera, { after with cameras := after.cameras ++ [camera] }, ofLoader_run ?_, built, store,
    by rw [cameras], sources⟩
  rw [run_bind_of_ok done]
  rfl

/-- The lookup uses the resolution that the new camera stores. -/
theorem lookup_run {camera : VisionCamera} {world : World Scalar} {cameras : List VisionCamera}
    (last : world.cameras = cameras ++ [camera]) (type : String) (calibrations : CalibList) :
    (createCamerasList.lookup type calibrations).run world =
      .ok (findCalib type camera.getResolution calibrations) world := by
  rw [createCamerasList.lookup, run_bind_of_ok (back_run last)]
  rfl

/-- A constructor that agrees makes the lookup use the configured size. -/
theorem looksUpConfigured_of_sameSizes {config : Json} {world : World Scalar}
    (same : SameSizes (openedMode env config world.sources.length) (getJsonVideoMode config)) :
    LooksUpConfigured env config world := by
  intro unknown type calibrations
  obtain ⟨camera, after, done, built, _, cameras, _⟩ := append_run env config world
  have resolution : camera.getResolution =
      ⟨(getJsonVideoMode config).width, (getJsonVideoMode config).height⟩ := by
    have stored : camera.properties = openedMode env config world.sources.length := by
      rw [built.properties, storedMode, if_pos (by simpa [VideoMode.toBool] using unknown)]
    rw [VisionCamera.getResolution, stored, same.width, same.height]
  refine ⟨after, ?_⟩
  rw [run_bind_of_ok done, lookup_run cameras, resolution]

/-- All constructors agree exactly when the live mode of the opened source and the mode of the block
have the same width, height and rate: the constructor from a camera block negates the test. -/
theorem modesAgree_iff (config calibration : Json) (source : Nat) (world : World Scalar) :
    ModesAgree env config calibration source world ↔
      SameSizes (openedMode env config world.sources.length) (getJsonVideoMode config) := by
  constructor
  · intro agree
    exact (buildsMode_ofConfig_iff env config world).mp agree.configured
  · intro same
    exact {
      videoSource := buildsMode_ofSource env source config world
      usbCamera := buildsMode_ofSource env source config world
      httpCamera := buildsMode_ofSource env source config world
      calibrated := buildsMode_ofCalibration env config calibration world
      configured := (buildsMode_ofConfig_iff env config world).mpr same
      lookup := looksUpConfigured_of_sameSizes env same }

/-- A connected camera reports 640 by 480, and its block names no size. -/
def connectedBlock : Json :=
  .object [("name", .string "front"), ("path", .string "/dev/video0")]

def connectedEnv : Environment Int where
  toFloat
    | .integer value => value
    | .decimal value => value.floor
  liveMode _ := ⟨.kMJPEG, 640, 480, 30⟩
  files _ := .value connectedBlock
  clientVersion := 4

/-- The constructor from the block alone stores the sizes zero. -/
theorem connectedBlock_not_agree :
    ¬ ModesAgree connectedEnv connectedBlock .null 1 ⟨fun _ _ => 0, [], [], []⟩ := by
  intro agree
  have same := (buildsMode_ofConfig_iff connectedEnv connectedBlock _).mp agree.configured
  exact absurd same.width (by decide)

end VisionServer.Config
