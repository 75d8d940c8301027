/-
This file decides which numbers the created cameras report after a load.
-/

import VisionServer.Camera.Calibration
import VisionServer.Config.Equivalence
import Mathlib.Data.List.Forall2

namespace VisionServer.Config
open Library Camera

variable {Scalar : Type} (env : Environment Scalar)

/-- The camera entry names the block through its `calibration` key. -/
def Names (j camera block : Json) : Prop :=
  ∃ blocks key, j.atKey "calibrations" = .ok blocks ∧
    (camera.atKey "calibration" >>= Json.getString) = .ok key ∧ blocks.atKey key = .ok block

/-- Each block of the `calibrations` map is well formed. -/
def WellFormedCalibrations (j : Json) : Prop :=
  ∃ members, j.atKey "calibrations" = .ok (.object members) ∧
    ∀ member ∈ members, WellFormedBlock member.2

theorem WellFormedCalibrations.block {j camera block : Json} (wellFormed : WellFormedCalibrations j)
    (names : Names j camera block) : WellFormedBlock block := by
  obtain ⟨members, present, every⟩ := wellFormed
  obtain ⟨blocks, key, found, _, selected⟩ := names
  rw [present, Except.ok.injEq] at found
  subst found
  unfold Json.atKey at selected
  cases member : members.lookup key with
  | none => simp [member] at selected
  | some value =>
      simp only [member, Except.ok.injEq] at selected
      obtain ⟨before, after, split, _⟩ := List.lookup_eq_some_iff.mp member
      exact selected ▸ every (key, value) (by simp [split])

/-- An entry that names a block passes both counts of the loader. -/
theorem Names.counted {j camera block : Json} (names : Names j camera block) :
    camera.count "calibration" > 0 ∧ j.count "calibrations" > 0 := by
  obtain ⟨blocks, key, found, read, _⟩ := names
  refine ⟨(Json.count_pos_iff _ _).mpr ?_, (Json.count_pos_iff _ _).mpr ⟨blocks, found⟩⟩
  cases member : camera.atKey "calibration" with
  | error e => simp [member, bind, Except.bind] at read
  | ok value => exact ⟨value, rfl⟩

/-- An entry that names a block gets a camera of its own, and the shared buffers get the block. -/
theorem addCamera_named [Zero Scalar] (file : String) {j camera block : Json}
    (wellFormed : WellFormedCalibrations j) (names : Names j camera block) (world : World Scalar) :
    ∃ created next, (createCameras.addCamera env file j camera).run world = .ok () next ∧
      SharesDefaults camera created ∧ next.cameras = world.cameras ++ [created] ∧
      next.store = calibrated env block world.store := by
  have guard := names.counted
  have shape := wellFormed.block names
  obtain ⟨blocks, key, found, read, selected⟩ := names
  obtain ⟨created, next, built, shares, vector, store⟩ := ofCalibration_run env camera shape world
  refine ⟨created, { next with cameras := next.cameras ++ [created] }, ?_, shares, ?_, store⟩
  · unfold createCameras.addCamera
    rw [if_pos guard]
    simp only [found, read, selected, run_tryCatch, EStateM.run_bind, run_liftExcept_ok, built]
    rfl
  · rw [vector]

/-- The handler of the loop body appends a camera without a calibration. -/
theorem fallback_run (camera : Json) (line : String) (world : World Scalar) :
    ∃ created next, (do errs line; emplaceBack (← VisionCamera.ofConfig env camera)
        : Loader Scalar Unit).run world = .ok () next ∧
      SharesDefaults camera created ∧ next.cameras = world.cameras ++ [created] ∧
      next.store = world.store := by
  let logged : World Scalar := { world with effects := world.effects ++ [.errs line] }
  obtain ⟨created, next, built, shares, vector, store⟩ := ofConfig_run env camera logged
  refine ⟨created, { next with cameras := next.cameras ++ [created] }, ?_, shares, ?_, store⟩
  · rw [run_bind_of_ok (show (errs line : Loader Scalar Unit).run world = .ok () logged from rfl),
      run_bind_of_ok built]
    rfl
  · rw [vector]

/-- An entry without a block gets a camera, and every buffer stays as it was. -/
theorem addCamera_unnamed (file : String) {j camera : Json}
    (unnamed : ¬ ∃ block, Names j camera block) (world : World Scalar) :
    ∃ created next, (createCameras.addCamera env file j camera).run world = .ok () next ∧
      SharesDefaults camera created ∧ next.cameras = world.cameras ++ [created] ∧
      next.store = world.store := by
  unfold createCameras.addCamera
  split
  · simp only [run_tryCatch, EStateM.run_bind]
    cases found : j.atKey "calibrations" with
    | error e => exact fallback_run env camera _ world
    | ok blocks =>
        cases read : camera.atKey "calibration" >>= Json.getString with
        | error e => exact fallback_run env camera _ world
        | ok key =>
            cases selected : blocks.atKey key with
            | error e =>
                simp only [run_liftExcept_ok, selected]
                exact fallback_run env camera _ world
            | ok block => exact absurd ⟨block, blocks, key, found, read, selected⟩ unnamed
  · obtain ⟨created, next, built, shares, vector, store⟩ := ofConfig_run env camera world
    refine ⟨created, { next with cameras := next.cameras ++ [created] }, ?_, shares, ?_, store⟩
    · rw [run_bind_of_ok built]
      rfl
    · rw [vector]

/-- The static default matrices hold only zeros. -/
structure DefaultsZero [Zero Scalar] (store : Store Scalar) : Prop where
  cameraMatrix : ∀ row < 3, ∀ col < 3, defaultMatrix.get store row col = 0
  distortion : ∀ col < 5, defaultDistort.get store 0 col = 0

/-- Each number of the block is zero after the conversion. -/
structure ZeroBlock [Zero Scalar] (block : Json) : Prop where
  cameraMatrix : ∀ row < 3, ∀ col < 3, readEntry env block "camera_matrix" row col = .ok 0
  distortion : ∀ col < 5, readEntry env block "distortion" 0 col = .ok 0

/-- The camera reports exactly the numbers of the block. -/
structure Reports (block : Json) (store : Store Scalar) (camera : VisionCamera) : Prop where
  cameraMatrix : ∀ row < 3, ∀ col < 3,
    readEntry env block "camera_matrix" row col = .ok (camera.cameraMatrix.get store row col)
  distortion : ∀ col < 5,
    readEntry env block "distortion" 0 col = .ok (camera.distortion.get store 0 col)

/-- The camera reports the all-zero defaults. -/
structure ReportsZero [Zero Scalar] (store : Store Scalar) (camera : VisionCamera) : Prop where
  cameraMatrix : ∀ row < 3, ∀ col < 3, camera.cameraMatrix.get store row col = 0
  distortion : ∀ col < 5, camera.distortion.get store 0 col = 0

/-- Each created camera reports its own block or zeros, and the defaults are unchanged. -/
structure CalibrationsLoaded [Zero Scalar] (j : Json) (before after : World Scalar) : Prop where
  named : ∀ camera ∈ after.cameras.drop before.cameras.length,
    ∀ block, Names j camera.config block → Reports env block after.store camera
  unnamed : ∀ camera ∈ after.cameras.drop before.cameras.length,
    (¬ ∃ block, Names j camera.config block) → ReportsZero after.store camera
  defaults : DefaultsZero after.store

/-- These are the entries that the loop visits. -/
def cameraEntries (j : Json) : List Json :=
  match j.atKey "cameras" with
  | .ok cameras => cameras.items
  | .error _ => []

/-- A zero block keeps the defaults at zero. -/
theorem calibrated_zero [Zero Scalar] {block : Json} (zero : ZeroBlock env block)
    {store : Store Scalar} : DefaultsZero (calibrated env block store) := by
  constructor
  · intro row inRows col inCols
    have other : defaultMatrix.get (calibrated env block store) row col =
        defaultMatrix.get (writeRows defaultMatrix 3 (entryValue env block "camera_matrix") 3 store)
          row col := by
      unfold calibrated Mat.get
      rw [writeRows_other _ _ _ (by decide)]
    rw [other]
    exact (writeRows_get defaultMatrix _ store inCols).trans
      (by simp [inRows, entryValue, zero.cameraMatrix row inRows col inCols])
  · intro col inCols
    exact (writeRows_get defaultDistort _ _ inCols).trans
      (by simp [entryValue, zero.distortion col inCols])

/-- The loop creates one camera for each entry, and zero blocks keep the defaults at zero. -/
theorem addCameras_loop [Zero Scalar] (file : String) {j : Json}
    (wellFormed : WellFormedCalibrations j) (entries : List Json) (world : World Scalar) :
    ∃ created next, (forM entries (createCameras.addCamera env file j)).run world = .ok () next ∧
      List.Forall₂ SharesDefaults entries created ∧ next.cameras = world.cameras ++ created ∧
      ((∀ camera ∈ entries, ∀ block, Names j camera block → ZeroBlock env block) →
        DefaultsZero world.store → DefaultsZero next.store) := by
  induction entries generalizing world with
  | nil => exact ⟨[], world, rfl, .nil, by simp, fun _ start => start⟩
  | cons camera rest ih =>
      have first : ∃ created next,
          (createCameras.addCamera env file j camera).run world = .ok () next ∧
          SharesDefaults camera created ∧ next.cameras = world.cameras ++ [created] ∧
          ((∀ block, Names j camera block → ZeroBlock env block) →
            DefaultsZero world.store → DefaultsZero next.store) := by
        by_cases resolved : ∃ block, Names j camera block
        · obtain ⟨block, names⟩ := resolved
          obtain ⟨created, next, done, shares, vector, store⟩ :=
            addCamera_named env file wellFormed names world
          exact ⟨created, next, done, shares, vector, fun zero _ =>
            store ▸ calibrated_zero env (zero block names)⟩
        · obtain ⟨created, next, done, shares, vector, store⟩ :=
            addCamera_unnamed env file resolved world
          exact ⟨created, next, done, shares, vector, fun _ start => store ▸ start⟩
      obtain ⟨created, next, done, shares, vector, kept⟩ := first
      obtain ⟨others, final, later, pairs, vectors, keptLater⟩ := ih next
      refine ⟨created :: others, final, ?_, .cons shares pairs, by simp [vectors, vector], ?_⟩
      · rw [List.forM_cons, run_bind_of_ok done]
        exact later
      · intro zero start
        exact keptLater (fun entry member => zero entry (List.mem_cons_of_mem _ member))
          (kept (zero camera List.mem_cons_self) start)

/-- The camera part of the load has the facts of its loop. -/
theorem addCameras_run [Zero Scalar] (file : String) {j : Json}
    (wellFormed : WellFormedCalibrations j) (world : World Scalar) :
    ∃ created next, (createCameras.addCameras env file j).run world = .ok () next ∧
      List.Forall₂ SharesDefaults (cameraEntries j) created ∧
      next.cameras = world.cameras ++ created ∧
      ((∀ camera ∈ cameraEntries j, ∀ block, Names j camera block → ZeroBlock env block) →
        DefaultsZero world.store → DefaultsZero next.store) := by
  unfold createCameras.addCameras cameraEntries
  cases found : j.atKey "cameras" with
  | error e =>
      have absent : j.count "cameras" < 1 := by
        by_contra counted
        obtain ⟨value, present⟩ := (Json.count_pos_iff j "cameras").mp (by omega)
        rw [found] at present
        cases present
      rw [if_pos absent]
      exact ⟨[], _, rfl, .nil, (List.append_nil _).symm, fun _ start => start⟩
  | ok cameras =>
      have counted : ¬ j.count "cameras" < 1 := by
        have := (Json.count_pos_iff j "cameras").mpr ⟨cameras, found⟩
        omega
      obtain ⟨created, next, done, facts⟩ :=
        addCameras_loop env file wellFormed cameras.items world
      refine ⟨created, next, ?_, facts⟩
      rw [if_neg counted]
      simp only [run_tryCatch, EStateM.run_bind, run_liftExcept_ok, done]

/-- The mode selection changes no buffer and no camera. -/
theorem selectMode_keeps (file : String) (j : Json) :
    Keeps World.buffers (initNT.selectMode env file j : Loader Scalar Bool) := by
  unfold initNT.selectMode
  split
  · refine Keeps.tryCatch ?_ fun e => Keeps.bind (emit_keeps _) fun _ => Keeps.pure _
    refine Keeps.bind (Keeps.liftExcept _) fun str => ?_
    split
    · refine Keeps.bind (emit_keeps _) fun _ => Keeps.tryCatch ?_ fun e =>
        Keeps.bind (emit_keeps _) fun _ => Keeps.pure _
      refine Keeps.bind (emit_keeps _) fun _ => Keeps.bind (Keeps.liftExcept _) fun team => ?_
      exact Keeps.bind (emit_keeps _) fun _ => Keeps.bind (emit_keeps _) fun _ => Keeps.pure _
    · split
      · exact Keeps.bind (emit_keeps _) fun _ => Keeps.bind (emit_keeps _) fun _ => Keeps.pure _
      · refine Keeps.bind (emit_keeps _) fun _ => Keeps.bind (emit_keeps _) fun _ => ?_
        exact Keeps.bind (emit_keeps _) fun _ => Keeps.pure _
  · exact Keeps.pure _

/-- Each entry has its created camera. -/
theorem created_of_entry {entries : List Json} {created : List VisionCamera} {entry : Json}
    (pairs : List.Forall₂ SharesDefaults entries created) (member : entry ∈ entries) :
    ∃ camera ∈ created, SharesDefaults entry camera := by
  induction pairs with
  | nil => cases member
  | cons shares rest ih =>
      cases member with
      | head => exact ⟨_, List.mem_cons_self, shares⟩
      | tail _ later =>
          obtain ⟨camera, present, found⟩ := ih later
          exact ⟨camera, List.mem_cons_of_mem _ present, found⟩

/-- Each created camera has its entry. -/
theorem entry_of_created {entries : List Json} {created : List VisionCamera} {camera : VisionCamera}
    (pairs : List.Forall₂ SharesDefaults entries created) (member : camera ∈ created) :
    ∃ entry ∈ entries, SharesDefaults entry camera := by
  induction pairs with
  | nil => cases member
  | cons shares rest ih =>
      cases member with
      | head => exact ⟨_, List.mem_cons_self, shares⟩
      | tail _ later =>
          obtain ⟨entry, present, found⟩ := ih later
          exact ⟨entry, List.mem_cons_of_mem _ present, found⟩

/-- A load that returns true has run the camera loop on the buffers that it found. -/
theorem load_run [Zero Scalar] {file : String} {j : Json} {world after : World Scalar}
    {load : Loader Scalar Bool} (loader : load = readConfig env file ∨ load = createCameras env file)
    (content : env.files file = .value j) (wellFormed : WellFormedCalibrations j)
    (loaded : load.run world = .ok true after) :
    ∃ created, List.Forall₂ SharesDefaults (cameraEntries j) created ∧
      after.cameras = world.cameras ++ created ∧
      ((∀ camera ∈ cameraEntries j, ∀ block, Names j camera block → ZeroBlock env block) →
        DefaultsZero world.store → DefaultsZero after.store) := by
  have object : j.isObject = true := by
    obtain ⟨members, present, _⟩ := wellFormed
    exact Json.isObject_of_count ((Json.count_pos_iff _ _).mpr ⟨_, present⟩)
  have opened : loadJson env file = pure (some j) := by
    rw [loadJson, content]
    simp [object]
  -- Both loaders end with the same camera loop, from a world with the same buffers.
  have loop : ∃ middle : World Scalar, middle.buffers = world.buffers ∧
      (createCameras.addCameras env file j).run middle = .ok () after := by
    rcases loader with rfl | rfl
    · simp only [readConfig, opened, pure_bind, selectMode_eq, addCameras_eq] at loaded
      cases chosen : (initNT.selectMode env file j).run world with
      | error e failed =>
          rw [run_bind_of_error chosen] at loaded
          cases loaded
      | ok continues middle =>
          rw [run_bind_of_ok chosen] at loaded
          cases continues with
          | false => cases loaded
          | true =>
              obtain ⟨created, next, done, _⟩ := addCameras_run env file wellFormed middle
              rw [if_pos rfl, run_bind_of_ok done] at loaded
              cases loaded
              exact ⟨middle, (selectMode_keeps env file j).of_ok chosen, done⟩
    · simp only [createCameras, opened, pure_bind] at loaded
      obtain ⟨created, next, done, _⟩ := addCameras_run env file wellFormed world
      rw [run_bind_of_ok done] at loaded
      cases loaded
      exact ⟨world, rfl, done⟩
  obtain ⟨middle, same, done⟩ := loop
  obtain ⟨created, next, again, pairs, vector, kept⟩ := addCameras_run env file wellFormed middle
  rw [done] at again
  cases again
  refine ⟨created, pairs, vector.trans ?_, fun zero start => kept zero ?_⟩
  · rw [show middle.cameras = world.cameras from congrArg Prod.snd same]
  · rw [show middle.store = world.store from congrArg Prod.fst same]
    exact start

/-- The created cameras report the right numbers exactly when every named block is zero: all cameras
of a load share the buffers of the static defaults. -/
theorem calibrationsLoaded_iff [Zero Scalar] {file : String} {j : Json} {world after : World Scalar}
    {load : Loader Scalar Bool} (loader : load = readConfig env file ∨ load = createCameras env file)
    (content : env.files file = .value j) (wellFormed : WellFormedCalibrations j)
    (start : DefaultsZero world.store) (loaded : load.run world = .ok true after) :
    CalibrationsLoaded env j world after ↔
      ∀ camera ∈ cameraEntries j, ∀ block, Names j camera block → ZeroBlock env block := by
  obtain ⟨created, pairs, vector, kept⟩ := load_run env loader content wellFormed loaded
  have appended : after.cameras.drop world.cameras.length = created := by
    rw [vector, List.drop_left]
  constructor
  · intro correct entry member block names
    obtain ⟨camera, present, shares⟩ := created_of_entry pairs member
    have reports := correct.named camera (appended ▸ present) block (shares.config ▸ names)
    constructor
    · intro row inRows col inCols
      rw [reports.cameraMatrix row inRows col inCols, shares.cameraMatrix,
        correct.defaults.cameraMatrix row inRows col inCols]
    · intro col inCols
      rw [reports.distortion col inCols, shares.distortion, correct.defaults.distortion col inCols]
  · intro zero
    have defaults := kept zero start
    refine ⟨?_, ?_, defaults⟩
    · intro camera member block names
      obtain ⟨entry, present, shares⟩ := entry_of_created pairs (appended ▸ member)
      have zeros := zero entry present block (shares.config ▸ names)
      constructor
      · intro row inRows col inCols
        rw [zeros.cameraMatrix row inRows col inCols, shares.cameraMatrix,
          defaults.cameraMatrix row inRows col inCols]
      · intro col inCols
        rw [zeros.distortion col inCols, shares.distortion, defaults.distortion col inCols]
    · intro camera member _
      obtain ⟨entry, _, shares⟩ := entry_of_created pairs (appended ▸ member)
      constructor
      · intro row inRows col inCols
        rw [shares.cameraMatrix, defaults.cameraMatrix row inRows col inCols]
      · intro col inCols
        rw [shares.distortion, defaults.distortion col inCols]

/-- These are the numbers of one row of a calibration array. -/
def numberRow (values : List Int) : Json := .array (values.map fun value => .number (.integer value))

def wideBlock : Json := .object [
  ("camera_matrix", .array [numberRow [600, 0, 320], numberRow [0, 600, 240], numberRow [0, 0, 1]]),
  ("distortion", .array [numberRow [2, 0, 0, 0, 1]])]

/-- The first camera names a calibration block, and the second one names none. -/
def twoCameras : Json := .object [
  ("calibrations", .object [("wide", wideBlock)]),
  ("cameras", .array [
    .object [("calibration", .string "wide"), ("name", .string "left"), ("path", .string "/dev/video0")],
    .object [("name", .string "right"), ("path", .string "/dev/video1")]])]

/-- The small integers of the example are exact in `float`. -/
def twoCamerasEnv : Environment Int where
  toFloat
    | .integer value => value
    | .decimal value => value.floor
  liveMode _ := ⟨.kMJPEG, 640, 480, 30⟩
  files _ := .value twoCameras
  clientVersion := 4

def emptyWorld : World Int := ⟨fun _ _ => 0, [], [], []⟩

theorem twoCameras_wellFormed : WellFormedCalibrations twoCameras := by
  refine ⟨_, rfl, ?_⟩
  have block : WellFormedBlock wideBlock :=
    ⟨⟨_, rfl, _, rfl, rfl, by simp [numberRow]⟩, ⟨_, rfl, _, rfl, rfl, by simp [numberRow]⟩⟩
  simpa using block

theorem emptyWorld_zero : DefaultsZero emptyWorld.store :=
  ⟨fun _ _ _ _ => rfl, fun _ _ => rfl⟩

/-- This is the world after both cameras have been created. -/
def twoCamerasLoaded : World Int :=
  finalState ((createCameras twoCamerasEnv "frc.json").run emptyWorld)

/-- One calibrated camera rewrites the defaults, and the other camera reports its numbers. -/
theorem twoCameras_not_loaded :
    twoCamerasEnv.files "frc.json" = .value twoCameras ∧ WellFormedCalibrations twoCameras ∧
      DefaultsZero emptyWorld.store ∧
      (createCameras twoCamerasEnv "frc.json").run emptyWorld = .ok true twoCamerasLoaded ∧
      ¬ CalibrationsLoaded twoCamerasEnv twoCameras emptyWorld twoCamerasLoaded := by
  refine ⟨rfl, twoCameras_wellFormed, emptyWorld_zero, rfl, fun correct => ?_⟩
  have changed : defaultMatrix.get twoCamerasLoaded.store 0 0 = 600 := rfl
  have zero := correct.defaults.cameraMatrix 0 (by decide) 0 (by decide)
  rw [changed] at zero
  cases zero

/-- The exact condition applies to the two cameras. -/
theorem twoCameras_loaded_iff :
    CalibrationsLoaded twoCamerasEnv twoCameras emptyWorld twoCamerasLoaded ↔
      ∀ camera ∈ cameraEntries twoCameras, ∀ block, Names twoCameras camera block →
        ZeroBlock twoCamerasEnv block :=
  calibrationsLoaded_iff twoCamerasEnv (Or.inr rfl) (show twoCamerasEnv.files "frc.json" = _ from rfl)
    twoCameras_wellFormed emptyWorld_zero rfl

end VisionServer.Config
