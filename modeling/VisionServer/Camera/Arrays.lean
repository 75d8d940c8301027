/-
This file models the functions that fill or replace the calibration arrays of a camera.
-/

import VisionServer.Camera.Calibration

namespace VisionServer.Camera
open Library

variable {Scalar : Type} (env : Environment Scalar)

/-- Both functions fill an array from one key of the calibration and then report success. -/
def getJsonArray (read : Json → Except JsonException Scalar) (key : String) (rows cols : Nat)
    (calibration : Json) (array : Mat) : Loader Scalar Bool :=
  if calibration.isObject then do
    try
      let matx ← liftExcept (calibration.atKey key)
      fillWith read array matx rows cols
    catch e => errs ("Failed to parse camera matrix: " ++ e.what)
    return true
  else
    return false

/-- This is `getJsonCameraMatrix` for `double`. -/
def getJsonCameraMatrixDouble (toDouble : JsonNumber → Scalar) (calibration : Json) (array : Mat) :
    Loader Scalar Bool :=
  getJsonArray (Json.getDouble toDouble) "camera_matrix" 3 3 calibration array

/-- This is `getJsonDistortionCoefs` for `double`. -/
def getJsonDistortionCoefsDouble (toDouble : JsonNumber → Scalar) (calibration : Json)
    (array : Mat) : Loader Scalar Bool :=
  getJsonArray (Json.getDouble toDouble) "distortion" 1 5 calibration array

/-- The functions for `float` have the same body. -/
theorem getJsonCameraMatrix_eq (calibration : Json) (array : Mat) :
    getJsonCameraMatrix env calibration array =
      getJsonArray (Json.getFloat env.toFloat) "camera_matrix" 3 3 calibration array := rfl

theorem getJsonDistortionCoefs_eq (calibration : Json) (array : Mat) :
    getJsonDistortionCoefs env calibration array =
      getJsonArray (Json.getFloat env.toFloat) "distortion" 1 5 calibration array := rfl

/-- A matrix that is passed to a camera may be a part of a larger one. -/
structure CalibMat extends Mat where
  continuous : Bool
deriving DecidableEq

/-- A load ends with an exception of the JSON library or of the image library, and `back` of an
empty vector has no result. -/
inductive LoadException where
  | json (exception : JsonException)
  | badStep
  | emptyBack
deriving DecidableEq

/-- This is `reshape(0, rows)`, which keeps the row count of a matrix with gaps. -/
def CalibMat.reshape (mat : CalibMat) (rows : Nat) : Except LoadException Mat :=
  if rows ≠ mat.rows ∧ mat.continuous = false then .error .badStep
  else .ok ⟨mat.buffer, rows, mat.rows * mat.cols / rows⟩

namespace VisionCamera

/-- A matrix of another area is refused. -/
def setCameraMatrix (camera : VisionCamera) (mat : CalibMat) :
    Except LoadException (VisionCamera × Bool) :=
  if mat.rows * mat.cols ≠ defaultMatrix.rows * defaultMatrix.cols then .ok (camera, false)
  else do
    let cameraMatrix ← mat.reshape 3
    return ({ camera with cameraMatrix }, true)

def setDistortionCoefs (camera : VisionCamera) (mat : CalibMat) :
    Except LoadException (VisionCamera × Bool) :=
  if mat.rows * mat.cols ≠ defaultDistort.rows * defaultDistort.cols then .ok (camera, false)
  else do
    let distortion ← mat.reshape 1
    return ({ camera with distortion }, true)

/-- The distortion is read only when the camera matrix is reported as filled. -/
def setCalibrationJson (camera : VisionCamera) (j : Json) : Loader Scalar (VisionCamera × Bool) :=
  if !j.isObject then return (camera, false)
  else do
    let filled : VisionCamera := { camera with calibration := j }
    if ← getJsonCameraMatrix env filled.calibration filled.cameraMatrix then
      return (filled, ← getJsonDistortionCoefs env filled.calibration filled.distortion)
    else return (filled, false)

end VisionCamera

/-- The calibration has this value at a position of an array. -/
def EntryAt (calibration : Json) (key : String) (row col : Nat) (entry : Json) : Prop :=
  (do (← (← calibration.atKey key).atIndex row).atIndex col) = .ok entry

/-- The calibration contains a number at each documented position. -/
def Complete (calibration : Json) (key : String) (rows cols : Nat) : Prop :=
  ∀ row < rows, ∀ col < cols, ∃ number, EntryAt calibration key row col (.number number)

/-- The array holds exactly the numbers of the calibration. -/
def Holds (convert : JsonNumber → Scalar) (calibration : Json) (key : String) (rows cols : Nat)
    (array : Mat) (store : Store Scalar) : Prop :=
  ∀ row < rows, ∀ col < cols, ∃ number, EntryAt calibration key row col (.number number) ∧
    array.get store row col = convert number

/-- The result tells whether the array holds the calibration, and a failed call changes nothing. -/
def ReportsFilling (convert : JsonNumber → Scalar) (calibration : Json) (key : String)
    (rows cols : Nat) (array : Mat) (load : Loader Scalar Bool) (world : World Scalar) : Prop :=
  ∃ filled after, load.run world = .ok filled after ∧
    (filled = true ↔ Complete calibration key rows cols) ∧
    (filled = true → Holds convert calibration key rows cols array after.store) ∧
    (filled = false → after.store = world.store)

/-- A read entry belongs to an object. -/
theorem EntryAt.isObject {calibration : Json} {key : String} {row col : Nat} {entry : Json}
    (found : EntryAt calibration key row col entry) : calibration.isObject = true := by
  cases calibration with
  | object members => rfl
  | _ => cases found

/-- A position has at most one value. -/
theorem EntryAt.unique {calibration : Json} {key : String} {row col : Nat} {first second : Json}
    (found : EntryAt calibration key row col first)
    (again : EntryAt calibration key row col second) : first = second := by
  rw [EntryAt, found] at again
  exact Except.ok.inj again

/-- This is the number that the loops store at a position. -/
def entryNumber (read : Json → Except JsonException Scalar) (array : Mat) (store : Store Scalar)
    (calibration : Json) (key : String) (row col : Nat) : Scalar :=
  match (do read (← (← (← calibration.atKey key).atIndex row).atIndex col)) with
  | .ok value => value
  | .error _ => array.get store row col

theorem entryNumber_of_entryAt {read : Json → Except JsonException Scalar}
    {convert : JsonNumber → Scalar} (numeric : ∀ number, read (.number number) = .ok (convert number))
    {array : Mat} {store : Store Scalar} {calibration : Json} {key : String} {row col : Nat}
    {number : JsonNumber} (found : EntryAt calibration key row col (.number number)) :
    entryNumber read array store calibration key row col = convert number := by
  have value : (do read (← (← (← calibration.atKey key).atIndex row).atIndex col)) =
      (do (← (← calibration.atKey key).atIndex row).atIndex col) >>= read := by
    simp only [bind_assoc]
  rw [entryNumber, value, found]
  simp only [bind, Except.bind, numeric]

/-- The call on an object always reports success. -/
theorem getJsonArray_object {read : Json → Except JsonException Scalar} {key : String}
    {rows cols : Nat} {calibration : Json} (object : calibration.isObject = true) (array : Mat)
    (world : World Scalar) :
    ∃ after, (getJsonArray read key rows cols calibration array).run world = .ok true after := by
  rw [getJsonArray, if_pos object]
  obtain ⟨value, after, done⟩ := Total.tryCatch (do
    let matx ← liftExcept (calibration.atKey key)
    fillWith read array matx rows cols : Loader Scalar Unit) (fun e => Total.modify _) world
  exact ⟨after, run_bind_of_ok done _⟩

/-- A complete calibration fills the whole array. -/
theorem getJsonArray_complete {read : Json → Except JsonException Scalar}
    {convert : JsonNumber → Scalar} (numeric : ∀ number, read (.number number) = .ok (convert number))
    {key : String} {rows cols : Nat} (someRow : 0 < rows) (someCol : 0 < cols) {calibration : Json}
    (complete : Complete calibration key rows cols) (array : Mat) (world : World Scalar) :
    (getJsonArray read key rows cols calibration array).run world = .ok true { world with
      store := writeRows array cols (entryNumber read array world.store calibration key) rows
        world.store } := by
  have object : calibration.isObject = true := by
    obtain ⟨number, found⟩ := complete 0 someRow 0 someCol
    exact found.isObject
  cases present : calibration.atKey key with
  | error e =>
      obtain ⟨number, found⟩ := complete 0 someRow 0 someCol
      simp [EntryAt, present, bind, Except.bind] at found
  | ok matx =>
      have every : ∀ row < rows, ∀ col < cols, (do read (← (← matx.atIndex row).atIndex col)) =
          (.ok (entryNumber read array world.store calibration key row col) :
            Except JsonException Scalar) := by
        intro row inRows col inCols
        obtain ⟨number, found⟩ := complete row inRows col inCols
        rw [entryNumber_of_entryAt numeric found]
        have entry : (do (← matx.atIndex row).atIndex col) =
            (.ok (.number number) : Except JsonException Json) := by
          rw [EntryAt, present] at found
          exact found
        have value : (do read (← (← matx.atIndex row).atIndex col)) =
            (do (← matx.atIndex row).atIndex col) >>= read := by
          simp only [bind_assoc]
        rw [value, entry]
        exact numeric number
      have filled := fillWith_run array every world
      simp only [getJsonArray, object, if_true, present, EStateM.run_bind, run_tryCatch,
        run_liftExcept_ok, filled]
      rfl

/-- A filled array holds the numbers of a complete calibration. -/
theorem holds_writeRows {read : Json → Except JsonException Scalar}
    {convert : JsonNumber → Scalar} (numeric : ∀ number, read (.number number) = .ok (convert number))
    {key : String} {rows cols : Nat} {calibration : Json}
    (complete : Complete calibration key rows cols) (buffer : Nat) (store : Store Scalar) :
    Holds convert calibration key rows cols ⟨buffer, rows, cols⟩ (writeRows ⟨buffer, rows, cols⟩ cols
      (entryNumber read ⟨buffer, rows, cols⟩ store calibration key) rows store) := by
  intro row inRows col inCols
  obtain ⟨number, found⟩ := complete row inRows col inCols
  refine ⟨number, found, ?_⟩
  exact (writeRows_get ⟨buffer, rows, cols⟩ _ store inCols).trans
    ((if_pos inRows).trans (entryNumber_of_entryAt numeric found))

/-- The result of a call is right exactly for a complete calibration and for no object at all. -/
theorem reportsFilling_iff {read : Json → Except JsonException Scalar}
    {convert : JsonNumber → Scalar} (numeric : ∀ number, read (.number number) = .ok (convert number))
    {key : String} {rows cols : Nat} (someRow : 0 < rows) (someCol : 0 < cols) (calibration : Json)
    (buffer : Nat) (world : World Scalar) :
    ReportsFilling convert calibration key rows cols ⟨buffer, rows, cols⟩
        (getJsonArray read key rows cols calibration ⟨buffer, rows, cols⟩) world ↔
      calibration.isObject = false ∨ Complete calibration key rows cols := by
  constructor
  · intro reports
    cases object : calibration.isObject with
    | false => exact .inl rfl
    | true =>
        obtain ⟨filled, after, done, exact, _, _⟩ := reports
        obtain ⟨final, again⟩ : ∃ final, (getJsonArray read key rows cols calibration
            ⟨buffer, rows, cols⟩).run world = .ok true final := getJsonArray_object object _ _
        rw [again] at done
        cases done
        exact .inr (exact.mp rfl)
  · intro given
    cases object : calibration.isObject with
    | false =>
        have incomplete : ¬ Complete calibration key rows cols := by
          intro complete
          obtain ⟨number, found⟩ := complete 0 someRow 0 someCol
          rw [found.isObject] at object
          cases object
        refine ⟨false, world, ?_, ?_, fun filled => (nomatch filled), fun _ => rfl⟩
        · simp [getJsonArray, object]
        · simp [incomplete]
    | true =>
        have complete : Complete calibration key rows cols := by
          rcases given with given | complete
          · rw [object] at given
            cases given
          · exact complete
        refine ⟨true, _, getJsonArray_complete numeric someRow someCol complete _ world,
          by simp [complete], fun _ => ?_, fun failed => nomatch failed⟩
        exact holds_writeRows numeric complete buffer world.store

/-- A call that returns true has replaced both matrices of the camera. -/
def ReportsReplacement (j : Json) (camera : VisionCamera) (world : World Scalar) : Prop :=
  ∀ changed after, (camera.setCalibrationJson env j).run world = .ok (changed, true) after →
    Holds env.toFloat j "camera_matrix" 3 3 changed.cameraMatrix after.store ∧
      Holds env.toFloat j "distortion" 1 5 changed.distortion after.store

/-- The distortion is stored beside the camera matrix, or it repeats the first five numbers. -/
def Undisturbed (j : Json) (camera : VisionCamera) : Prop :=
  camera.cameraMatrix.buffer ≠ camera.distortion.buffer ∨
    ∀ row < 3, ∀ col < 3, row * 3 + col < 5 → ∀ first second,
      EntryAt j "camera_matrix" row col (.number first) →
      EntryAt j "distortion" 0 (row * 3 + col) (.number second) →
        env.toFloat first = env.toFloat second

theorem getFloat_number (number : JsonNumber) :
    Json.getFloat env.toFloat (.number number) = .ok (env.toFloat number) := rfl

theorem getDouble_number (toDouble : JsonNumber → Scalar) (number : JsonNumber) :
    Json.getDouble toDouble (.number number) = .ok (toDouble number) := rfl

/-- On an object the call fills both arrays in turn. -/
theorem setCalibrationJson_run {j : Json} (object : j.isObject = true) (camera : VisionCamera)
    {world middle after : World Scalar} {filled : Bool}
    (matrix : (getJsonCameraMatrix env j camera.cameraMatrix).run world = .ok true middle)
    (coefs : (getJsonDistortionCoefs env j camera.distortion).run middle = .ok filled after) :
    (camera.setCalibrationJson env j).run world =
      .ok ({ camera with calibration := j }, filled) after := by
  have negated : ¬ (!j.isObject) = true := by simp [object]
  rw [VisionCamera.setCalibrationJson, if_neg negated, run_bind_of_ok matrix, if_pos rfl,
    run_bind_of_ok coefs]
  rfl

/-- The call on an object always reports the replacement. -/
theorem setCalibrationJson_object {j : Json} (object : j.isObject = true) (camera : VisionCamera)
    (world : World Scalar) :
    ∃ after, (camera.setCalibrationJson env j).run world =
      .ok ({ camera with calibration := j }, true) after := by
  obtain ⟨middle, matrix⟩ : ∃ middle, (getJsonCameraMatrix env j camera.cameraMatrix).run world =
      .ok true middle := getJsonArray_object object _ _
  obtain ⟨after, coefs⟩ : ∃ after, (getJsonDistortionCoefs env j camera.distortion).run middle =
      .ok true after := getJsonArray_object object _ _
  exact ⟨after, setCalibrationJson_run env object camera matrix coefs⟩

/-- A complete calibration is stored row by row, the distortion after the camera matrix. -/
theorem setCalibrationJson_complete {j : Json} (matrix : Complete j "camera_matrix" 3 3)
    (coefs : Complete j "distortion" 1 5) (camera : VisionCamera) (world : World Scalar) :
    ∃ values later : Nat → Nat → Scalar,
      (camera.setCalibrationJson env j).run world = .ok ({ camera with calibration := j }, true)
        { world with
          store := writeRows camera.distortion 5 later 1
            (writeRows camera.cameraMatrix 3 values 3 world.store) } ∧
      (∀ row col number, EntryAt j "camera_matrix" row col (.number number) →
        values row col = env.toFloat number) ∧
      ∀ row col number, EntryAt j "distortion" row col (.number number) →
        later row col = env.toFloat number := by
  obtain ⟨number, found⟩ := matrix 0 (by decide) 0 (by decide)
  refine ⟨_, _, setCalibrationJson_run env found.isObject camera
    (getJsonArray_complete (getFloat_number env) (by decide) (by decide) matrix _ world)
    (getJsonArray_complete (getFloat_number env) (by decide) (by decide) coefs _ _), ?_, ?_⟩
  · intro row col entry present
    exact entryNumber_of_entryAt (getFloat_number env) present
  · intro row col entry present
    exact entryNumber_of_entryAt (getFloat_number env) present

/-- A complete calibration is held by arrays that do not disturb each other. -/
theorem holds_of_undisturbed {j : Json} (matrix : Complete j "camera_matrix" 3 3)
    (coefs : Complete j "distortion" 1 5) {camera : VisionCamera} {matrixBuffer distortBuffer : Nat}
    (first : camera.cameraMatrix = ⟨matrixBuffer, 3, 3⟩)
    (second : camera.distortion = ⟨distortBuffer, 1, 5⟩) (undisturbed : Undisturbed env j camera)
    {values later : Nat → Nat → Scalar} (store : Store Scalar)
    (stored : ∀ row col number, EntryAt j "camera_matrix" row col (.number number) →
      values row col = env.toFloat number)
    (storedLater : ∀ row col number, EntryAt j "distortion" row col (.number number) →
      later row col = env.toFloat number) :
    Holds env.toFloat j "camera_matrix" 3 3 camera.cameraMatrix
        (writeRows camera.distortion 5 later 1 (writeRows camera.cameraMatrix 3 values 3 store)) ∧
      Holds env.toFloat j "distortion" 1 5 camera.distortion
        (writeRows camera.distortion 5 later 1 (writeRows camera.cameraMatrix 3 values 3 store)) := by
  rw [Undisturbed, first, second] at undisturbed
  rw [first, second]
  constructor
  · intro row inRows col inCols
    obtain ⟨number, found⟩ := matrix row inRows col inCols
    refine ⟨number, found, ?_⟩
    have written : (⟨matrixBuffer, 3, 3⟩ : Mat).get
        (writeRows ⟨matrixBuffer, 3, 3⟩ 3 values 3 store) row col = env.toFloat number :=
      (writeRows_get ⟨matrixBuffer, 3, 3⟩ values store inCols).trans
        ((if_pos inRows).trans (stored row col number found))
    by_cases shared : matrixBuffer = distortBuffer
    · subst shared
      -- The second array reads the shared buffer in rows of five.
      have position : (⟨matrixBuffer, 3, 3⟩ : Mat).get (writeRows ⟨matrixBuffer, 1, 5⟩ 5 later 1
            (writeRows ⟨matrixBuffer, 3, 3⟩ 3 values 3 store)) row col =
          (⟨matrixBuffer, 1, 5⟩ : Mat).get (writeRows ⟨matrixBuffer, 1, 5⟩ 5 later 1
            (writeRows ⟨matrixBuffer, 3, 3⟩ 3 values 3 store))
            ((row * 3 + col) / 5) ((row * 3 + col) % 5) := by
        rw [Mat.get, Mat.get, Nat.div_add_mod']
      rw [position, writeRows_get ⟨matrixBuffer, 1, 5⟩ later _
        (Nat.mod_lt _ (show 0 < 5 by decide))]
      by_cases overwritten : row * 3 + col < 5
      · have zero : (row * 3 + col) / 5 = 0 := Nat.div_eq_of_lt overwritten
        rw [zero, Nat.mod_eq_of_lt overwritten, if_pos (by decide)]
        obtain ⟨other, foundLater⟩ := coefs 0 (by decide) (row * 3 + col) overwritten
        rw [storedLater 0 _ other foundLater]
        rcases undisturbed with apart | same
        · exact absurd rfl apart
        · exact (same row inRows col inCols overwritten number other found foundLater).symm
      · have below : ¬ (row * 3 + col) / 5 < 1 := by omega
        rw [if_neg below, ← written, Mat.get, Mat.get, Nat.div_add_mod']
    · have apart : matrixBuffer ≠ (⟨distortBuffer, 1, 5⟩ : Mat).buffer := shared
      rw [← written, Mat.get, Mat.get, writeRows_other later 1 _ apart]
  · intro row inRows col inCols
    obtain ⟨number, found⟩ := coefs row inRows col inCols
    exact ⟨number, found, (writeRows_get ⟨distortBuffer, 1, 5⟩ later _ inCols).trans
      ((if_pos inRows).trans (storedLater row col number found))⟩

/-- A call on an object reports the truth exactly when the calibration is complete and the second
array does not overwrite the first one. -/
theorem reportsReplacement_iff (j : Json) {camera : VisionCamera} {matrixBuffer distortBuffer : Nat}
    (first : camera.cameraMatrix = ⟨matrixBuffer, 3, 3⟩)
    (second : camera.distortion = ⟨distortBuffer, 1, 5⟩) (world : World Scalar) :
    ReportsReplacement env j camera world ↔
      j.isObject = false ∨ Complete j "camera_matrix" 3 3 ∧ Complete j "distortion" 1 5 ∧
        Undisturbed env j camera := by
  constructor
  · intro reports
    cases object : j.isObject with
    | false => exact .inl rfl
    | true =>
        obtain ⟨after, done⟩ := setCalibrationJson_object env object camera world
        obtain ⟨matrix, coefs⟩ := reports _ after done
        refine .inr ⟨fun row inRows col inCols => ?_, fun row inRows col inCols => ?_, ?_⟩
        · obtain ⟨number, found, _⟩ := matrix row inRows col inCols
          exact ⟨number, found⟩
        · obtain ⟨number, found, _⟩ := coefs row inRows col inCols
          exact ⟨number, found⟩
        · by_cases shared : camera.cameraMatrix.buffer = camera.distortion.buffer
          · refine .inr fun row inRows col inCols inside entry later found foundLater => ?_
            obtain ⟨number, again, held⟩ := matrix row inRows col inCols
            obtain ⟨other, againLater, heldLater⟩ := coefs 0 (by decide) _ inside
            cases found.unique again
            cases foundLater.unique againLater
            rw [first, second] at shared
            change matrixBuffer = distortBuffer at shared
            rw [← held, ← heldLater, Mat.get, Mat.get, first, second, shared, Nat.zero_mul,
              Nat.zero_add]
          · exact .inl shared
  · intro given changed after done
    rcases given with given | ⟨matrix, coefs, undisturbed⟩
    · have refused : (camera.setCalibrationJson env j).run world = .ok (camera, false) world := by
        simp [VisionCamera.setCalibrationJson, given]
      rw [refused] at done
      cases done
    · obtain ⟨values, later, stored, first', second'⟩ :=
        setCalibrationJson_complete env matrix coefs camera world
      rw [stored] at done
      cases done
      exact holds_of_undisturbed env matrix coefs first second undisturbed world.store first' second'

/-- Each result tells the truth exactly when the calibration is complete or no object: a fill that
stops midway is reported as a success. -/
theorem calibrationReports_iff {Double : Type} (toDouble : JsonNumber → Double)
    (calibration : Json) (buffer : Nat) (world : World Scalar) (doubles : World Double)
    (camera : VisionCamera) (matrixBuffer distortBuffer : Nat) :
    (ReportsFilling env.toFloat calibration "camera_matrix" 3 3 ⟨buffer, 3, 3⟩
        (getJsonCameraMatrix env calibration ⟨buffer, 3, 3⟩) world ↔
      calibration.isObject = false ∨ Complete calibration "camera_matrix" 3 3) ∧
    (ReportsFilling env.toFloat calibration "distortion" 1 5 ⟨buffer, 1, 5⟩
        (getJsonDistortionCoefs env calibration ⟨buffer, 1, 5⟩) world ↔
      calibration.isObject = false ∨ Complete calibration "distortion" 1 5) ∧
    (ReportsFilling toDouble calibration "camera_matrix" 3 3 ⟨buffer, 3, 3⟩
        (getJsonCameraMatrixDouble toDouble calibration ⟨buffer, 3, 3⟩) doubles ↔
      calibration.isObject = false ∨ Complete calibration "camera_matrix" 3 3) ∧
    (ReportsFilling toDouble calibration "distortion" 1 5 ⟨buffer, 1, 5⟩
        (getJsonDistortionCoefsDouble toDouble calibration ⟨buffer, 1, 5⟩) doubles ↔
      calibration.isObject = false ∨ Complete calibration "distortion" 1 5) ∧
    (ReportsReplacement env calibration { camera with
        cameraMatrix := ⟨matrixBuffer, 3, 3⟩, distortion := ⟨distortBuffer, 1, 5⟩ } world ↔
      calibration.isObject = false ∨ Complete calibration "camera_matrix" 3 3 ∧
        Complete calibration "distortion" 1 5 ∧ Undisturbed env calibration { camera with
          cameraMatrix := ⟨matrixBuffer, 3, 3⟩, distortion := ⟨distortBuffer, 1, 5⟩ }) := by
  refine ⟨?_, ?_, ?_, ?_, ?_⟩
  · rw [getJsonCameraMatrix_eq]
    exact reportsFilling_iff (getFloat_number env) (by decide) (by decide) calibration buffer world
  · rw [getJsonDistortionCoefs_eq]
    exact reportsFilling_iff (getFloat_number env) (by decide) (by decide) calibration buffer world
  · exact reportsFilling_iff (getDouble_number toDouble) (by decide) (by decide) calibration buffer
      doubles
  · exact reportsFilling_iff (getDouble_number toDouble) (by decide) (by decide) calibration buffer
      doubles
  · exact reportsReplacement_iff env calibration rfl rfl world

/-- The calibration has one row of the camera matrix and nothing else. -/
def shortBlock : Json := .object [("camera_matrix", .array [.array [
  .number (.integer 600), .number (.integer 0), .number (.integer 320)]])]

/-- The integers of the example are exact. -/
def shortBlockEnv : Environment Int where
  toFloat
    | .integer value => value
    | .decimal value => value.floor
  liveMode _ := .default
  files _ := .value shortBlock
  clientVersion := 4

/-- One row of the camera matrix is stored, and the call reports a filled array. -/
theorem shortBlock_not_reports :
    ¬ ReportsFilling shortBlockEnv.toFloat shortBlock "camera_matrix" 3 3 ⟨7, 3, 3⟩
      (getJsonCameraMatrix shortBlockEnv shortBlock ⟨7, 3, 3⟩) ⟨fun _ _ => 0, [], [], []⟩ := by
  intro reports
  obtain ⟨filled, after, done, exact, _, _⟩ := reports
  cases done
  obtain ⟨number, found⟩ := exact.mp rfl 1 (by decide) 0 (by decide)
  cases found

end VisionServer.Camera
