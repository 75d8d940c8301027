/-
This file follows calibration numbers from a JSON block into the matrix buffers.
-/

import VisionServer.Camera.Construct
import Mathlib.Tactic.Linarith

namespace VisionServer.Camera
open Library

variable {Scalar : Type} (env : Environment Scalar)

/-- The value holds an array of numbers with the given shape. -/
def IsNumericArray (rows cols : Nat) (matx : Json) : Prop :=
  ∃ lines, matx = .array lines ∧ lines.length = rows ∧
    ∀ line ∈ lines, ∃ entries, line = .array entries ∧ entries.length = cols ∧
      ∀ entry ∈ entries, ∃ number, entry = .number number

/-- The block holds a 3x3 camera matrix and a 1x5 distortion. -/
structure WellFormedBlock (block : Json) : Prop where
  cameraMatrix : ∃ matx, block.atKey "camera_matrix" = .ok matx ∧ IsNumericArray 3 3 matx
  distortion : ∃ matx, block.atKey "distortion" = .ok matx ∧ IsNumericArray 1 5 matx

/-- This is the number that the code reads at a position of a calibration array. -/
def readEntry (block : Json) (key : String) (row col : Nat) : Except JsonException Scalar := do
  let matx ← block.atKey key
  (← (← matx.atIndex row).atIndex col).getFloat env.toFloat

/-- An array with a numeric shape yields a number at each position. -/
theorem IsNumericArray.entry {rows cols : Nat} {matx : Json} (shape : IsNumericArray rows cols matx)
    {row col : Nat} (inRows : row < rows) (inCols : col < cols) :
    ∃ number, (do (← (← matx.atIndex row).atIndex col).getFloat env.toFloat) =
      (.ok (env.toFloat number) : Except JsonException Scalar) := by
  obtain ⟨lines, rfl, lineCount, everyLine⟩ := shape
  have rowValid : row < lines.length := lineCount ▸ inRows
  obtain ⟨entries, lineEq, entryCount, everyEntry⟩ := everyLine _ (List.getElem_mem rowValid)
  have colValid : col < entries.length := entryCount ▸ inCols
  obtain ⟨number, entryEq⟩ := everyEntry _ (List.getElem_mem colValid)
  refine ⟨number, ?_⟩
  simp [Json.atIndex, List.getElem?_eq_getElem rowValid, lineEq,
    List.getElem?_eq_getElem colValid, entryEq, Json.getFloat, bind, Except.bind]

/-- This store holds the first entries of one row. -/
def writeRow (array : Mat) (row : Nat) (values : Nat → Scalar) : Nat → Store Scalar → Store Scalar
  | 0, store => store
  | count + 1, store => array.set row count (values count) (writeRow array row values count store)

/-- This store holds the first rows. -/
def writeRows (array : Mat) (cols : Nat) (values : Nat → Nat → Scalar) :
    Nat → Store Scalar → Store Scalar
  | 0, store => store
  | count + 1, store =>
      writeRow array count (values count) cols (writeRows array cols values count store)

/-- Positions inside the columns name different places of the buffer. -/
theorem Mat.get_set {array : Mat} {row col otherRow otherCol : Nat} (value : Scalar)
    (store : Store Scalar) (inCols : col < array.cols) (otherInCols : otherCol < array.cols) :
    array.get (array.set row col value store) otherRow otherCol =
      if otherRow = row ∧ otherCol = col then value else array.get store otherRow otherCol := by
  have same : otherRow * array.cols + otherCol = row * array.cols + col ↔
      otherRow = row ∧ otherCol = col := by
    constructor
    · intro equal
      have rows : otherRow = row := by
        rcases Nat.lt_trichotomy otherRow row with below | equal' | above
        · nlinarith
        · exact equal'
        · nlinarith
      subst rows
      exact ⟨rfl, by omega⟩
    · intro given
      obtain ⟨rfl, rfl⟩ := given
      rfl
  simp only [Mat.get, Mat.set, true_and, same]

theorem Mat.set_other {array : Mat} {row col : Nat} (value : Scalar) (store : Store Scalar)
    {buffer : Nat} (other : buffer ≠ array.buffer) :
    array.set row col value store buffer = store buffer := by
  funext position
  simp [Mat.set, other]

theorem writeRow_get {array : Mat} {row : Nat} (values : Nat → Scalar) {count : Nat}
    (store : Store Scalar) (fits : count ≤ array.cols) {otherRow col : Nat}
    (inCols : col < array.cols) :
    array.get (writeRow array row values count store) otherRow col =
      if otherRow = row ∧ col < count then values col else array.get store otherRow col := by
  induction count with
  | zero => simp [writeRow]
  | succ count ih =>
      rw [writeRow, Mat.get_set _ _ (by omega) inCols, ih (by omega)]
      by_cases last : col = count
      · subst last
        by_cases same : otherRow = row <;> simp [same]
      · by_cases same : otherRow = row
        · have bound : col < count + 1 ↔ col < count := by omega
          simp [same, last, bound]
        · simp [same]

theorem writeRow_other {array : Mat} {row : Nat} (values : Nat → Scalar) (count : Nat)
    (store : Store Scalar) {buffer : Nat} (other : buffer ≠ array.buffer) :
    writeRow array row values count store buffer = store buffer := by
  induction count with
  | zero => rfl
  | succ count ih => rw [writeRow, Mat.set_other _ _ other, ih]

theorem writeRows_get (array : Mat) (values : Nat → Nat → Scalar) {count : Nat}
    (store : Store Scalar) {row col : Nat} (inCols : col < array.cols) :
    array.get (writeRows array array.cols values count store) row col =
      if row < count then values row col else array.get store row col := by
  induction count with
  | zero => simp [writeRows]
  | succ count ih =>
      rw [writeRows, writeRow_get _ _ le_rfl inCols, ih]
      by_cases last : row = count
      · simp [last, inCols]
      · have bound : row < count + 1 ↔ row < count := by omega
        simp [last, bound]

theorem writeRows_other {array : Mat} {cols : Nat} (values : Nat → Nat → Scalar) (count : Nat)
    (store : Store Scalar) {buffer : Nat} (other : buffer ≠ array.buffer) :
    writeRows array cols values count store buffer = store buffer := by
  induction count with
  | zero => rfl
  | succ count ih => rw [writeRows, writeRow_other _ _ _ other, ih]

/-- The copies of the loops differ only in the accessor of an entry. -/
def fillWith (read : Json → Except JsonException Scalar) (array : Mat) (matx : Json)
    (rows cols : Nat) : Loader Scalar Unit :=
  forM (List.range rows) fun row => forM (List.range cols) fun col => do
    let value ← liftExcept do read (← (← matx.atIndex row).atIndex col)
    setEntry array row col value

/-- The inner loop writes one row when each position can be read. -/
theorem fillRow_run {read : Json → Except JsonException Scalar} {array : Mat} {matx : Json}
    {row : Nat} {values : Nat → Scalar} {cols : Nat}
    (found : ∀ col < cols, (do read (← (← matx.atIndex row).atIndex col)) =
      (.ok (values col) : Except JsonException Scalar)) (world : World Scalar) :
    (forM (List.range cols) fun col => do
        let value ← liftExcept do read (← (← matx.atIndex row).atIndex col)
        setEntry array row col value : Loader Scalar Unit).run world =
      .ok () { world with store := writeRow array row values cols world.store } := by
  induction cols with
  | zero => rfl
  | succ cols ih =>
      have before := ih fun col inside => found col (by omega)
      rw [List.range_succ, List.forM_append, run_bind_of_ok before]
      simp only [List.forM_cons, List.forM_nil, bind_pure_unit, found cols (by omega)]
      rfl

/-- The loops write every row when each position can be read. -/
theorem fillWith_run {read : Json → Except JsonException Scalar} (array : Mat) {matx : Json}
    {values : Nat → Nat → Scalar} {rows cols : Nat}
    (found : ∀ row < rows, ∀ col < cols, (do read (← (← matx.atIndex row).atIndex col)) =
        (.ok (values row col) : Except JsonException Scalar)) (world : World Scalar) :
    (fillWith read array matx rows cols).run world =
      .ok () { world with store := writeRows array cols values rows world.store } := by
  unfold fillWith
  induction rows with
  | zero => rfl
  | succ rows ih =>
      have before := ih fun row inside => found row (by omega)
      rw [List.range_succ, List.forM_append, run_bind_of_ok before]
      simp only [List.forM_cons, List.forM_nil, bind_pure_unit]
      exact fillRow_run (found rows (by omega)) _

/-- The loops write every row when each position holds a number. -/
theorem fillArray_run (array : Mat) {matx : Json} {values : Nat → Nat → Scalar} {rows cols : Nat}
    (found : ∀ row < rows, ∀ col < cols,
      (do (← (← matx.atIndex row).atIndex col).getFloat env.toFloat) =
        (.ok (values row col) : Except JsonException Scalar)) (world : World Scalar) :
    (fillArray env array matx rows cols).run world =
      .ok () { world with store := writeRows array cols values rows world.store } :=
  fillWith_run array found world

/-- This view holds the matrix buffers and the cameras vector. -/
def World.buffers (world : World Scalar) : Store Scalar × List VisionCamera :=
  (world.store, world.cameras)

theorem emit_keeps (effect : Effect) :
    Keeps World.buffers (emit effect : Loader Scalar Unit) :=
  Keeps.modify fun _ => rfl

theorem openUsbCamera_keeps (sourceConfig : Json) :
    Keeps World.buffers (openUsbCamera sourceConfig : Loader Scalar Nat) := by
  unfold openUsbCamera
  refine Keeps.bind (Keeps.tryCatch ?_ fun e => ?_) fun handle => ?_
  · refine Keeps.bind (Keeps.liftExcept _) fun name => ?_
    exact Keeps.bind (Keeps.liftExcept _) fun path => fun _ => rfl
  · exact Keeps.bind (emit_keeps _) fun _ => Keeps.pure _
  · refine Keeps.bind (Keeps.modify fun world => ?_) fun _ => Keeps.pure _
    cases handle <;> rfl

theorem openUsbCamera_total (sourceConfig : Json) :
    Total (openUsbCamera sourceConfig : Loader Scalar Nat) := by
  refine Total.bind (Total.tryCatch _ fun e => ?_) fun handle => ?_
  · exact Total.bind (Total.modify _) fun _ => Total.pure _
  · exact Total.bind (Total.modify _) fun _ => Total.pure _

/-- The code reads this number, or zero where the block holds none. -/
def entryValue [Zero Scalar] (block : Json) (key : String) (row col : Nat) : Scalar :=
  match readEntry env block key row col with
  | .ok value => value
  | .error _ => 0

/-- These are the buffers after one calibrated construction. -/
def calibrated [Zero Scalar] (block : Json) (store : Store Scalar) : Store Scalar :=
  writeRows defaultDistort 5 (entryValue env block "distortion") 1
    (writeRows defaultMatrix 3 (entryValue env block "camera_matrix") 3 store)

/-- The code reads every number of a well-formed array. -/
theorem IsNumericArray.found [Zero Scalar] {rows cols : Nat} {block matx : Json} {key : String}
    (present : block.atKey key = .ok matx) (shape : IsNumericArray rows cols matx)
    {row col : Nat} (inRows : row < rows) (inCols : col < cols) :
    (do (← (← matx.atIndex row).atIndex col).getFloat env.toFloat) =
      (.ok (entryValue env block key row col) : Except JsonException Scalar) := by
  obtain ⟨number, value⟩ := shape.entry env inRows inCols
  have read : readEntry env block key row col = .ok (env.toFloat number) := by
    rw [readEntry, present]
    exact value
  rw [value, entryValue, read]

theorem getJsonCameraMatrix_run [Zero Scalar] {block : Json} (wellFormed : WellFormedBlock block)
    (array : Mat) (world : World Scalar) :
    (getJsonCameraMatrix env block array).run world = .ok true { world with
      store := writeRows array 3 (entryValue env block "camera_matrix") 3 world.store } := by
  obtain ⟨matx, present, shape⟩ := wellFormed.cameraMatrix
  have object : block.isObject = true := by
    cases block with
    | object members => rfl
    | _ => simp [Json.atKey] at present
  have filled := fillArray_run env array
    (fun row inRows col inCols => shape.found env present inRows inCols) world
  simp only [getJsonCameraMatrix, object, if_true, present, EStateM.run_bind, run_tryCatch,
    run_liftExcept_ok, filled]
  rfl

theorem getJsonDistortionCoefs_run [Zero Scalar] {block : Json}
    (wellFormed : WellFormedBlock block) (array : Mat) (world : World Scalar) :
    (getJsonDistortionCoefs env block array).run world = .ok true { world with
      store := writeRows array 5 (entryValue env block "distortion") 1 world.store } := by
  obtain ⟨matx, present, shape⟩ := wellFormed.distortion
  have object : block.isObject = true := by
    cases block with
    | object members => rfl
    | _ => simp [Json.atKey] at present
  have filled := fillArray_run env array
    (fun row inRows col inCols => shape.found env present inRows inCols) world
  simp only [getJsonDistortionCoefs, object, if_true, present, EStateM.run_bind, run_tryCatch,
    run_liftExcept_ok, filled]
  rfl

/-- A constructed camera keeps its block and shares the buffers of the static defaults. -/
structure SharesDefaults (sourceConfig : Json) (camera : VisionCamera) : Prop where
  config : camera.config = sourceConfig
  cameraMatrix : camera.cameraMatrix = defaultMatrix
  distortion : camera.distortion = defaultDistort

/-- A calibrated construction writes the numbers of its block into the shared buffers. -/
theorem ofCalibration_run [Zero Scalar] (sourceConfig : Json) {block : Json}
    (wellFormed : WellFormedBlock block) (world : World Scalar) :
    ∃ camera next, (VisionCamera.ofCalibration env sourceConfig block).run world = .ok camera next ∧
      SharesDefaults sourceConfig camera ∧ next.cameras = world.cameras ∧
      next.store = calibrated env block world.store := by
  obtain ⟨handle, opened, done⟩ := openUsbCamera_total sourceConfig world
  have kept := (openUsbCamera_keeps sourceConfig).of_ok done
  have stores : opened.store = world.store := congrArg Prod.fst kept
  have vectors : opened.cameras = world.cameras := congrArg Prod.snd kept
  unfold VisionCamera.ofCalibration
  simp only [run_bind_of_ok done, run_bind_of_ok (getJsonCameraMatrix_run env wellFormed _ _),
    run_bind_of_ok (getJsonDistortionCoefs_run env wellFormed _ _)]
  obtain ⟨name, named⟩ := getName_run handle
    ({ opened with store := calibrated env block opened.store } : World Scalar)
  refine ⟨_, _, run_bind_of_ok named _, ⟨rfl, rfl, rfl⟩, vectors, ?_⟩
  rw [← stores]

/-- A construction without a calibration block leaves every buffer as it was. -/
theorem ofConfig_run (sourceConfig : Json) (world : World Scalar) :
    ∃ camera next, (VisionCamera.ofConfig env sourceConfig).run world = .ok camera next ∧
      SharesDefaults sourceConfig camera ∧ next.cameras = world.cameras ∧
      next.store = world.store := by
  obtain ⟨handle, opened, done⟩ := openUsbCamera_total sourceConfig world
  have kept := (openUsbCamera_keeps sourceConfig).of_ok done
  obtain ⟨name, named⟩ := getName_run handle opened
  unfold VisionCamera.ofConfig
  rw [run_bind_of_ok done, run_bind_of_ok named]
  exact ⟨_, opened, rfl, ⟨rfl, rfl, rfl⟩, congrArg Prod.snd kept, congrArg Prod.fst kept⟩

end VisionServer.Camera
