/-
This file determines when a documented configuration gets its documented calibrations.
-/

import VisionServer.Config.Entries

namespace VisionServer.Config
open Library Camera

variable {Scalar : Type} (env : Environment Scalar)

/-- In the documented format the properties of a camera are an array. -/
def ArrayProperties (entry : Json) : Prop :=
  ∀ properties, entry.atKey "properties" = .ok properties → ∃ items, properties = .array items

/-- The calibrations of the old format may still be used. -/
structure DocumentedFormat (j : Json) : Prop where
  object : j.isObject = true
  properties : ∀ entry ∈ cameraEntries j, ArrayProperties entry
  calibrations : (∃ blocks, j.atKey "calibrations" = .ok blocks) → WellFormedCalibrations j

/-- The properties of the entry contain an object with this type. -/
def TypeIn (entry : Json) (type : String) : Prop :=
  ∃ items, entry.atKey "properties" = .ok (.array items) ∧
    ∃ property ∈ items, property.atKey "type" = .ok (.string type)

/-- The list has a calibration for a type of the entry and the size. -/
def Matches (calibrations : CalibList) (entry : Json) (size : Size) : Prop :=
  ∃ type, TypeIn entry type ∧ HasCalib type size calibrations

/-- These are the numbers that a camera shows. -/
@[ext] structure Numbers (Scalar : Type) where
  matrix : Fin 3 → Fin 3 → Scalar
  distortion : Fin 5 → Scalar

def numbersOf (camera : VisionCamera) (store : Store Scalar) : Numbers Scalar where
  matrix row col := camera.cameraMatrix.get store row col
  distortion col := camera.distortion.get store 0 col

/-- The numbers are those of a calibration of the list. -/
structure ListedNumbers (cal : CalibMat × CalibMat) (store : Store Scalar)
    (numbers : Numbers Scalar) : Prop where
  matrixArea : cal.1.rows * cal.1.cols = 9
  matrix : ∀ row col, numbers.matrix row col = store cal.1.buffer (row * 3 + col)
  distortionArea : cal.2.rows * cal.2.cols = 5
  distortion : ∀ col, numbers.distortion col = store cal.2.buffer col

/-- The numbers are those of a calibration block of the file. -/
structure BlockNumbers (block : Json) (numbers : Numbers Scalar) : Prop where
  matrix : ∀ row col : Fin 3,
    readEntry env block "camera_matrix" row col = .ok (numbers.matrix row col)
  distortion : ∀ col : Fin 5, readEntry env block "distortion" 0 col = .ok (numbers.distortion col)

/-- These are the numbers of the static default matrices. -/
def defaultNumbers (store : Store Scalar) : Numbers Scalar where
  matrix row col := defaultMatrix.get store row col
  distortion col := defaultDistort.get store 0 col

/-- A type of the list comes first, then a block of the file, then the defaults. -/
structure DocumentedNumbers (j : Json) (calibrations : CalibList) (store : Store Scalar)
    (entry : Json) (size : Size) (numbers : Numbers Scalar) : Prop where
  typed : ∀ type set cal, TypeIn entry type → (type, set) ∈ calibrations → (size, cal) ∈ set →
    ListedNumbers cal store numbers
  named : ¬ Matches calibrations entry size → ∀ block, Names j entry block →
    BlockNumbers env block numbers
  plain : ¬ Matches calibrations entry size → (¬ ∃ block, Names j entry block) →
    numbers = defaultNumbers store

/-- Each camera that the load creates carries the documented calibration of its entry. -/
def CarriesDocumented (j : Json) (calibrations : CalibList) (file : String) (before : World Scalar) :
    Prop :=
  ∃ after, (createCamerasList env calibrations file).run before = .ok true after ∧
    List.Forall₂ (fun entry camera => DocumentedNumbers env j calibrations before.store entry
        camera.getResolution (numbersOf camera after.store))
      (cameraEntries j) (after.cameras.drop before.cameras.length)

/-- The named blocks of the entries are written in turn. -/
def storeAfter [Zero Scalar] (j : Json) : List Json → Store Scalar → Store Scalar
  | [], store => store
  | entry :: rest, store => storeAfter j rest (match blockOf j entry with
      | .ok block => calibrated env block store
      | .error _ => store)

/-- This is the last block that an entry of the file names. -/
def lastBlock (j : Json) : List Json → Option Json
  | [] => none
  | entry :: rest => (lastBlock j rest).or (blockOf j entry).toOption

/-- These are the numbers that a camera gets from a block. -/
def blockNumbers [Zero Scalar] (block : Json) : Numbers Scalar where
  matrix row col := entryValue env block "camera_matrix" row col
  distortion col := entryValue env block "distortion" 0 col

/-- These are the numbers of the last named block, or the defaults if there is none. -/
def sharedNumbers [Zero Scalar] (j : Json) (store : Store Scalar) : Numbers Scalar :=
  ((lastBlock j (cameraEntries j)).map (blockNumbers env)).getD (defaultNumbers store)

theorem defaultNumbers_calibrated [Zero Scalar] (block : Json) (store : Store Scalar) :
    defaultNumbers (calibrated env block store) = blockNumbers env block := by
  ext row col
  · have other : defaultMatrix.get (calibrated env block store) row col =
        defaultMatrix.get (writeRows defaultMatrix 3 (entryValue env block "camera_matrix") 3 store)
          row col := by
      unfold calibrated Mat.get
      rw [writeRows_other _ _ _ (by decide)]
    exact other.trans ((writeRows_get defaultMatrix _ store col.isLt).trans (if_pos row.isLt))
  · exact (writeRows_get defaultDistort _ _ (Fin.isLt _)).trans (if_pos (by decide))

/-- The defaults end with the last named block. -/
theorem defaultNumbers_storeAfter [Zero Scalar] (j : Json) (entries : List Json)
    (store : Store Scalar) :
    defaultNumbers (storeAfter env j entries store) =
      ((lastBlock j entries).map (blockNumbers env)).getD (defaultNumbers store) := by
  induction entries generalizing store with
  | nil => rfl
  | cons entry rest ih =>
      rw [storeAfter, ih, lastBlock]
      cases lastBlock j rest with
      | some block => rfl
      | none =>
          cases blockOf j entry with
          | ok block => exact defaultNumbers_calibrated env block store
          | error e => rfl

/-- The documented format selects no type: the count of a key is zero on an array. -/
theorem hasType_of_arrayProperties {entry : Json} (properties : ArrayProperties entry) :
    createCamerasList.hasType entry = .ok false := by
  unfold createCamerasList.hasType
  split
  · cases found : entry.atKey "properties" with
    | error e =>
        obtain ⟨value, present⟩ :=
          (Json.count_pos_iff entry "properties").mp (Nat.pos_of_ne_zero ‹_›)
        rw [found] at present
        cases present
    | ok value =>
        obtain ⟨items, rfl⟩ := properties value found
        rfl
  · rfl

/-- A created camera has its block, the shared buffers and the resolution of its visit. -/
def SharesVisit (visit : Json × Size) (camera : VisionCamera) : Prop :=
  SharesDefaults visit.1 camera ∧ camera.getResolution = visit.2

/-- A well-formed block is written into the shared buffers of the new camera. -/
theorem setCalibrationJson_documented [Zero Scalar] {block : Json} (wellFormed : WellFormedBlock block)
    {camera : VisionCamera} (matrix : camera.cameraMatrix = defaultMatrix)
    (distortion : camera.distortion = defaultDistort) (world : World Scalar) :
    (camera.setCalibrationJson env block).run world =
      .ok ({ camera with calibration := block }, true)
        { world with store := calibrated env block world.store } := by
  have object : block.isObject = true := by
    obtain ⟨matx, present, _⟩ := wellFormed.cameraMatrix
    cases block with
    | object members => rfl
    | _ => cases present
  rw [setCalibrationJson_run env object camera (getJsonCameraMatrix_run env wellFormed _ world)
    (getJsonDistortionCoefs_run env wellFormed _ _), matrix, distortion]
  rfl

/-- An entry in the documented format gets its named block or nothing. -/
theorem addDocumented_run [Zero Scalar] (file : String) {j : Json} (calibrations : CalibList)
    (format : (∃ blocks, j.atKey "calibrations" = .ok blocks) → WellFormedCalibrations j)
    {entry : Json} (properties : ArrayProperties entry) (world : World Scalar) :
    ∃ after camera, (createCamerasList.addCamera env file j calibrations
        (decide (j.count "calibrations" > 0)) entry).run world = .ok () after ∧
      SharesVisit (entry, resolutionOf env entry world.sources.length) camera ∧
      after.cameras = world.cameras ++ [camera] ∧
      after.sources.length = world.sources.length +
        (if openedHandle entry world.sources.length = 0 then 0 else 1) ∧
      after.store = storeAfter env j [entry] world.store := by
  obtain ⟨camera, opened, appended, built, store, last, sources⟩ := append_run env entry world
  have resolution : camera.getResolution = resolutionOf env entry world.sources.length := by
    rw [VisionCamera.getResolution, built.properties, resolutionOf]
  have shares : SharesVisit (entry, resolutionOf env entry world.sources.length) camera :=
    ⟨⟨built.config, built.cameraMatrix, built.distortion⟩, resolution⟩
  rw [← sources, ← store, storeAfter]
  unfold createCamerasList.addCamera
  rw [run_bind_of_ok appended, hasType_of_arrayProperties properties,
    run_bind_of_ok (ofLoader_run (run_liftExcept_ok false opened)), if_neg (by decide)]
  by_cases guard : decide (j.count "calibrations" > 0) = true ∧ entry.count "calibration" > 0
  · rw [if_pos guard, catchJson, run_tryCatch, setNamed_eq]
    cases named : blockOf j entry with
    | error e => exact ⟨_, camera, rfl, shares, last, rfl, rfl⟩
    | ok block =>
        have names := (names_iff j entry block).mpr named
        obtain ⟨blocks, _, found, _⟩ := names
        have wellFormed := (format ⟨blocks, found⟩).block ((names_iff j entry block).mpr named)
        have written : ({ opened with store := calibrated env block opened.store } : World Scalar).cameras =
            world.cameras ++ [camera] := last
        rw [run_bind_of_ok (ofLoader_run (run_liftExcept_ok block opened)),
          run_bind_of_ok (back_run last), run_bind_of_ok (ofLoader_run
            (setCalibrationJson_documented env wellFormed built.cameraMatrix built.distortion opened)),
          setBack_run written]
        exact ⟨_, { camera with calibration := block }, rfl,
          ⟨⟨built.config, built.cameraMatrix, built.distortion⟩, resolution⟩, rfl, rfl, rfl⟩
  · rw [if_neg guard]
    cases named : blockOf j entry with
    | ok block =>
        have counted := ((names_iff j entry block).mpr named).counted
        exact absurd ⟨decide_eq_true counted.2, counted.1⟩ guard
    | error e => exact ⟨opened, camera, rfl, shares, last, rfl, rfl⟩

/-- The loop over entries in the documented format shares the defaults among all cameras. -/
theorem addDocumented_loop [Zero Scalar] (file : String) {j : Json} (calibrations : CalibList)
    (format : (∃ blocks, j.atKey "calibrations" = .ok blocks) → WellFormedCalibrations j)
    {entries : List Json} (properties : ∀ entry ∈ entries, ArrayProperties entry)
    (world : World Scalar) :
    ∃ after created, (forM entries (createCamerasList.addCamera env file j calibrations
        (decide (j.count "calibrations" > 0)))).run world = .ok () after ∧
      List.Forall₂ SharesVisit (visits env world.sources.length entries) created ∧
      after.cameras = world.cameras ++ created ∧
      after.store = storeAfter env j entries world.store := by
  induction entries generalizing world with
  | nil => exact ⟨world, [], rfl, .nil, (List.append_nil _).symm, rfl⟩
  | cons entry rest ih =>
      obtain ⟨next, camera, first, shares, cameras, sources, store⟩ :=
        addDocumented_run env file calibrations format (properties entry List.mem_cons_self) world
      obtain ⟨after, created, done, pairs, appended, final⟩ :=
        ih (fun other member => properties other (List.mem_cons_of_mem _ member)) next
      refine ⟨after, camera :: created, ?_, ?_, ?_, ?_⟩
      · rw [List.forM_cons, run_bind_of_ok first]
        exact done
      · rw [sources] at pairs
        exact .cons shares pairs
      · rw [appended, cameras, List.append_assoc, List.singleton_append]
      · rw [final, store]
        rfl

/-- The entries of the visits are the entries of the file. -/
theorem visits_map_fst (sources : Nat) (entries : List Json) :
    (visits env sources entries).map Prod.fst = entries := by
  induction entries generalizing sources with
  | nil => rfl
  | cons entry rest ih => rw [visits, List.map_cons, ih]

/-- Cameras that show the same numbers carry the documented ones when those numbers are documented. -/
theorem carries_iff (j : Json) (calibrations : CalibList) (before : World Scalar)
    {after : World Scalar} {numbers : Numbers Scalar} {met : List (Json × Size)} {created : List VisionCamera}
    {entries : List Json} (pairs : List.Forall₂ SharesVisit met created)
    (listed : met.map Prod.fst = entries) (shown : defaultNumbers after.store = numbers) :
    List.Forall₂ (fun entry camera => DocumentedNumbers env j calibrations before.store entry
        camera.getResolution (numbersOf camera after.store)) entries created ↔
      ∀ visit ∈ met, DocumentedNumbers env j calibrations before.store visit.1 visit.2 numbers := by
  subst listed
  induction pairs with
  | nil => simp
  | @cons visit camera met created shares rest ih =>
      obtain ⟨defaults, resolution⟩ := shares
      have same : numbersOf camera after.store = numbers := by
        rw [numbersOf, defaults.cameraMatrix, defaults.distortion]
        exact shown
      rw [List.map_cons, List.forall₂_cons, ih, List.forall_mem_cons, resolution, same]

/-- The camera part of a documented file appends cameras that share the defaults. -/
theorem addDocumented_cameras [Zero Scalar] (file : String) {j : Json} (calibrations : CalibList)
    (format : DocumentedFormat j) (world : World Scalar) :
    ∃ after created, (createCamerasList.addCameras env file j calibrations).run world = .ok () after ∧
      List.Forall₂ SharesVisit (visits env world.sources.length (cameraEntries j)) created ∧
      after.cameras = world.cameras ++ created ∧
      after.store = storeAfter env j (cameraEntries j) world.store := by
  have properties := format.properties
  unfold createCamerasList.addCameras
  obtain ⟨absent, none⟩ | ⟨present, cameras, found, entries⟩ := cameraEntries_cases j
  · rw [if_pos absent, none]
    exact ⟨_, [], rfl, .nil, (List.append_nil _).symm, rfl⟩
  · rw [entries] at properties ⊢
    obtain ⟨after, created, done, facts⟩ :=
      addDocumented_loop env file calibrations format.calibrations properties world
    refine ⟨after, created, ?_, facts⟩
    rw [if_neg present, found, catchJson, run_tryCatch,
      run_bind_of_ok (ofLoader_run (run_liftExcept_ok cameras world)), done]

/-- The cameras carry their documented calibrations exactly when all of these are the calibration of
the last named block, or the defaults: no type is found in an array, and all cameras share the buffers
of the static defaults. -/
theorem carriesDocumented_iff [Zero Scalar] {file : String} {j : Json} (calibrations : CalibList)
    (world : World Scalar) (content : env.files file = .value j) (format : DocumentedFormat j) :
    CarriesDocumented env j calibrations file world ↔
      ∀ visit ∈ visits env world.sources.length (cameraEntries j),
        DocumentedNumbers env j calibrations world.store visit.1 visit.2
          (sharedNumbers env j world.store) := by
  obtain ⟨final, created, done, pairs, appended, store⟩ :=
    addDocumented_cameras env file calibrations format world
  have opened : (loadJson env file).run world = .ok (some j) world := by
    rw [loadJson, content]
    simp [format.object]
  have ends : (createCamerasList env calibrations file).run world = .ok true final := by
    rw [createCamerasList, run_bind_of_ok (ofLoader_run opened)]
    dsimp only
    rw [run_bind_of_ok done]
    rfl
  have shown : defaultNumbers final.store = sharedNumbers env j world.store := by
    rw [store, defaultNumbers_storeAfter]
    rfl
  have carried := carries_iff env j calibrations world pairs
    (visits_map_fst env world.sources.length (cameraEntries j)) shown
  constructor
  · intro carries
    obtain ⟨after, loaded, numbers⟩ := carries
    rw [ends] at loaded
    cases loaded
    rw [appended, List.drop_left] at numbers
    exact carried.mp numbers
  · intro documented
    refine ⟨final, ends, ?_⟩
    rw [appended, List.drop_left]
    exact carried.mpr documented

/-- The only camera of the file has a type in its properties. -/
def typedBlock : Json := .object [("name", .string "front"), ("path", .string "/dev/video0"),
  ("width", .number (.integer 640)), ("height", .number (.integer 480)),
  ("properties", .array [.object [("name", .string "gain"), ("value", .number (.integer 1))],
    .object [("type", .string "lifecam")]])]

def typedFile : Json := .object [("cameras", .array [typedBlock])]

/-- The live mode is known, so the camera takes the size of its block. -/
def typedEnv : Environment Int where
  toFloat
    | .integer value => value
    | .decimal value => value.floor
  liveMode _ := ⟨.kMJPEG, 640, 480, 30⟩
  files _ := .value typedFile
  clientVersion := 4

/-- The list has a calibration for the type and the size. -/
def typedList : CalibList :=
  [("lifecam", [(⟨640, 480⟩, (⟨⟨2, 3, 3⟩, true⟩, ⟨⟨3, 1, 5⟩, true⟩))])]

/-- The matrices of the list hold 600, and the defaults hold zero. -/
def typedWorld : World Int := ⟨fun buffer _ => if buffer < 2 then 0 else 600, [], [], []⟩

theorem typedFile_documented : DocumentedFormat typedFile := by
  refine ⟨rfl, ?_, ?_⟩
  · intro entry member properties found
    have entries : cameraEntries typedFile = [typedBlock] := rfl
    rw [entries, List.mem_singleton] at member
    subst member
    cases found
    exact ⟨_, rfl⟩
  · intro present
    obtain ⟨blocks, found⟩ := present
    cases found

/-- The camera keeps the defaults although the list has its calibration. -/
theorem typedFile_not_carries :
    typedEnv.files "frc.json" = .value typedFile ∧ DocumentedFormat typedFile ∧
      ¬ CarriesDocumented typedEnv typedFile typedList "frc.json" typedWorld := by
  refine ⟨rfl, typedFile_documented, fun carries => ?_⟩
  obtain ⟨after, loaded, numbers⟩ := carries
  cases loaded
  cases numbers with
  | cons documented rest =>
      have listed := documented.typed "lifecam" _ _
        ⟨_, rfl, .object [("type", .string "lifecam")], by simp, rfl⟩ List.mem_cons_self List.mem_cons_self
      exact absurd (listed.matrix 0 0) (by decide)

/-- The condition applies to the file. -/
theorem typedFile_carries_iff :
    CarriesDocumented typedEnv typedFile typedList "frc.json" typedWorld ↔
      ∀ visit ∈ visits typedEnv typedWorld.sources.length (cameraEntries typedFile),
        DocumentedNumbers typedEnv typedFile typedList typedWorld.store visit.1 visit.2
          (sharedNumbers typedEnv typedFile typedWorld.store) :=
  carriesDocumented_iff typedEnv typedList typedWorld
    (show typedEnv.files "frc.json" = .value typedFile from rfl) typedFile_documented

end VisionServer.Config
