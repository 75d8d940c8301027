/-
This file determines when a load creates one camera for each entry of the file.
-/

import VisionServer.Config.Calibrations
import VisionServer.Config.Resolutions

namespace VisionServer.Config
open Library Camera

variable {Scalar : Type} (env : Environment Scalar)

/-- The file is missing, does not parse or does not hold an object. -/
def Refused : FileContent → Prop
  | .unreadable _ => True
  | .malformed _ => True
  | .overflowing _ => True
  | .value j => j.isObject = false

/-- A refused file leaves the vector alone, and every other file gets one camera for each entry. -/
def LoadsEachEntry {Error : Type} (load : EStateM Error (World Scalar) Bool) (content : FileContent)
    (world : World Scalar) : Prop :=
  ∃ result after, load.run world = .ok result after ∧
    (result = false ↔ Refused content) ∧
    (result = false → after.cameras = world.cameras) ∧
    (result = true → ∃ j created, content = .value j ∧ after.cameras = world.cameras ++ created ∧
      created.map VisionCamera.config = cameraEntries j)

/-- The camera of a block has this resolution beside the given number of sources. -/
def resolutionOf (config : Json) (sources : Nat) : Size :=
  ⟨(storedMode env config sources).width, (storedMode env config sources).height⟩

/-- The loop meets each entry with the resolution of its camera. -/
def visits : Nat → List Json → List (Json × Size)
  | _, [] => []
  | sources, entry :: rest => (entry, resolutionOf env entry sources) ::
      visits (sources + if openedHandle entry sources = 0 then 0 else 1) rest

/-- The matrix has the right area but gaps between rows of another number. -/
def HasGaps (mat : CalibMat) (target : Mat) : Prop :=
  mat.rows * mat.cols = target.rows * target.cols ∧ target.rows ≠ mat.rows ∧ mat.continuous = false

/-- The type of the entry selects a matrix that cannot be reshaped. -/
def SelectsGaps (calibrations : CalibList) (visit : Json × Size) : Prop :=
  ∃ type cal, createCamerasList.typeOf visit.1 = .ok type ∧
    findCalib type visit.2 calibrations = some cal ∧
    (HasGaps cal.1 defaultMatrix ∨ HasGaps cal.2 defaultDistort)

/-- The new camera may have changed, but not its block. -/
def EndsWith (cameras : List VisionCamera) (sources : Nat) (config : Json) (after : World Scalar) :
    Prop :=
  ∃ camera, after.cameras = cameras ++ [camera] ∧ camera.config = config ∧
    after.sources.length = sources

/-- A matrix with the right area is reshaped exactly when it has no gaps. -/
theorem reshape_cases {mat : CalibMat} {target : Mat}
    (area : mat.rows * mat.cols = target.rows * target.cols) :
    (HasGaps mat target ∧ mat.reshape target.rows = .error .badStep) ∨
      (¬ HasGaps mat target ∧ ∃ reshaped, mat.reshape target.rows = .ok reshaped) := by
  unfold CalibMat.reshape
  by_cases gaps : target.rows ≠ mat.rows ∧ mat.continuous = false
  · exact .inl ⟨⟨area, gaps⟩, if_pos gaps⟩
  · exact .inr ⟨fun has => gaps has.2, _, if_neg gaps⟩

/-- A setter that keeps the configuration refuses a matrix, assigns it or finds no reshaped form. -/
theorem setter_cases (camera : VisionCamera) (mat : CalibMat) (target : Mat) (put : Mat → VisionCamera)
    (keeps : ∀ reshaped, (put reshaped).config = camera.config)
    {set : Except LoadException (VisionCamera × Bool)}
    (shape : set = if mat.rows * mat.cols ≠ target.rows * target.cols then .ok (camera, false)
      else mat.reshape target.rows >>= fun reshaped => .ok (put reshaped, true)) :
    (HasGaps mat target ∧ set = .error .badStep) ∨
      (¬ HasGaps mat target ∧ ∃ changed filled, set = .ok (changed, filled) ∧
        changed.config = camera.config) := by
  rw [shape]
  by_cases area : mat.rows * mat.cols = target.rows * target.cols
  · rw [if_neg (not_not.mpr area)]
    obtain ⟨gaps, failed⟩ | ⟨whole, reshaped, done⟩ := reshape_cases area
    · exact .inl ⟨gaps, congrArg (· >>= _) failed⟩
    · exact .inr ⟨whole, put reshaped, true, congrArg (· >>= _) done, keeps reshaped⟩
  · rw [if_pos area]
    exact .inr ⟨fun gaps => area gaps.1, camera, false, rfl, rfl⟩

theorem setCameraMatrix_cases (camera : VisionCamera) (mat : CalibMat) :
    (HasGaps mat defaultMatrix ∧ camera.setCameraMatrix mat = .error .badStep) ∨
      (¬ HasGaps mat defaultMatrix ∧ ∃ changed filled, camera.setCameraMatrix mat =
        .ok (changed, filled) ∧ changed.config = camera.config) :=
  setter_cases camera mat defaultMatrix (fun cameraMatrix => { camera with cameraMatrix })
    (fun _ => rfl) rfl

theorem setDistortionCoefs_cases (camera : VisionCamera) (mat : CalibMat) :
    (HasGaps mat defaultDistort ∧ camera.setDistortionCoefs mat = .error .badStep) ∨
      (¬ HasGaps mat defaultDistort ∧ ∃ changed filled, camera.setDistortionCoefs mat =
        .ok (changed, filled) ∧ changed.config = camera.config) :=
  setter_cases camera mat defaultDistort (fun distortion => { camera with distortion })
    (fun _ => rfl) rfl

theorem setBack_run {cameras : List VisionCamera} {camera : VisionCamera} {world : World Scalar}
    (last : world.cameras = cameras ++ [camera]) (changed : VisionCamera) :
    (setBack changed : ListLoader Scalar Unit).run world =
      .ok () { world with cameras := cameras ++ [changed] } := by
  change EStateM.Result.ok () { world with cameras := world.cameras.dropLast ++ [changed] } = _
  rw [last, List.dropLast_concat]

/-- An entry whose type selects no gaps keeps the vector, or it throws a JSON exception. -/
theorem setListed_run {calibrations : CalibList} {entry : Json} {cameras : List VisionCamera}
    {camera : VisionCamera} {world : World Scalar} (last : world.cameras = cameras ++ [camera])
    (safe : ¬ SelectsGaps calibrations (entry, camera.getResolution)) :
    (∃ e, (createCamerasList.setListed entry calibrations).run world = .error (.json e) world) ∨
      ∃ after, (createCamerasList.setListed entry calibrations).run world = .ok () after ∧
        EndsWith cameras world.sources.length camera.config after := by
  unfold createCamerasList.setListed
  cases type : createCamerasList.typeOf entry with
  | error e => exact .inl ⟨e, rfl⟩
  | ok name =>
      refine .inr ?_
      rw [run_bind_of_ok (ofLoader_run (run_liftExcept_ok name world)),
        run_bind_of_ok (lookup_run last name calibrations)]
      cases found : findCalib name camera.getResolution calibrations with
      | none => exact ⟨world, rfl, camera, last, rfl, rfl⟩
      | some cal =>
          obtain ⟨gaps, _⟩ | ⟨_, first, filled, set, kept⟩ := setCameraMatrix_cases camera cal.1
          · exact absurd ⟨name, cal, type, found, .inl gaps⟩ safe
          · obtain ⟨gaps, _⟩ | ⟨_, second, filled', set', kept'⟩ := setDistortionCoefs_cases first cal.2
            · exact absurd ⟨name, cal, type, found, .inr gaps⟩ safe
            · have replaced : ({ world with cameras := cameras ++ [first] } : World Scalar).cameras =
                  cameras ++ [first] := rfl
              dsimp only
              rw [run_bind_of_ok (back_run last), set,
                run_bind_of_ok (run_liftExcept_ok (first, filled) world),
                run_bind_of_ok (setBack_run last first), run_bind_of_ok (back_run replaced), set',
                run_bind_of_ok (run_liftExcept_ok (second, filled') _), setBack_run replaced second]
              exact ⟨_, rfl, second, rfl, kept'.trans kept, rfl⟩

/-- An entry whose type selects gaps ends the load. -/
theorem setListed_fails {calibrations : CalibList} {entry : Json} {cameras : List VisionCamera}
    {camera : VisionCamera} {world : World Scalar} (last : world.cameras = cameras ++ [camera])
    (selects : SelectsGaps calibrations (entry, camera.getResolution)) :
    ∃ after, (createCamerasList.setListed entry calibrations).run world =
      .error .badStep after := by
  obtain ⟨name, cal, type, found, gaps⟩ := selects
  unfold createCamerasList.setListed
  dsimp only at type found
  rw [type, run_bind_of_ok (ofLoader_run (run_liftExcept_ok name world)),
    run_bind_of_ok (lookup_run last name calibrations), found]
  dsimp only
  rw [run_bind_of_ok (back_run last)]
  obtain ⟨_, failed⟩ | ⟨whole, first, filled, set, kept⟩ := setCameraMatrix_cases camera cal.1
  · rw [failed, run_bind_of_error (run_liftExcept_error LoadException.badStep world)]
    exact ⟨world, rfl⟩
  · have replaced : ({ world with cameras := cameras ++ [first] } : World Scalar).cameras =
        cameras ++ [first] := rfl
    rw [set, run_bind_of_ok (run_liftExcept_ok (first, filled) world),
      run_bind_of_ok (setBack_run last first), run_bind_of_ok (back_run replaced)]
    obtain ⟨_, failed⟩ | ⟨whole', _⟩ := setDistortionCoefs_cases first cal.2
    · rw [failed, run_bind_of_error (run_liftExcept_error LoadException.badStep _)]
      exact ⟨_, rfl⟩
    · rcases gaps with gaps | gaps
      · exact absurd gaps whole
      · exact absurd gaps whole'

/-- A camera takes a calibration block without an exception, and the vector stays as it was. -/
theorem setCalibrationJson_ends (camera : VisionCamera) (j : Json) (world : World Scalar) :
    ∃ changed filled after, (camera.setCalibrationJson env j).run world = .ok (changed, filled) after ∧
      changed.config = camera.config ∧ after.devices = world.devices := by
  cases object : j.isObject with
  | false => exact ⟨camera, false, world, by simp [VisionCamera.setCalibrationJson, object], rfl, rfl⟩
  | true =>
      obtain ⟨middle, matrix⟩ : ∃ middle, (getJsonCameraMatrix env j camera.cameraMatrix).run world =
          .ok true middle := getJsonArray_object object _ _
      obtain ⟨filled, after, coefs⟩ :=
        getJsonDistortionCoefs_total env j camera.distortion middle
      refine ⟨_, filled, after, setCalibrationJson_run env object camera matrix coefs, rfl, ?_⟩
      exact ((getJsonDistortionCoefs_keeps env j camera.distortion).of_ok coefs).trans
        ((getJsonCameraMatrix_keeps env j camera.cameraMatrix).of_ok matrix)

/-- This is the block that an entry names. -/
def blockOf (j entry : Json) : Except JsonException Json := do
  let blocks ← j.atKey "calibrations"
  let key ← entry.atKey "calibration" >>= Json.getString
  blocks.atKey key

theorem names_iff (j entry block : Json) : Names j entry block ↔ blockOf j entry = .ok block := by
  unfold Names blockOf
  cases found : j.atKey "calibrations" with
  | error e => simp [bind, Except.bind]
  | ok blocks =>
      cases read : entry.atKey "calibration" >>= Json.getString with
      | error e => simp [bind, Except.bind]
      | ok key => simp [bind, Except.bind]

/-- The calibration of the file is looked up in one step. -/
theorem setNamed_eq (j entry : Json) : createCamerasList.setNamed env j entry = (do
    let calibration ← ofLoader (liftExcept (blockOf j entry))
    setBack (← ofLoader (VisionCamera.setCalibrationJson env (← back) calibration)).1) := by
  unfold createCamerasList.setNamed blockOf
  cases j.atKey "calibrations" with
  | error e => rfl
  | ok blocks =>
      cases entry.atKey "calibration" >>= Json.getString with
      | error e => rfl
      | ok key => rfl

/-- The calibration of the file keeps the vector, or its lookup throws a JSON exception. -/
theorem setNamed_run (j entry : Json) {cameras : List VisionCamera} {camera : VisionCamera}
    {world : World Scalar} (last : world.cameras = cameras ++ [camera]) :
    (∃ e, (createCamerasList.setNamed env j entry).run world = .error (.json e) world) ∨
      ∃ after, (createCamerasList.setNamed env j entry).run world = .ok () after ∧
        EndsWith cameras world.sources.length camera.config after := by
  rw [setNamed_eq]
  cases blockOf j entry with
  | error e => exact .inl ⟨e, rfl⟩
  | ok calibration =>
      refine .inr ?_
      obtain ⟨changed, filled, after, done, kept, devices⟩ :=
        setCalibrationJson_ends env camera calibration world
      have same : after.cameras = cameras ++ [camera] := (congrArg Prod.snd devices).trans last
      rw [run_bind_of_ok (ofLoader_run (run_liftExcept_ok calibration world)),
        run_bind_of_ok (back_run last), run_bind_of_ok (ofLoader_run done), setBack_run same changed]
      exact ⟨_, rfl, changed, rfl, kept, congrArg List.length (congrArg Prod.fst devices)⟩

/-- A handled body that ends with the vector or a JSON exception ends with the vector. -/
theorem catchJson_run {body : ListLoader Scalar Unit} {line : JsonException → String}
    {cameras : List VisionCamera} {camera : VisionCamera} {config : Json} {world : World Scalar}
    (last : world.cameras = cameras ++ [camera]) (block : camera.config = config)
    (ends : (∃ e, body.run world = .error (.json e) world) ∨ ∃ after, body.run world = .ok () after ∧
      EndsWith cameras world.sources.length camera.config after) :
    ∃ after, (catchJson body fun e => ofLoader (errs (line e))).run world = .ok () after ∧
      EndsWith cameras world.sources.length config after := by
  subst block
  rw [catchJson, run_tryCatch]
  obtain ⟨e, failed⟩ | ⟨after, done, ended⟩ := ends
  · rw [failed]
    exact ⟨_, rfl, camera, last, rfl, rfl⟩
  · rw [done]
    exact ⟨after, rfl, ended⟩

theorem hasType_ends (entry : Json) : ∃ found, createCamerasList.hasType entry = .ok found := by
  unfold createCamerasList.hasType
  split
  · obtain ⟨value, present⟩ :=
      (Json.count_pos_iff entry "properties").mp (Nat.pos_of_ne_zero ‹_›)
    rw [present]
    exact ⟨_, rfl⟩
  · exact ⟨false, rfl⟩

/-- An entry with a readable type passes the condition of the loop. -/
theorem hasType_of_typeOf {entry : Json} {type : String}
    (found : createCamerasList.typeOf entry = .ok type) :
    createCamerasList.hasType entry = .ok true := by
  unfold createCamerasList.typeOf at found
  cases properties : entry.atKey "properties" with
  | error e => simp [properties, bind, Except.bind] at found
  | ok value =>
      cases member : value.atKey "type" with
      | error e => simp [properties, member, bind, Except.bind] at found
      | ok text =>
          have counted : entry.count "properties" ≠ 0 :=
            Nat.pos_iff_ne_zero.mp ((Json.count_pos_iff _ _).mpr ⟨value, properties⟩)
          have inner : value.count "type" ≠ 0 :=
            Nat.pos_iff_ne_zero.mp ((Json.count_pos_iff _ _).mpr ⟨text, member⟩)
          rw [createCamerasList.hasType, if_pos counted, properties]
          change Except.ok (decide (value.count "type" ≠ 0)) = _
          rw [decide_eq_true inner]

/-- A safe entry appends exactly one camera. -/
theorem addListed_run (file : String) (j : Json) {calibrations : CalibList} (hasCalibs : Bool)
    {entry : Json} {world : World Scalar}
    (safe : ¬ SelectsGaps calibrations (entry, resolutionOf env entry world.sources.length)) :
    ∃ after, (createCamerasList.addCamera env file j calibrations hasCalibs entry).run world =
        .ok () after ∧
      EndsWith world.cameras (world.sources.length +
        if openedHandle entry world.sources.length = 0 then 0 else 1) entry after := by
  obtain ⟨camera, opened, appended, built, _, last, sources⟩ := append_run env entry world
  have resolution : camera.getResolution = resolutionOf env entry world.sources.length := by
    rw [VisionCamera.getResolution, built.properties, resolutionOf]
  obtain ⟨typed, condition⟩ := hasType_ends entry
  rw [← sources]
  rw [← resolution] at safe
  unfold createCamerasList.addCamera
  rw [run_bind_of_ok appended, condition, run_bind_of_ok (ofLoader_run (run_liftExcept_ok typed opened))]
  cases typed with
  | true => exact catchJson_run last built.config (setListed_run last safe)
  | false =>
      rw [if_neg (by decide)]
      split
      · exact catchJson_run last built.config (setNamed_run env j entry last)
      · exact ⟨opened, rfl, camera, last, built.config, rfl⟩

/-- An entry that selects gaps ends the load with the exception of the image library. -/
theorem addListed_fails (file : String) (j : Json) {calibrations : CalibList} (hasCalibs : Bool)
    {entry : Json} {world : World Scalar}
    (selects : SelectsGaps calibrations (entry, resolutionOf env entry world.sources.length)) :
    ∃ after, (createCamerasList.addCamera env file j calibrations hasCalibs entry).run world =
      .error .badStep after := by
  obtain ⟨camera, opened, appended, built, _, last, _⟩ := append_run env entry world
  have resolution : camera.getResolution = resolutionOf env entry world.sources.length := by
    rw [VisionCamera.getResolution, built.properties, resolutionOf]
  rw [← resolution] at selects
  obtain ⟨after, failed⟩ := setListed_fails last selects
  obtain ⟨type, cal, found, _⟩ := selects
  unfold createCamerasList.addCamera
  rw [run_bind_of_ok appended, hasType_of_typeOf found,
    run_bind_of_ok (ofLoader_run (run_liftExcept_ok true opened)), if_pos rfl, catchJson, run_tryCatch,
    failed]
  exact ⟨after, rfl⟩

/-- A loop whose passes append one camera each appends one camera for each entry. -/
theorem forM_appends {Error : Type} {pass : Json → EStateM Error (World Scalar) Unit}
    (Safe : World Scalar → List Json → Prop)
    (appends : ∀ entry rest world, Safe world (entry :: rest) → ∃ next,
      (pass entry).run world = .ok () next ∧ Safe next rest ∧
        ∃ camera, next.cameras = world.cameras ++ [camera] ∧ camera.config = entry)
    {entries : List Json} {world : World Scalar} (safe : Safe world entries) :
    ∃ after created, (forM entries pass).run world = .ok () after ∧
      after.cameras = world.cameras ++ created ∧ created.map VisionCamera.config = entries := by
  induction entries generalizing world with
  | nil => exact ⟨world, [], rfl, (List.append_nil _).symm, rfl⟩
  | cons entry rest ih =>
      obtain ⟨next, first, later, camera, cameras, config⟩ := appends entry rest world safe
      obtain ⟨after, created, done, appended, configs⟩ := ih later
      refine ⟨after, camera :: created, ?_, ?_, ?_⟩
      · rw [List.forM_cons, run_bind_of_ok first]
        exact done
      · rw [appended, cameras, List.append_assoc, List.singleton_append]
      · rw [List.map_cons, config, configs]

/-- The loop over safe entries appends exactly one camera for each of them. -/
theorem addListed_loop (file : String) (j : Json) {calibrations : CalibList} (hasCalibs : Bool)
    {entries : List Json} {world : World Scalar}
    (safe : ∀ visit ∈ visits env world.sources.length entries, ¬ SelectsGaps calibrations visit) :
    ∃ after created, (forM entries (createCamerasList.addCamera env file j calibrations hasCalibs)).run
        world = .ok () after ∧
      after.cameras = world.cameras ++ created ∧ created.map VisionCamera.config = entries := by
  refine forM_appends (fun before entries => ∀ visit ∈ visits env before.sources.length entries,
    ¬ SelectsGaps calibrations visit) (fun entry rest before selects => ?_) safe
  obtain ⟨next, first, camera, cameras, config, sources⟩ :=
    addListed_run env file j hasCalibs (selects _ List.mem_cons_self)
  refine ⟨next, first, fun visit member => ?_, camera, cameras, config⟩
  rw [sources] at member
  exact selects visit (List.mem_cons_of_mem _ member)

/-- The loop ends at the first entry that selects gaps. -/
theorem addListed_loop_fails (file : String) (j : Json) {calibrations : CalibList} (hasCalibs : Bool)
    {entries : List Json} {world : World Scalar}
    (selects : ∃ visit ∈ visits env world.sources.length entries, SelectsGaps calibrations visit) :
    ∃ after, (forM entries (createCamerasList.addCamera env file j calibrations hasCalibs)).run world =
      .error .badStep after := by
  induction entries generalizing world with
  | nil =>
      obtain ⟨visit, member, _⟩ := selects
      cases member
  | cons entry rest ih =>
      rw [List.forM_cons]
      by_cases here : SelectsGaps calibrations (entry, resolutionOf env entry world.sources.length)
      · obtain ⟨after, failed⟩ := addListed_fails env file j hasCalibs here
        exact ⟨after, run_bind_of_error failed _⟩
      · obtain ⟨next, first, camera, cameras, config, sources⟩ :=
          addListed_run env file j hasCalibs here
        rw [run_bind_of_ok first]
        apply ih
        obtain ⟨visit, member, gaps⟩ := selects
        rcases List.mem_cons.mp member with rfl | member
        · exact absurd gaps here
        · exact ⟨visit, by rw [sources]; exact member, gaps⟩

/-- The first overload appends exactly one camera for every entry. -/
theorem addCamera_appends (file : String) (j entry : Json) (world : World Scalar) :
    ∃ after, (createCameras.addCamera env file j entry).run world = .ok () after ∧
      ∃ camera, after.cameras = world.cameras ++ [camera] ∧ camera.config = entry := by
  have plain : ∀ middle : World Scalar, middle.cameras = world.cameras →
      ∃ after, (do emplaceBack (← VisionCamera.ofConfig env entry) : Loader Scalar Unit).run middle =
          .ok () after ∧
        ∃ camera, after.cameras = world.cameras ++ [camera] ∧ camera.config = entry := by
    intro middle same
    obtain ⟨camera, after, done, built, _, cameras, _⟩ := ofConfig_constructs env entry middle
    refine ⟨{ after with cameras := after.cameras ++ [camera] }, ?_, camera, ?_, built.config⟩
    · rw [run_bind_of_ok done]
      rfl
    · rw [cameras, same]
  -- The handler writes a line and appends the camera without its calibration.
  have handled : ∀ line, ∃ after, (do errs line; emplaceBack (← VisionCamera.ofConfig env entry)
        : Loader Scalar Unit).run world = .ok () after ∧
      ∃ camera, after.cameras = world.cameras ++ [camera] ∧ camera.config = entry := by
    intro line
    exact plain { world with effects := world.effects ++ [.errs line] } rfl
  unfold createCameras.addCamera
  split
  · rw [run_tryCatch]
    cases found : j.atKey "calibrations" with
    | error e => exact handled _
    | ok blocks =>
        rw [run_bind_of_ok (run_liftExcept_ok blocks world)]
        cases read : entry.atKey "calibration" >>= Json.getString with
        | error e => exact handled _
        | ok key =>
            rw [run_bind_of_ok (run_liftExcept_ok key world)]
            cases selected : blocks.atKey key with
            | error e => exact handled _
            | ok block =>
                obtain ⟨camera, after, done, built, cameras, _⟩ :=
                  ofCalibration_constructs env entry block world
                rw [run_bind_of_ok (run_liftExcept_ok block world), run_bind_of_ok done]
                exact ⟨_, rfl, camera, by rw [← cameras], built.config⟩
  · exact plain world rfl

theorem addCamera_loop (file : String) (j : Json) (entries : List Json) (world : World Scalar) :
    ∃ after created, (forM entries (createCameras.addCamera env file j)).run world = .ok () after ∧
      after.cameras = world.cameras ++ created ∧ created.map VisionCamera.config = entries := by
  have each (entry : Json) (rest : List Json) (before : World Scalar) (_ : True) : ∃ next,
      (createCameras.addCamera env file j entry).run before = .ok () next ∧ True ∧
        ∃ camera, next.cameras = before.cameras ++ [camera] ∧ camera.config = entry := by
    obtain ⟨next, first, appended⟩ := addCamera_appends env file j entry before
    exact ⟨next, first, trivial, appended⟩
  exact forM_appends (fun _ _ => True) each trivial

/-- The entries are those of a counted key. -/
theorem cameraEntries_cases (j : Json) :
    (j.count "cameras" < 1 ∧ cameraEntries j = []) ∨
      (¬ j.count "cameras" < 1 ∧ ∃ cameras, j.atKey "cameras" = .ok cameras ∧
        cameraEntries j = cameras.items) := by
  have counted := Json.count_pos_iff j "cameras"
  unfold cameraEntries
  cases found : j.atKey "cameras" with
  | error e =>
      refine .inl ⟨?_, rfl⟩
      rw [found] at counted
      have absent : ¬ 0 < j.count "cameras" := fun present => nomatch counted.mp present
      omega
  | ok cameras =>
      have present := counted.mpr ⟨cameras, found⟩
      exact .inr ⟨by omega, cameras, rfl, rfl⟩

theorem addCameras_appends (file : String) (j : Json) (world : World Scalar) :
    ∃ after created, (createCameras.addCameras env file j).run world = .ok () after ∧
      after.cameras = world.cameras ++ created ∧
      created.map VisionCamera.config = cameraEntries j := by
  unfold createCameras.addCameras
  obtain ⟨absent, none⟩ | ⟨present, cameras, found, entries⟩ := cameraEntries_cases j
  · rw [if_pos absent, none]
    exact ⟨_, [], rfl, (List.append_nil _).symm, rfl⟩
  · obtain ⟨after, created, done, appended, configs⟩ := addCamera_loop env file j cameras.items world
    refine ⟨after, created, ?_, appended, configs.trans entries.symm⟩
    rw [if_neg present, found, run_tryCatch, run_bind_of_ok (run_liftExcept_ok cameras world), done]

/-- The file holds a number beyond `double`, which is no parse error. -/
def Overflows (file : String) : Prop := ∃ e, env.files file = .overflowing e

/-- The type of an entry of the file selects a matrix that cannot be reshaped. -/
def FileSelectsGaps (calibrations : CalibList) (file : String) (sources : Nat) : Prop :=
  ∃ j, env.files file = .value j ∧ j.isObject = true ∧
    ∃ visit ∈ visits env sources (cameraEntries j), SelectsGaps calibrations visit

theorem addListed_appends (file : String) {j : Json} {calibrations : CalibList}
    {world : World Scalar} (safe : ∀ visit ∈ visits env world.sources.length (cameraEntries j),
      ¬ SelectsGaps calibrations visit) :
    ∃ after created, (createCamerasList.addCameras env file j calibrations).run world = .ok () after ∧
      after.cameras = world.cameras ++ created ∧
      created.map VisionCamera.config = cameraEntries j := by
  unfold createCamerasList.addCameras
  obtain ⟨absent, none⟩ | ⟨present, cameras, found, entries⟩ := cameraEntries_cases j
  · rw [if_pos absent, none]
    exact ⟨_, [], rfl, (List.append_nil _).symm, rfl⟩
  · rw [entries] at safe
    obtain ⟨after, created, done, appended, configs⟩ := addListed_loop env file j
      (decide (j.count "calibrations" > 0)) safe
    refine ⟨after, created, ?_, appended, configs.trans entries.symm⟩
    rw [if_neg present, found, catchJson, run_tryCatch,
      run_bind_of_ok (ofLoader_run (run_liftExcept_ok cameras world)), done]

theorem addListed_escapes (file : String) {j : Json} {calibrations : CalibList}
    {world : World Scalar} (selects : ∃ visit ∈ visits env world.sources.length (cameraEntries j),
      SelectsGaps calibrations visit) :
    ∃ after, (createCamerasList.addCameras env file j calibrations).run world =
      .error .badStep after := by
  unfold createCamerasList.addCameras
  obtain ⟨absent, none⟩ | ⟨present, cameras, found, entries⟩ := cameraEntries_cases j
  · rw [none] at selects
    obtain ⟨visit, member, _⟩ := selects
    cases member
  · rw [entries] at selects
    obtain ⟨after, failed⟩ := addListed_loop_fails env file j
      (decide (j.count "calibrations" > 0)) selects
    rw [if_neg present, found, catchJson, run_tryCatch,
      run_bind_of_ok (ofLoader_run (run_liftExcept_ok cameras world)), failed]
    exact ⟨after, rfl⟩

/-- The loader of the file returns an object, refuses the file or passes the overflow on. -/
theorem loadJson_run (file : String) (world : World Scalar) :
    (∃ e, env.files file = .overflowing e ∧ (loadJson env file).run world = .error e world) ∨
      (¬ Overflows env file ∧ Refused (env.files file) ∧ ∃ line, (loadJson env file).run world =
        .ok none { world with effects := world.effects ++ [.errs line] }) ∨
      ∃ j, env.files file = .value j ∧ j.isObject = true ∧
        (loadJson env file).run world = .ok (some j) world := by
  unfold loadJson Overflows
  cases content : env.files file with
  | unreadable message => exact .inr (.inl ⟨fun overflow => (nomatch overflow), trivial, _, rfl⟩)
  | malformed e => exact .inr (.inl ⟨fun overflow => (nomatch overflow), trivial, _, rfl⟩)
  | overflowing e => exact .inl ⟨e, rfl, rfl⟩
  | value j =>
      cases object : j.isObject with
      | true => exact .inr (.inr ⟨j, rfl, object, by simp [object]⟩)
      | false =>
          refine .inr (.inl ⟨fun overflow => (nomatch overflow), object,
            "Config error in " ++ file ++ ": must be JSON object", ?_⟩)
          simp only [object]
          rfl

section Outcomes

variable {Error : Type} {load : EStateM Error (World Scalar) Bool} {content : FileContent}
  {world after : World Scalar}

/-- An exception of the load is no answer. -/
theorem not_loadsEachEntry_of_error {e : Error} (failed : load.run world = .error e after) :
    ¬ LoadsEachEntry load content world := by
  intro loads
  obtain ⟨result, final, done, _⟩ := loads
  rw [failed] at done
  cases done

theorem loadsEachEntry_refused (refused : Refused content)
    (done : load.run world = .ok false after) (same : after.cameras = world.cameras) :
    LoadsEachEntry load content world :=
  ⟨false, after, done, by simp [refused], fun _ => same, fun loaded => (nomatch loaded)⟩

theorem loadsEachEntry_loaded {j : Json} (value : content = .value j) (object : j.isObject = true)
    {created : List VisionCamera} (done : load.run world = .ok true after)
    (appended : after.cameras = world.cameras ++ created)
    (configs : created.map VisionCamera.config = cameraEntries j) :
    LoadsEachEntry load content world := by
  refine ⟨true, after, done, ?_, fun failed => (nomatch failed), fun _ => ?_⟩
  · rw [value]
    simp [Refused, object]
  · exact ⟨j, created, value, appended, configs⟩

end Outcomes

/-- The first overload answers exactly for the files without an overflowing number. -/
theorem createCameras_loads_iff (file : String) (world : World Scalar) :
    LoadsEachEntry (createCameras env file) (env.files file) world ↔ ¬ Overflows env file := by
  obtain ⟨e, overflow, failed⟩ | ⟨finite, refused, line, done⟩ | ⟨j, content, object, done⟩ :=
    loadJson_run env file world
  · have escapes : (createCameras env file).run world = .error e world :=
      run_bind_of_error failed _
    exact ⟨fun loads => absurd loads (not_loadsEachEntry_of_error escapes),
      fun finite => absurd ⟨e, overflow⟩ finite⟩
  · have ends : (createCameras env file).run world =
        .ok false { world with effects := world.effects ++ [.errs line] } := by
      rw [createCameras, run_bind_of_ok done]
      rfl
    exact ⟨fun _ => finite, fun _ => loadsEachEntry_refused refused ends rfl⟩
  · have finite : ¬ Overflows env file := by
      rintro ⟨e, overflow⟩
      rw [content] at overflow
      cases overflow
    refine ⟨fun _ => finite, fun _ => ?_⟩
    obtain ⟨after, created, added, appended, configs⟩ := addCameras_appends env file j world
    refine loadsEachEntry_loaded content object ?_ appended configs
    rw [createCameras, run_bind_of_ok done]
    dsimp only
    rw [run_bind_of_ok added]
    rfl

/-- The second overload also needs matrices that can be reshaped. -/
theorem createCamerasList_loads_iff (calibrations : CalibList) (file : String)
    (world : World Scalar) :
    LoadsEachEntry (createCamerasList env calibrations file) (env.files file) world ↔
      ¬ Overflows env file ∧ ¬ FileSelectsGaps env calibrations file world.sources.length := by
  obtain ⟨e, overflow, failed⟩ | ⟨finite, refused, line, done⟩ | ⟨j, content, object, done⟩ :=
    loadJson_run env file world
  · have escapes : (createCamerasList env calibrations file).run world =
        .error (LoadException.json e) world := run_bind_of_error (ofLoader_error failed) _
    exact ⟨fun loads => absurd loads (not_loadsEachEntry_of_error escapes),
      fun finite => absurd ⟨e, overflow⟩ finite.1⟩
  · have none : ¬ FileSelectsGaps env calibrations file world.sources.length := by
      rintro ⟨j, content, object, _⟩
      rw [content, Refused, object] at refused
      cases refused
    have ends : (createCamerasList env calibrations file).run world =
        .ok false { world with effects := world.effects ++ [.errs line] } := by
      rw [createCamerasList, run_bind_of_ok (ofLoader_run done)]
      rfl
    exact ⟨fun _ => ⟨finite, none⟩, fun _ => loadsEachEntry_refused refused ends rfl⟩
  · have finite : ¬ Overflows env file := by
      rintro ⟨e, overflow⟩
      rw [content] at overflow
      cases overflow
    by_cases selects : ∃ visit ∈ visits env world.sources.length (cameraEntries j),
        SelectsGaps calibrations visit
    · obtain ⟨after, failed⟩ := addListed_escapes env file selects
      have escapes : (createCamerasList env calibrations file).run world = .error .badStep after := by
        rw [createCamerasList, run_bind_of_ok (ofLoader_run done)]
        exact run_bind_of_error failed _
      exact ⟨fun loads => absurd loads (not_loadsEachEntry_of_error escapes),
        fun safe => absurd ⟨j, content, object, selects⟩ safe.2⟩
    · have none : ¬ FileSelectsGaps env calibrations file world.sources.length := by
        rintro ⟨other, content', _, gaps⟩
        rw [content] at content'
        cases content'
        exact selects gaps
      refine ⟨fun _ => ⟨finite, none⟩, fun _ => ?_⟩
      obtain ⟨after, created, added, appended, configs⟩ :=
        addListed_appends env file fun visit member gaps => selects ⟨visit, member, gaps⟩
      refine loadsEachEntry_loaded content object ?_ appended configs
      rw [createCamerasList, run_bind_of_ok (ofLoader_run done)]
      dsimp only
      rw [run_bind_of_ok added]
      rfl

/-- Both overloads answer with one camera for each entry exactly for the files whose numbers fit
`double`, the second one only when no entry selects a matrix that cannot be reshaped. -/
theorem loadsEachEntry_iff (calibrations : CalibList) (file : String) (world : World Scalar) :
    (LoadsEachEntry (createCameras env file) (env.files file) world ↔ ¬ Overflows env file) ∧
      (LoadsEachEntry (createCamerasList env calibrations file) (env.files file) world ↔
        ¬ Overflows env file ∧ ¬ FileSelectsGaps env calibrations file world.sources.length) :=
  ⟨createCameras_loads_iff env file world, createCamerasList_loads_iff env calibrations file world⟩

/-- The file holds one camera and a number beyond `double`. -/
def overflowEnv : Environment Int where
  toFloat
    | .integer value => value
    | .decimal value => value.floor
  liveMode _ := .default
  files _ := .overflowing (.outOfRange 406 "number overflow parsing '1e999'")
  clientVersion := 4

/-- The exception of the parser escapes from both overloads. -/
theorem overflow_not_loads :
    ¬ LoadsEachEntry (createCameras overflowEnv "frc.json") (overflowEnv.files "frc.json")
        ⟨fun _ _ => 0, [], [], []⟩ ∧
      ¬ LoadsEachEntry (createCamerasList overflowEnv [] "frc.json") (overflowEnv.files "frc.json")
        ⟨fun _ _ => 0, [], [], []⟩ :=
  ⟨not_loadsEachEntry_of_error rfl, not_loadsEachEntry_of_error rfl⟩

end VisionServer.Config
