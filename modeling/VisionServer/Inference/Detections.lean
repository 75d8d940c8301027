/-
This file decides when a pipeline reads the detections of its model without harm.
-/

import VisionServer.Inference.Construct
import VisionServer.Library.Exceptions
import VisionServer.Library.Floating

namespace VisionServer.Inference
open Library

/-- These are the values of the outputs when the model has been invoked. -/
abbrev Contents := Nat → List Floating

/-- The number of detections is read, or an entry of a detection. -/
inductive Access where
  | count (pointer : Pointer)
  | entry (pointer : Pointer) (idx : Nat)

inductive Fault where
  | undefined
  | outOfRange

/-- A program reads and logs its accesses until it ends or fails. -/
abbrev Reading := EStateM Fault (List Access)

def Contents.value (contents : Contents) : Pointer → Nat → Option Floating
  | .output index, place => (contents index)[place]?
  | _, _ => none

/-- There is no value behind the end of an output or behind another pointer. -/
def Contents.read (contents : Contents) (access : Access) (pointer : Pointer) (place : Nat) : Reading Floating := do
  modify (· ++ [access])
  orThrow (contents.value pointer place) .undefined

namespace AxonRunner

variable (runner : AxonRunner) (contents : Contents)

/-- Both branches of the conditional are of type `float`, so a null pointer gives minus one. -/
def detectionsValue : Reading Floating :=
  match runner.detections with
  | .null => pure (.finite (-1))
  | pointer => contents.read (.count pointer) pointer 0

/-- The conversion is undefined for a value that `size_t` cannot hold, such as minus one. -/
def getDetections : Reading Nat := do
  let value ← runner.detectionsValue contents
  orThrow value.toSizeT .undefined

/-- No place wraps around, since an earlier detection would be outside of every output. -/
def getCoord (idx offset : Nat) : Reading Floating :=
  contents.read (.entry runner.coords idx) runner.coords (idx * 4 + offset)

def getX1 (idx : Nat) : Reading Floating := runner.getCoord contents idx 1

def getY1 (idx : Nat) : Reading Floating := runner.getCoord contents idx 0

def getX2 (idx : Nat) : Reading Floating := runner.getCoord contents idx 3

def getY2 (idx : Nat) : Reading Floating := runner.getCoord contents idx 2

/-- The lookup throws for a number that is not below the number of labels. -/
def getLabel (idx : Nat) : Reading (List Char) := do
  let value ← contents.read (.entry runner.labels idx) runner.labels idx
  let label ← orThrow value.toSizeT .undefined
  orThrow runner.objLabels[label]? .outOfRange

/-- The percentage that is printed is left out. -/
def getConfidence (idx : Nat) : Reading Floating :=
  contents.read (.entry runner.confidence idx) runner.confidence idx

/-- The drawing itself reads no output. -/
def draw (i : Nat) : Reading PUnit := do
  let _ ← runner.getX1 contents i
  let _ ← runner.getY1 contents i
  let _ ← runner.getX2 contents i
  let _ ← runner.getY2 contents i
  let _ ← runner.getLabel contents i
  let _ ← runner.getConfidence contents i

/-- This is what follows the invocation of the model on its input. -/
def process : Reading PUnit := do
  if runner.isValidBuffer then
    let detected ← runner.getDetections contents
    (List.range detected).forM (runner.draw contents)

/-- This is the number that the pipeline reports when it has an output to read it from. -/
def reported : Option Nat :=
  match runner.detections with
  | .output index => (contents index)[0]?.bind Floating.toSizeT
  | _ => none

/-- An access reads an output that the constructor bound, at an index below the reported number. -/
def Allows : Access → Prop
  | .count pointer => ∃ index, pointer = .output index
  | .entry pointer idx => (∃ index, pointer = .output index) ∧ ∃ detected, runner.reported contents = some detected ∧
      idx < detected

/-- The pipeline ends normally, and it has done nothing but such accesses. -/
def Harmless : Prop :=
  ∃ accesses, (runner.process contents).run [] = .ok PUnit.unit accesses ∧
    ∀ access ∈ accesses, runner.Allows contents access

end AxonRunner

/-- An output holds at least so many values, unless none is needed. -/
def Interpreter.Fills (model : Interpreter) (contents : Contents) (index needed : Nat) : Prop :=
  needed = 0 ∨ model.outputData index = .output index ∧ needed ≤ (contents index).length

/-- A model has the four outputs, and they describe detections whose labels are in the file. -/
structure Interpreter.Describes (model : Interpreter) (objLabels : List (List Char)) (contents : Contents)
    (detected : Nat) : Prop where
  four : model.outputs.length = 4
  counted : model.Fills contents 3 1
  count : (contents 3)[0]?.bind Floating.toSizeT = some detected
  coords : model.Fills contents 0 (detected * 4)
  labels : model.Fills contents 1 detected
  confidence : model.Fills contents 2 detected
  named : ∀ value ∈ (contents 1).take detected, ∃ label, value.toSizeT = some label ∧ label < objLabels.length

section Reads

variable {contents : Contents}

theorem Contents.read_logs (access : Access) (pointer : Pointer) (place : Nat) :
    Logs (contents.read access pointer place) (contents.value pointer place = some ·) [access] := by
  intro state value next
  have logged : (modify (· ++ [access]) : Reading PUnit).run state = .ok PUnit.unit (state ++ [access]) := rfl
  unfold Contents.read
  rw [run_bind_of_ok logged, orThrow_logs _ _ _ _ _, List.append_nil]

namespace AxonRunner

variable {runner : AxonRunner}

/-- These are the accesses for one detection. -/
def shows (runner : AxonRunner) (idx : Nat) : List Access :=
  [.entry runner.coords idx, .entry runner.coords idx, .entry runner.coords idx, .entry runner.coords idx,
    .entry runner.labels idx, .entry runner.confidence idx]

/-- All values of a detection are there, and its label is in the file. -/
structure Shown (runner : AxonRunner) (contents : Contents) (idx : Nat) : Prop where
  coords : ∀ offset < 4, ∃ value, contents.value runner.coords (idx * 4 + offset) = some value
  label : ∃ value label, contents.value runner.labels idx = some value ∧ value.toSizeT = some label ∧
    label < runner.objLabels.length
  confidence : ∃ value, contents.value runner.confidence idx = some value

/-- A detection is drawn if and only if it can be shown. -/
theorem draw_logs (idx : Nat) :
    Logs (runner.draw contents idx) (fun _ => Shown runner contents idx) (runner.shows idx) := by
  have coord (offset : Nat) := @Contents.read_logs contents (.entry runner.coords idx) runner.coords
    (idx * 4 + offset)
  have label : Logs (runner.getLabel contents idx) _ [.entry runner.labels idx] :=
    Logs.bind (Contents.read_logs _ _ _) fun value =>
      Logs.bind (orThrow_logs value.toSizeT _) fun label => orThrow_logs runner.objLabels[label]? _
  have confidence := @Contents.read_logs contents (.entry runner.confidence idx) runner.confidence idx
  have drawn : Logs (runner.draw contents idx) _ (runner.shows idx) :=
    Logs.bind (coord 1) fun _ => Logs.bind (coord 0) fun _ => Logs.bind (coord 3) fun _ =>
      Logs.bind (coord 2) fun _ => Logs.bind label fun _ => Logs.bind confidence fun _ => Logs.pure PUnit.unit
  intro state value next
  refine (drawn state value next).trans (and_congr_left fun _ => ?_)
  constructor
  · rintro ⟨_, first, _, second, _, third, _, fourth, _, ⟨number, read, label, converted, found⟩, _, shown, -⟩
    refine ⟨fun offset small => ?_, ⟨number, label, read, converted, ?_⟩, ⟨_, shown⟩⟩
    · match offset with
      | 0 => exact ⟨_, second⟩
      | 1 => exact ⟨_, first⟩
      | 2 => exact ⟨_, fourth⟩
      | 3 => exact ⟨_, third⟩
    · exact (List.getElem?_eq_some_iff.mp found).1
  · rintro ⟨coords, ⟨number, label, read, converted, inside⟩, _, shown⟩
    obtain ⟨_, first⟩ := coords 1 (by decide)
    obtain ⟨_, second⟩ := coords 0 (by decide)
    obtain ⟨_, third⟩ := coords 3 (by decide)
    obtain ⟨_, fourth⟩ := coords 2 (by decide)
    exact ⟨_, first, _, second, _, third, _, fourth, _,
      ⟨number, read, label, converted, List.getElem?_eq_getElem inside⟩, _, shown, rfl⟩

/-- The number is read from an output, since neither another pointer nor minus one gives it. -/
theorem getDetections_run {state next : List Access} {detected : Nat}
    (done : (runner.getDetections contents).run state = .ok detected next) :
    ∃ index, runner.detections = .output index ∧ runner.reported contents = some detected ∧
      next = state ++ [.count (.output index)] := by
  obtain ⟨value, middle, here, converted⟩ := run_bind_eq_ok.mp done
  obtain ⟨counted, rfl⟩ := (orThrow_logs _ _ _ _ _).mp converted
  unfold detectionsValue at here
  cases pointer : runner.detections with
  | indeterminate =>
      rw [pointer] at here
      cases ((Contents.read_logs _ _ _ _ _ _).mp here).1
  | null =>
      rw [pointer] at here
      cases here
      have undefined : (Floating.finite (-1)).toSizeT = none := by decide
      rw [undefined] at counted
      cases counted
  | output index =>
      rw [pointer] at here
      obtain ⟨found, rfl⟩ := (Contents.read_logs _ _ _ _ _ _).mp here
      refine ⟨index, rfl, ?_, List.append_nil _⟩
      unfold reported
      rw [pointer]
      exact Option.bind_eq_some_iff.mpr ⟨value, found, counted⟩

theorem getDetections_output {index detected : Nat} (pointer : runner.detections = .output index)
    (counted : runner.reported contents = some detected) (state : List Access) :
    (runner.getDetections contents).run state = .ok detected (state ++ [.count (.output index)]) := by
  unfold reported at counted
  rw [pointer] at counted
  obtain ⟨value, found, converted⟩ := Option.bind_eq_some_iff.mp counted
  have here := (Contents.read_logs (.count (.output index)) (.output index) 0 state value _).mpr ⟨found, rfl⟩
  have read : (runner.detectionsValue contents).run state = .ok value (state ++ [.count (.output index)]) := by
    unfold detectionsValue
    rw [pointer]
    exact here
  refine run_bind_eq_ok.mpr ⟨value, _, read, (orThrow_logs _ _ _ _ _).mpr ⟨converted, ?_⟩⟩
  exact (List.append_nil _).symm

theorem process_of_valid (valid : runner.isValidBuffer) : runner.process contents =
    runner.getDetections contents >>= fun detected => (List.range detected).forM (runner.draw contents) :=
  if_pos valid

theorem value_output {pointer : Pointer} {place : Nat} {value : Floating}
    (found : contents.value pointer place = some value) : ∃ index, pointer = .output index := by
  cases pointer with
  | output index => exact ⟨index, rfl⟩
  | indeterminate => cases found
  | null => cases found

/-- What is shown of a detection is read from outputs. -/
theorem Shown.outputs {idx : Nat} (shown : Shown runner contents idx) {access : Access}
    (member : access ∈ runner.shows idx) : ∃ index, access = .entry (.output index) idx := by
  obtain ⟨_, first⟩ := shown.coords 0 (by decide)
  obtain ⟨_, _, second, -⟩ := shown.label
  obtain ⟨_, third⟩ := shown.confidence
  obtain ⟨coords, coordsOutput⟩ := value_output first
  obtain ⟨labels, labelsOutput⟩ := value_output second
  obtain ⟨confidence, confidenceOutput⟩ := value_output third
  rw [shows, coordsOutput, labelsOutput, confidenceOutput] at member
  simp only [List.mem_cons, List.not_mem_nil, or_false] at member
  rcases member with rfl | rfl | rfl | rfl | rfl | rfl <;> exact ⟨_, rfl⟩

/-- Behind a bound input, all the reported detections are shown. -/
theorem harmless_iff_of_valid (valid : runner.isValidBuffer) : runner.Harmless contents ↔
    ∃ index detected, runner.detections = .output index ∧ runner.reported contents = some detected ∧
      ∀ i < detected, Shown runner contents i := by
  have loop (detected : Nat) := Logs.forM (@draw_logs contents runner) (List.range detected)
  unfold Harmless
  rw [process_of_valid valid]
  constructor
  · rintro ⟨accesses, done, -⟩
    obtain ⟨detected, middle, counted, drawn⟩ := run_bind_eq_ok.mp done
    obtain ⟨shown, rfl⟩ := (loop detected _ _ _).mp drawn
    obtain ⟨index, pointer, reports, rfl⟩ := getDetections_run counted
    exact ⟨index, detected, pointer, reports, fun i below => shown i (List.mem_range.mpr below)⟩
  · rintro ⟨index, detected, pointer, reports, shown⟩
    refine ⟨_, run_bind_eq_ok.mpr ⟨detected, _, getDetections_output pointer reports [],
      (loop detected _ _ _).mpr ⟨fun i member => shown i (List.mem_range.mp member), rfl⟩⟩, ?_⟩
    intro access member
    rcases List.mem_append.mp member with count | entries
    · rw [List.nil_append, List.mem_singleton] at count
      rw [count]
      exact ⟨index, rfl⟩
    · obtain ⟨i, below, shows⟩ := List.mem_flatMap.mp entries
      have inside := List.mem_range.mp below
      obtain ⟨output, rfl⟩ := (shown i inside).outputs shows
      exact ⟨⟨output, rfl⟩, detected, reports, inside⟩

/-- Without an input nothing is read. -/
theorem harmless_of_invalid (invalid : ¬runner.isValidBuffer) : runner.Harmless contents := by
  have ended : (runner.process contents).run [] = .ok PUnit.unit [] := by
    unfold process
    rw [if_neg invalid]
    rfl
  exact ⟨[], ended, fun _ member => absurd member List.not_mem_nil⟩

end AxonRunner

end Reads

section Described

variable {model : Interpreter} {contents : Contents}

/-- The data of an output leads to its own values. -/
theorem Interpreter.outputData_value {index place : Nat} {value : Floating}
    (found : contents.value (model.outputData index) place = some value) :
    model.outputData index = .output index ∧ (contents index)[place]? = some value := by
  have pointer : model.outputData index = .output index := by
    unfold Interpreter.outputData at found ⊢
    split at found
    · split at found
      · rename_i allocated
        rw [if_pos allocated]
      · cases found
    · cases found
  rw [pointer] at found
  exact ⟨pointer, found⟩

/-- An output is read at all places below a bound if and only if it fills them. -/
theorem Interpreter.fills_iff {index needed : Nat} : model.Fills contents index needed ↔
    ∀ place < needed, ∃ value, contents.value (model.outputData index) place = some value := by
  constructor
  · rintro (none | ⟨pointer, enough⟩) place below
    · omega
    · rw [pointer]
      exact ⟨_, List.getElem?_eq_getElem (Nat.lt_of_lt_of_le below enough)⟩
  · intro filled
    by_cases none : needed = 0
    · exact Or.inl none
    · obtain ⟨last, found⟩ := filled (needed - 1) (by omega)
      obtain ⟨pointer, inside⟩ := Interpreter.outputData_value found
      have below := (List.getElem?_eq_some_iff.mp inside).1
      exact Or.inr ⟨pointer, by omega⟩

variable {runner : AxonRunner}

/-- The number is reported from the last output. -/
theorem AxonRunner.reported_iff (detections : runner.detections = model.outputData 3) {detected : Nat} :
    (∃ index, runner.detections = .output index ∧ runner.reported contents = some detected) ↔
      model.Fills contents 3 1 ∧ (contents 3)[0]?.bind Floating.toSizeT = some detected := by
  constructor
  · rintro ⟨index, pointer, reports⟩
    unfold AxonRunner.reported at reports
    rw [pointer] at reports
    obtain ⟨value, found, converted⟩ := Option.bind_eq_some_iff.mp reports
    have read : contents.value (model.outputData 3) 0 = some value := by
      rw [← detections, pointer]
      exact found
    obtain ⟨-, first⟩ := Interpreter.outputData_value read
    refine ⟨Interpreter.fills_iff.mpr fun place below => ?_, Option.bind_eq_some_iff.mpr ⟨value, first, converted⟩⟩
    obtain rfl : place = 0 := by omega
    exact ⟨value, read⟩
  · rintro ⟨none | ⟨pointer, -⟩, count⟩
    · cases none
    · rw [← detections] at pointer
      refine ⟨3, pointer, ?_⟩
      unfold AxonRunner.reported
      rw [pointer]
      exact count

/-- With bound outputs, the reported detections are shown if and only if the model describes them. -/
theorem AxonRunner.shown_iff_describes (four : model.outputs.length = 4)
    (coords : runner.coords = model.outputData 0) (labels : runner.labels = model.outputData 1)
    (confidence : runner.confidence = model.outputData 2) (detections : runner.detections = model.outputData 3) :
    (∃ index detected, runner.detections = .output index ∧ runner.reported contents = some detected ∧
      ∀ i < detected, Shown runner contents i) ↔
    ∃ detected, model.Describes runner.objLabels contents detected := by
  constructor
  · rintro ⟨index, detected, pointer, reports, shown⟩
    obtain ⟨counted, count⟩ := (AxonRunner.reported_iff detections).mp ⟨index, pointer, reports⟩
    refine ⟨detected, four, counted, count, Interpreter.fills_iff.mpr ?_, Interpreter.fills_iff.mpr ?_,
      Interpreter.fills_iff.mpr ?_, ?_⟩
    · intro place below
      have corner := (shown (place / 4) (by omega)).coords (place % 4) (Nat.mod_lt _ (by decide))
      rwa [Nat.div_add_mod', coords] at corner
    · intro place below
      obtain ⟨value, _, found, -⟩ := (shown place below).label
      exact ⟨value, labels ▸ found⟩
    · intro place below
      exact confidence ▸ (shown place below).confidence
    · intro value member
      obtain ⟨place, below, rfl⟩ := List.mem_take_iff_getElem.mp member
      obtain ⟨value, label, found, converted, named⟩ := (shown place (by omega)).label
      obtain ⟨-, same⟩ := Interpreter.outputData_value (labels ▸ found)
      rw [List.getElem?_eq_getElem (by omega), Option.some.injEq] at same
      exact ⟨label, same ▸ converted, named⟩
  · rintro ⟨detected, describes⟩
    obtain ⟨index, pointer, reports⟩ := (AxonRunner.reported_iff detections).mpr ⟨describes.counted, describes.count⟩
    refine ⟨index, detected, pointer, reports, fun i below => ⟨fun offset small => ?_, ?_, ?_⟩⟩
    · rw [coords]
      exact Interpreter.fills_iff.mp describes.coords _ (by omega)
    · obtain ⟨value, found⟩ := Interpreter.fills_iff.mp describes.labels i below
      obtain ⟨inside, rfl⟩ := List.getElem?_eq_some_iff.mp (Interpreter.outputData_value found).2
      obtain ⟨label, converted, named⟩ := describes.named _
        (List.mem_take_iff_getElem.mpr ⟨i, Nat.lt_min.mpr ⟨below, inside⟩, rfl⟩)
      exact ⟨_, label, labels ▸ found, converted, named⟩
    · rw [confidence]
      exact Interpreter.fills_iff.mp describes.confidence i below

end Described

/-- The pipeline does no harm if and only if it has no input, or its model has four outputs that describe
detections with labels of the file. -/
theorem harmless_iff_describes {tpus : Nat} {options : List (Loaded × Optimization)} {map : List Char}
    {runner : AxonRunner} (constructed : AxonRunner.construct tpus options map = some runner)
    (contents : Contents) : runner.Harmless contents ↔
      ¬runner.isValidBuffer ∨
        ∃ model detected, runner.model = some model ∧ model.Describes runner.objLabels contents detected := by
  by_cases valid : runner.isValidBuffer
  · rw [AxonRunner.harmless_iff_of_valid valid]
    obtain ⟨-, -, bound | ⟨others, unbound⟩⟩ := AxonRunner.construct_cases constructed
    · obtain ⟨model, built, -, four, coords, labels, confidence, detections⟩ := bound
      rw [AxonRunner.shown_iff_describes four coords labels confidence detections]
      constructor
      · rintro ⟨detected, describes⟩
        exact Or.inr ⟨model, detected, built, describes⟩
      · rintro (invalid | ⟨other, detected, same, describes⟩)
        · exact absurd valid invalid
        · obtain rfl : model = other := Option.some.inj (built.symm.trans same)
          exact ⟨detected, describes⟩
    · constructor
      · rintro ⟨index, detected, pointer, -⟩
        rw [unbound] at pointer
        cases pointer
      · rintro (invalid | ⟨model, detected, built, describes⟩)
        · exact absurd valid invalid
        · exact absurd describes.four (others model built valid)
  · exact iff_of_true (AxonRunner.harmless_of_invalid valid) (Or.inl valid)

/-- The input of these models is one pixel. -/
def pixelInput : InputTensor where
  dims k := [1, 1, 1, 3].getD k 0
  type := .uint8
  data := some 0

def detector : Interpreter where
  inputs := [pixelInput]
  outputs := List.replicate 4 { allocated := true }

def detectorRunner : AxonRunner where
  map := true
  model := some detector
  inputTensor := { rows := 1, cols := 1, data := some 0 }
  inputSize := ⟨1, 1⟩
  objLabels := [['a']]
  coords := .output 0
  labels := .output 1
  confidence := .output 2
  detections := .output 3

def oneDetection : Contents
  | 0 => [.finite 0, .finite 0, .finite 1, .finite 1]
  | 1 => [.finite 0]
  | 2 => [.finite 1]
  | _ => [.finite 1]

theorem detector_harmless : detectorRunner.Harmless oneDetection := by
  have constructed : AxonRunner.construct 0 [(.built detector, .default)] ['a'] = some detectorRunner := rfl
  refine (harmless_iff_describes constructed oneDetection).mpr
    (Or.inr ⟨detector, 1, rfl, rfl, ?_, rfl, ?_, ?_, ?_, ?_⟩)
  · exact Or.inr ⟨rfl, by decide⟩
  · exact Or.inr ⟨rfl, by decide⟩
  · exact Or.inr ⟨rfl, by decide⟩
  · exact Or.inr ⟨rfl, by decide⟩
  · intro value member
    obtain rfl : value = .finite 0 := List.mem_singleton.mp member
    exact ⟨0, rfl, by decide⟩

/-- This model has a single output. -/
def classifier : Interpreter where
  inputs := [pixelInput]
  outputs := [{ allocated := true }]

def classifierRunner : AxonRunner where
  map := true
  model := some classifier
  inputTensor := { rows := 1, cols := 1, data := some 0 }
  inputSize := ⟨1, 1⟩
  objLabels := [['a']]

/-- The pointers to the outputs of the classifier are not set, and they are read. -/
theorem classifier_not_harmless :
    AxonRunner.construct 0 [(.built classifier, .default)] ['a'] = some classifierRunner ∧
      ¬classifierRunner.Harmless oneDetection := by
  refine ⟨rfl, fun harmless => ?_⟩
  have valid : classifierRunner.isValidBuffer := by decide
  obtain ⟨index, detected, pointer, -⟩ := (AxonRunner.harmless_iff_of_valid valid).mp harmless
  cases pointer

end VisionServer.Inference
