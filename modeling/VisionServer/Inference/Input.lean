/-
This file decides which models get the pixels of a frame at the places of their input.
-/

import VisionServer.Inference.Construct
import VisionServer.Inference.Resampling

namespace VisionServer.Inference
open Library Camera

/-- A matrix is written row by row, with the three channels of a pixel together. -/
def Mat.write (mat : Mat) (pixel : Nat → Nat → Nat → UInt8) (bytes : Nat → UInt8) (k : Nat) : UInt8 :=
  if k < mat.rows * mat.cols * 3 then pixel (k / 3 % mat.cols.toNat) (k / 3 / mat.cols.toNat) (k % 3) else bytes k

section Process

variable (resize : Resize)

/-- The requested size is the size of the matrix, so the bytes of the tensor are written. -/
def TfModel.resizeInput (tf : TfModel) (frame : Frame) (bytes : Nat → UInt8) : Nat → UInt8 :=
  tf.inputTensor.write (resize frame tf.inputSize.width.toNat tf.inputSize.height.toNat) bytes

/-- These are the bytes of the input when the model is invoked, if it is invoked. -/
def AxonRunner.processInput (runner : AxonRunner) (frame : Frame) (bytes : Nat → UInt8) : Option (Nat → UInt8) :=
  if runner.isValidBuffer then some (runner.resizeInput resize frame bytes) else none

/-- An indeterminate pointer can have any truth value. -/
def MoveNet.isValidOutput (runner : MoveNet) (raw : Bool) : Bool :=
  match runner.outputs with
  | .indeterminate => raw
  | .null => false
  | .output _ => true

def MoveNet.processInput (runner : MoveNet) (raw : Bool) (frame : Frame) (bytes : Nat → UInt8) :
    Option (Nat → UInt8) :=
  if runner.isValidBuffer ∧ runner.isValidOutput raw then some (runner.resizeInput resize frame bytes) else none

end Process

/-- A model has one input of the shape `[1, height, width, 3]`. -/
structure ImageModel where
  model : Interpreter
  input : InputTensor
  height : Nat
  width : Nat
  single : model.inputs = [input]
  batch : input.dims 0 = 1
  second : input.dims 1 = height
  third : input.dims 2 = width
  channels : input.dims 3 = 3
  type : input.type = .uint8
  allocated : input.data ≠ none
  high : 0 < height
  wide : 0 < width

/-- Each channel of the resampled frame is at its place of the input. -/
def ImageModel.Holds (m : ImageModel) (resize : Resize) (frame : Frame) (written : Nat → UInt8) : Prop :=
  ∀ x < m.width, ∀ y < m.height, ∀ c < 3,
    written ((y * m.width + x) * 3 + c) = resize frame m.width m.height x y c

/-- Both pipelines place every frame in the input of a model. -/
structure Places (resize : Resize) (m : ImageModel) : Prop where
  axon : ∀ tpus options map runner, AxonRunner.construct tpus options map = some runner →
    runner.model = some m.model → ∀ frame bytes written,
      runner.processInput resize frame bytes = some written → m.Holds resize frame written
  moveNet : ∀ tpus ops runner, MoveNet.construct tpus ops = some runner → runner.model = some m.model →
    ∀ raw frame bytes written,
      runner.processInput resize raw frame bytes = some written → m.Holds resize frame written

section Bound

variable {m : ImageModel}

/-- The height of the shape is made the width of the matrix. -/
theorem ImageModel.bindInput_eq (tf : TfModel) : tf.bindInput m.model =
    { tf with
      inputSize := ⟨m.height, m.width⟩
      inputTensor := { rows := m.width, cols := m.height, data := m.input.data } } := by
  unfold TfModel.bindInput
  rw [m.single]
  dsimp only
  rw [if_pos ⟨m.channels, m.type⟩, m.second, m.third]
  rfl

/-- Both pipelines of the model have the same matrix and the same size. -/
theorem ImageModel.construct_input {tpus : Nat} {models : List (Loaded × Optimization)} {tf : TfModel}
    (constructed : TfModel.construct tpus models = some tf) (built : tf.model = some m.model) :
    tf.inputSize = ⟨m.height, m.width⟩ ∧
      tf.inputTensor = { rows := m.width, cols := m.height, data := m.input.data } := by
  rcases TfModel.construct_cases constructed with ⟨absent, -⟩ | ⟨model, found, bound⟩
  · rw [built] at absent
    cases absent
  · obtain rfl : m.model = model := Option.some.inj (built.symm.trans found)
    rw [bound, ImageModel.bindInput_eq]
    exact ⟨rfl, rfl⟩

/-- The written pixels are those of a frame that is resampled to the height as its width. -/
theorem ImageModel.resizeInput_at {tf : TfModel} (size : tf.inputSize = ⟨m.height, m.width⟩)
    (mat : tf.inputTensor = { rows := m.width, cols := m.height, data := m.input.data }) (resize : Resize)
    (frame : Frame) (bytes : Nat → UInt8) {k c : Nat} (inside : k < m.width * m.height) (channel : c < 3) :
    tf.resizeInput resize frame bytes (k * 3 + c) =
      resize frame m.height m.width (k % m.height) (k / m.height) c := by
  have range : ((k * 3 + c : Nat) : Int) < (m.width : Int) * m.height * 3 := by
    have byte : k * 3 + c < m.width * m.height * 3 := by omega
    exact_mod_cast byte
  have pixel : (k * 3 + c) / 3 = k := by omega
  have rest : (k * 3 + c) % 3 = c := by omega
  unfold TfModel.resizeInput Mat.write
  rw [size, mat, if_pos range, pixel, rest]
  rfl

/-- The frame is placed when each of its pixels is found where the height is taken for the width. -/
def ImageModel.Transposed (m : ImageModel) (resize : Resize) : Prop :=
  ∀ frame, ∀ x < m.width, ∀ y < m.height, ∀ c < 3,
    resize frame m.height m.width ((y * m.width + x) % m.height) ((y * m.width + x) / m.height) c =
      resize frame m.width m.height x y c

theorem ImageModel.holds_iff {tf : TfModel} (size : tf.inputSize = ⟨m.height, m.width⟩)
    (mat : tf.inputTensor = { rows := m.width, cols := m.height, data := m.input.data }) (resize : Resize) :
    (∀ frame bytes, m.Holds resize frame (tf.resizeInput resize frame bytes)) ↔ m.Transposed resize := by
  have inside {x y : Nat} (left : x < m.width) (above : y < m.height) : y * m.width + x < m.width * m.height := by
    calc y * m.width + x < y * m.width + m.width := Nat.add_lt_add_left left _
      _ = (y + 1) * m.width := (Nat.succ_mul _ _).symm
      _ ≤ m.height * m.width := Nat.mul_le_mul_right _ above
      _ = m.width * m.height := Nat.mul_comm _ _
  constructor
  · intro holds frame x left y above c channel
    rw [← holds frame (fun _ => 0) x left y above c channel,
      resizeInput_at size mat _ _ _ (inside left above) channel]
  · intro transposed frame bytes x left y above c channel
    rw [resizeInput_at size mat _ _ _ (inside left above) channel]
    exact transposed frame x left y above c channel

theorem ImageModel.isValidBuffer {tf : TfModel}
    (mat : tf.inputTensor = { rows := m.width, cols := m.height, data := m.input.data }) : tf.isValidBuffer := by
  have high := m.high
  have wide := m.wide
  unfold TfModel.isValidBuffer
  rw [mat]
  rintro (absent | zero)
  · exact m.allocated absent
  · rcases Int.mul_eq_zero.mp zero with rows | cols
    · exact absurd (Int.natCast_eq_zero.mp rows) wide.ne'
    · exact absurd (Int.natCast_eq_zero.mp cols) high.ne'

/-- Both pipelines write the same pixels. -/
theorem places_iff_transposed {resize : Resize} : Places resize m ↔ m.Transposed resize := by
  constructor
  · intro places
    have loaded : TfModel.construct 0 [(.built m.model, .default)] =
        some (({ map := true, model := some m.model } : TfModel).bindInput m.model) := rfl
    obtain ⟨runner, constructed, base⟩ := AxonRunner.exists_construct loaded []
    have built : runner.model = some m.model := by
      rw [base, TfModel.bindInput_model]
    obtain ⟨size, mat⟩ := ImageModel.construct_input (base ▸ loaded) built
    refine (ImageModel.holds_iff size mat resize).mp fun frame bytes => ?_
    exact places.axon 0 _ [] runner constructed built frame bytes _ (if_pos (ImageModel.isValidBuffer mat))
  · intro transposed
    constructor
    · intro tpus options map runner constructed built frame bytes written processed
      obtain ⟨size, mat⟩ := ImageModel.construct_input (AxonRunner.construct_cases constructed).1 built
      unfold AxonRunner.processInput at processed
      split at processed
      · cases processed
        exact (ImageModel.holds_iff size mat resize).mpr transposed frame bytes
      · cases processed
    · intro tpus ops runner constructed built raw frame bytes written processed
      obtain ⟨size, mat⟩ := ImageModel.construct_input (MoveNet.construct_base constructed) built
      unfold MoveNet.processInput at processed
      split at processed
      · cases processed
        exact (ImageModel.holds_iff size mat resize).mpr transposed frame bytes
      · cases processed

/-- A frame can have the size that the input should have. -/
def ImageModel.frame (m : ImageModel) (pixel : Nat → Nat → Nat → UInt8) : Frame where
  cols := m.width
  rows := m.height
  pixel := pixel
  wide := m.wide
  high := m.high

theorem ImageModel.Transposed.own {resize : Resize} (transposed : m.Transposed resize)
    (documented : Resamples resize) (pixel : Nat → Nat → Nat → UInt8) {x y : Nat} (left : x < m.width)
    (above : y < m.height) : resize (m.frame pixel) m.height m.width ((y * m.width + x) % m.height)
      ((y * m.width + x) / m.height) 0 = pixel x y 0 :=
  (transposed (m.frame pixel) x left y above 0 (by decide)).trans
    (documented.own (m.frame pixel) x left y above 0 (by decide))

/-- The pixels are at their places if and only if the height is the width. -/
theorem transposed_iff_square {resize : Resize} (documented : Resamples resize) :
    m.Transposed resize ↔ m.height = m.width := by
  have high := m.high
  have wide := m.wide
  constructor
  · intro transposed
    by_contra other
    rcases Nat.lt_or_gt_of_ne other with flat | tall
    · -- Of a bright left column, the first row has the first pixel of the second row.
      let bright : Nat → Nat → Nat → UInt8 := fun x _ _ => if x = 0 then 255 else 0
      have first := transposed.own documented bright wide high
      have second := transposed.own documented bright flat high
      have dark : bright m.height 0 0 = 0 := if_neg high.ne'
      rw [Nat.zero_mul, Nat.zero_mod, Nat.zero_div] at first
      rw [Nat.zero_mul, Nat.zero_add, Nat.mod_self, Nat.div_self high, dark] at second
      have near := documented.rows (m.frame bright) (fun _ _ _ _ _ _ _ _ => rfl) m.height m.width 0 high 0 wide 1
        (by omega) 0 (by decide)
      rw [first, second] at near
      exact absurd near (by decide)
    · -- Of a bright upper row, the first column of the second row is in the first row.
      let bright : Nat → Nat → Nat → UInt8 := fun _ y _ => if y = 0 then 255 else 0
      have first := transposed.own documented bright wide high
      have second := transposed.own documented bright wide (Nat.lt_of_le_of_lt wide tall)
      rw [Nat.zero_mul, Nat.zero_mod, Nat.zero_div] at first
      rw [Nat.one_mul, Nat.add_zero, Nat.mod_eq_of_lt tall, Nat.div_eq_of_lt tall] at second
      have near := documented.columns (m.frame bright) (fun _ _ _ _ _ _ _ _ => rfl) m.height m.width 0 wide 0 high
        m.width tall 0 (by decide)
      rw [first, second] at near
      exact absurd near (by decide)
  · intro square frame x left y above c channel
    have column : (y * m.width + x) % m.width = x := by
      rw [Nat.add_comm, Nat.add_mul_mod_self_right, Nat.mod_eq_of_lt left]
    have row : (y * m.width + x) / m.width = y := by
      rw [Nat.add_comm, Nat.add_mul_div_right _ _ wide, Nat.div_eq_of_lt left, Nat.zero_add]
    rw [square, column, row]

/-- The places of the pixels are those of the input if and only if its height is its width. -/
theorem places_iff_square {resize : Resize} (documented : Resamples resize) (m : ImageModel) :
    Places resize m ↔ m.height = m.width := by
  rw [places_iff_transposed, transposed_iff_square documented]

end Bound

/-- The input of this model is one row of three pixels. -/
def rowModel : ImageModel where
  model := { inputs := [{ dims := fun k => [1, 1, 3, 3].getD k 0, type := .uint8, data := some 0 }], outputs := [] }
  input := { dims := fun k => [1, 1, 3, 3].getD k 0, type := .uint8, data := some 0 }
  height := 1
  width := 3
  single := rfl
  batch := rfl
  second := rfl
  third := rfl
  channels := rfl
  type := rfl
  allocated := Option.some_ne_none 0
  high := by decide
  wide := by decide

theorem rowModel_places_iff : Places bilinear rowModel ↔ rowModel.height = rowModel.width :=
  places_iff_square bilinear_resamples rowModel

/-- The row is written as a column. -/
theorem rowModel_not_places : ¬Places bilinear rowModel := by
  rw [places_iff_transposed, transposed_iff_square bilinear_resamples]
  decide

end VisionServer.Inference
