/-
This file constructs the models and the pipelines that run them.
-/

import VisionServer.Camera.Modes
import VisionServer.Inference.Labels

namespace VisionServer.Inference
open Library Camera

/-- These are the types that the constructor tells apart. -/
inductive TensorType where
  | uint8
  | other
deriving DecidableEq

/-- The words from `dims->data` on hold the shape, and behind it whatever the memory holds. -/
structure InputTensor where
  dims : Nat → Int
  type : TensorType
  data : Option Nat

/-- The values of a tensor are at an address when they are allocated. -/
structure OutputTensor where
  allocated : Bool

structure Interpreter where
  inputs : List InputTensor
  outputs : List OutputTensor

inductive Optimization where
  | default
  | edgetpu
deriving DecidableEq

/-- A file gives no model, or a model without an interpreter, or an interpreter. -/
inductive Loaded where
  | missing
  | unbuilt
  | built (model : Interpreter)

/-- This is `cv::Mat` around the data of a tensor. -/
structure Mat where
  rows : Int := 0
  cols : Int := 0
  data : Option Nat := none

def Mat.empty (mat : Mat) : Prop := mat.data = none ∨ mat.rows * mat.cols = 0

instance (mat : Mat) : Decidable mat.empty := inferInstanceAs (Decidable (_ ∨ _))

/-- The constructor of a matrix takes the rows from the height and the columns from the width. -/
def Mat.ofSize (size : Size) (data : Option Nat) : Mat := { rows := size.height, cols := size.width, data := data }

structure TfModel where
  map : Bool := false
  model : Option Interpreter := none
  inputTensor : Mat := {}
  inputSize : Size := ⟨0, 0⟩

namespace TfModel

def isValidBuffer (tf : TfModel) : Prop := ¬tf.inputTensor.empty

instance (tf : TfModel) : Decidable tf.isValidBuffer := inferInstanceAs (Decidable (¬_))

/-- The loop ends at the first interpreter, and there is no result when an external context is given to none. -/
def load (tpus : Nat) : List (Loaded × Optimization) → TfModel → Option TfModel
  | [], tf => some tf
  | (.missing, _) :: models, tf => load tpus models { tf with map := false }
  | (.unbuilt, optimization) :: models, tf =>
      if optimization = .edgetpu ∧ 0 < tpus then none
      else load tpus models { tf with map := true, model := none }
  | (.built model, _) :: _, tf => some { tf with map := true, model := some model }

/-- The buffer of a single input is made the input matrix when it holds bytes of three channels. -/
def bindInput (tf : TfModel) (model : Interpreter) : TfModel :=
  match model.inputs with
  | [input] =>
      let size : Size := ⟨input.dims 1, input.dims 2⟩
      if input.dims 3 = 3 ∧ input.type = .uint8 then
        { tf with inputSize := size, inputTensor := Mat.ofSize size input.data }
      else { tf with inputSize := size }
  | _ => { tf with inputSize := ⟨-1, -1⟩ }

/-- The input is bound when both the map and the model are there. -/
def construct (tpus : Nat) (models : List (Loaded × Optimization)) : Option TfModel := do
  let tf ← load tpus models {}
  match tf.map, tf.model with
  | true, some model => pure (tf.bindInput model)
  | _, _ => pure tf

end TfModel

section Loading

variable {tpus : Nat} {models : List (Loaded × Optimization)} {tf : TfModel} {model : Interpreter}

/-- Loading changes nothing but the map and the model, and an interpreter has its map. -/
theorem TfModel.load_eq {start : TfModel} (absent : start.model = none)
    (loaded : TfModel.load tpus models start = some tf) :
    tf = { start with map := tf.map, model := tf.model } ∧ (tf.model = none ∨ tf.map = true) := by
  induction models generalizing start with
  | nil =>
      cases loaded
      exact ⟨rfl, Or.inl absent⟩
  | cons entry models inductionHypothesis =>
      obtain ⟨file, optimization⟩ := entry
      cases file with
      | missing => exact @inductionHypothesis { start with map := false } absent loaded
      | unbuilt =>
          rw [TfModel.load] at loaded
          split at loaded
          · cases loaded
          · exact @inductionHypothesis { start with map := true, model := none } rfl loaded
      | built model =>
          cases loaded
          exact ⟨rfl, Or.inr rfl⟩

theorem TfModel.bindInput_model (tf : TfModel) (model : Interpreter) : (tf.bindInput model).model = tf.model := by
  unfold TfModel.bindInput
  split
  · dsimp only
    split <;> rfl
  · rfl

/-- A model either has no interpreter and no input, or it has bound the input of its interpreter. -/
theorem TfModel.construct_cases (constructed : TfModel.construct tpus models = some tf) :
    tf.model = none ∧ tf.inputTensor = {} ∨
      ∃ model, tf.model = some model ∧ tf = ({ map := true, model := some model } : TfModel).bindInput model := by
  obtain ⟨loaded, found, rest⟩ := Option.bind_eq_some_iff.mp constructed
  obtain ⟨kept, valid⟩ := TfModel.load_eq rfl found
  cases built : loaded.model with
  | none =>
      have same : loaded = tf := by
        rw [built] at rest
        cases mapped : loaded.map <;> rw [mapped] at rest <;> exact Option.some.inj rest
      refine Or.inl ⟨same ▸ built, ?_⟩
      rw [← same, kept]
  | some model =>
      have mapped : loaded.map = true := valid.resolve_left (built ▸ Option.some_ne_none model)
      rw [built, mapped] at rest kept
      have bound : loaded.bindInput model = tf := Option.some.inj rest
      refine Or.inr ⟨model, ?_, ?_⟩
      · rw [← bound, TfModel.bindInput_model, built]
      · rw [← bound, kept]

end Loading

/-- A pointer of a pipeline is left as the memory was, or it points nowhere or to the values of an output. -/
inductive Pointer where
  | indeterminate
  | null
  | output (index : Nat)
deriving DecidableEq

/-- This is `output_tensor(index)->data.data`. -/
def Interpreter.outputData (model : Interpreter) (index : Nat) : Pointer :=
  match model.outputs[index]? with
  | some tensor => if tensor.allocated then .output index else .null
  | none => .indeterminate

structure AxonRunner extends TfModel where
  objLabels : List (List Char)
  coords : Pointer := .indeterminate
  labels : Pointer := .indeterminate
  confidence : Pointer := .indeterminate
  detections : Pointer := .indeterminate

/-- The constructor binds the outputs when the buffer of the input is bound and there are four of them. -/
def AxonRunner.construct (tpus : Nat) (options : List (Loaded × Optimization)) (map : List Char) :
    Option AxonRunner := do
  let tf ← TfModel.construct tpus options
  let objLabels ← loadObjectLabels map []
  match tf.model with
  | some model =>
      if tf.isValidBuffer ∧ model.outputs.length = 4 then
        pure { tf with
          objLabels := objLabels
          coords := model.outputData 0
          labels := model.outputData 1
          confidence := model.outputData 2
          detections := model.outputData 3 }
      else pure { tf with objLabels := objLabels }
  | none => pure { tf with objLabels := objLabels }

structure MoveNet extends TfModel where
  outputs : Pointer := .indeterminate

/-- The constructor asks for the outputs of a model that may be missing. -/
def MoveNet.construct (tpus : Nat) (ops : List (Loaded × Optimization)) : Option MoveNet := do
  let tf ← TfModel.construct tpus ops
  let model ← tf.model
  if model.outputs.length = 1 then pure { tf with outputs := model.outputData 0 } else pure { tf with }

section Pipelines

variable {tpus : Nat} {models : List (Loaded × Optimization)} {tf : TfModel}

theorem loadObjectLabels_isSome (file : List Char) (objs : List (List Char)) :
    ∃ labels, loadObjectLabels file objs = some labels := by
  simp only [loadObjectLabels]
  split
  · exact ⟨_, foldlM_addLabel _ _⟩
  · exact ⟨_, rfl⟩

/-- The runner is bound when its input is bound and its model has four outputs. -/
theorem AxonRunner.construct_cases {map : List Char} {runner : AxonRunner}
    (constructed : AxonRunner.construct tpus models map = some runner) :
    TfModel.construct tpus models = some runner.toTfModel ∧ loadObjectLabels map [] = some runner.objLabels ∧
      ((∃ model, runner.model = some model ∧ runner.isValidBuffer ∧ model.outputs.length = 4 ∧
        runner.coords = model.outputData 0 ∧ runner.labels = model.outputData 1 ∧
        runner.confidence = model.outputData 2 ∧ runner.detections = model.outputData 3) ∨
      (∀ model, runner.model = some model → runner.isValidBuffer → model.outputs.length ≠ 4) ∧
        runner.detections = .indeterminate) := by
  obtain ⟨tf, base, rest⟩ := Option.bind_eq_some_iff.mp constructed
  obtain ⟨objLabels, read, rest⟩ := Option.bind_eq_some_iff.mp rest
  cases built : tf.model with
  | none =>
      rw [built] at rest
      cases rest
      refine ⟨base, read, Or.inr ⟨fun model found => ?_, rfl⟩⟩
      cases built.symm.trans found
  | some model =>
      rw [built] at rest
      dsimp only at rest
      split at rest
      · rename_i bound
        cases rest
        exact ⟨base, read, Or.inl ⟨model, built, bound.1, bound.2, rfl, rfl, rfl, rfl⟩⟩
      · rename_i other
        cases rest
        refine ⟨base, read, Or.inr ⟨fun next found valid count => ?_, rfl⟩⟩
        obtain rfl : model = next := Option.some.inj (built.symm.trans found)
        exact other ⟨valid, count⟩

/-- Every model has its runner. -/
theorem AxonRunner.exists_construct (constructed : TfModel.construct tpus models = some tf) (map : List Char) :
    ∃ runner, AxonRunner.construct tpus models map = some runner ∧ runner.toTfModel = tf := by
  obtain ⟨labels, read⟩ := loadObjectLabels_isSome map []
  unfold AxonRunner.construct
  rw [constructed, read]
  simp only [Option.bind_eq_bind, Option.bind_some]
  cases tf.model with
  | none => exact ⟨_, rfl, rfl⟩
  | some model =>
      dsimp only
      split <;> exact ⟨_, rfl, rfl⟩

theorem MoveNet.construct_base {runner : MoveNet} (constructed : MoveNet.construct tpus models = some runner) :
    TfModel.construct tpus models = some runner.toTfModel := by
  obtain ⟨tf, base, rest⟩ := Option.bind_eq_some_iff.mp constructed
  obtain ⟨model, -, rest⟩ := Option.bind_eq_some_iff.mp rest
  split at rest <;> cases rest <;> exact base

end Pipelines

end VisionServer.Inference
