/-
This file models the sources of the pipelines and the calibration that each pipeline refers to.
-/

import VisionServer.Library.Chain
import VisionServer.Library.Machine

namespace VisionServer.Server
open Library

/-- A user owns a pipeline object, or the server allocated it. -/
inductive BasePipe where
  | user (id : Nat)
  | heap (id : Nat)
deriving DecidableEq

/-- This is the capture source of a camera, of a pipeline or of something else. -/
inductive VideoSource where
  | camera (id : Nat)
  | pipe (pipe : BasePipe)
  | other (id : Nat)
deriving DecidableEq

/-- A pipeline refers to a matrix of a camera or to the static default. -/
inductive Mat where
  | default
  | camera (id : Nat)
deriving DecidableEq

/-- Each pipeline has an input and refers to two matrices. -/
structure Inputs where
  input : BasePipe → Option VideoSource
  srcMatrix : BasePipe → Mat
  srcDistort : BasePipe → Mat

namespace Inputs

def setCamera (pipe : BasePipe) (cam : Nat) (s : Inputs) : Inputs where
  input := Function.update s.input pipe (some (.camera cam))
  srcMatrix := Function.update s.srcMatrix pipe (.camera cam)
  srcDistort := Function.update s.srcDistort pipe (.camera cam)

/-- The matrices of the upstream pipeline are copied at this moment. -/
def setPipeline (pipe upstream : BasePipe) (s : Inputs) : Inputs where
  input := Function.update s.input pipe (some (.pipe upstream))
  srcMatrix := Function.update s.srcMatrix pipe (s.srcMatrix upstream)
  srcDistort := Function.update s.srcDistort pipe (s.srcDistort upstream)

def setSource (pipe : BasePipe) (src : VideoSource) (s : Inputs) : Inputs where
  input := Function.update s.input pipe (some src)
  srcMatrix := Function.update s.srcMatrix pipe .default
  srcDistort := Function.update s.srcDistort pipe .default

end Inputs

namespace Sources

/-- These are the changes of a source. -/
inductive Op where
  | setCamera (pipe : BasePipe) (cam : Nat)
  | setPipeline (pipe upstream : BasePipe)
  | setSource (pipe : BasePipe) (src : VideoSource)

def Op.pipe : Op → BasePipe
  | .setCamera pipe _ => pipe
  | .setPipeline pipe _ => pipe
  | .setSource pipe _ => pipe

/-- This is the input that the operation gives to its pipeline. -/
def Op.source : Op → VideoSource
  | .setCamera _ cam => .camera cam
  | .setPipeline _ upstream => .pipe upstream
  | .setSource _ src => src

def apply (s : Inputs) : Op → Inputs
  | .setCamera pipe cam => s.setCamera pipe cam
  | .setPipeline pipe upstream => s.setPipeline pipe upstream
  | .setSource pipe src => s.setSource pipe src

def machine : Machine Inputs Op := ⟨fun s op => some (apply s op)⟩

def initial : Inputs := ⟨fun _ => none, fun _ => .default, fun _ => .default⟩

/-- An input leads to another pipeline or ends at a camera. -/
def link : VideoSource → Option (BasePipe ⊕ Nat)
  | .camera cam => some (.inr cam)
  | .pipe pipe => some (.inl pipe)
  | .other _ => none

def links (s : Inputs) (pipe : BasePipe) : Option (BasePipe ⊕ Nat) := (s.input pipe).bind link

/-- The inputs from a pipeline lead through chained pipelines to a camera. -/
def LeadsTo (s : Inputs) (pipe : BasePipe) (cam : Nat) : Prop :=
  ∃ length, Ends (links s) length pipe cam

/-- A pipeline refers to the two matrices of a camera. -/
def Refers (s : Inputs) (pipe : BasePipe) (cam : Nat) : Prop :=
  s.srcMatrix pipe = .camera cam ∧ s.srcDistort pipe = .camera cam

/-- A pipeline that a camera feeds refers to the matrices of this camera. -/
def Calibrated (s : Inputs) : Prop := ∀ pipe cam, LeadsTo s pipe cam → Refers s pipe cam

/-- These are the links after a pipeline gets a new input. -/
def relinked (s : Inputs) (op : Op) : BasePipe → Option (BasePipe ⊕ Nat) :=
  Function.update (links s) op.pipe (link op.source)

/-- When the new input leads to a camera, the pipeline is attached by `setCamera` or `setPipeline`,
and the pipelines that it feeds refer to this camera already. -/
def Refreshed (s : Inputs) (op : Op) : Prop :=
  ∀ cam length, Ends (relinked s op) length op.pipe cam →
    (∀ pipe src, op ≠ .setSource pipe src) ∧
      ∀ pipe, Feeds (links s) op.pipe pipe → Refers s pipe cam

theorem links_apply (s : Inputs) (op : Op) : links (apply s op) = relinked s op := by
  funext pipe
  unfold links relinked
  have input : (apply s op).input = Function.update s.input op.pipe (some op.source) := by
    cases op <;> rfl
  rw [input]
  by_cases here : pipe = op.pipe
  · subst here
    simp
  · simp [here, links]

/-- The other pipelines keep their matrices. -/
theorem refers_apply_other (s : Inputs) (op : Op) {pipe : BasePipe} (different : pipe ≠ op.pipe)
    (cam : Nat) : Refers (apply s op) pipe cam ↔ Refers s pipe cam := by
  cases op <;> simp_all [Refers, apply, Op.pipe, Inputs.setCamera, Inputs.setPipeline,
    Inputs.setSource]

/-- The pipeline of a change refers to the camera that its new input leads to, unless the change is
made by `setSource`. -/
theorem refers_apply_self {s : Inputs} (calibrated : Calibrated s) {op : Op} {cam length : Nat}
    (ends : Ends (relinked s op) length op.pipe cam) :
    Refers (apply s op) op.pipe cam ↔ ∀ pipe src, op ≠ .setSource pipe src := by
  cases op with
  | setCamera pipe given =>
      refine iff_of_true ?_ (fun _ _ => by simp)
      have last : relinked s (.setCamera pipe given) pipe = some (.inr given) :=
        Function.update_self ..
      have same := (ends.unique (Ends.here last)).2
      subst same
      simp [Refers, apply, Op.pipe, Inputs.setCamera]
  | setPipeline pipe upstream =>
      refine iff_of_true ?_ (fun _ _ => by simp)
      obtain ⟨shorter, before⟩ := Ends.of_update_next ends
      obtain ⟨matrix, distort⟩ := calibrated upstream cam ⟨shorter, before⟩
      simp [Refers, apply, Op.pipe, Inputs.setPipeline, matrix, distort]
  | setSource pipe src =>
      refine iff_of_false ?_ (fun other => other pipe src rfl)
      simp [Refers, apply, Op.pipe, Inputs.setSource]

/-- A change keeps the calibration exactly when every pipeline that it feeds is up to date. -/
theorem apply_calibrated_iff {s : Inputs} (calibrated : Calibrated s) (op : Op) :
    Calibrated (apply s op) ↔ Refreshed s op := by
  constructor
  · intro after cam length ends
    have self : LeadsTo (apply s op) op.pipe cam := ⟨length, by rw [links_apply]; exact ends⟩
    refine ⟨(refers_apply_self calibrated ends).mp (after op.pipe cam self), fun pipe feeds => ?_⟩
    obtain ⟨total, fed⟩ := feeds.ends ends
    have leads : LeadsTo (apply s op) pipe cam := ⟨total, by rw [links_apply]; exact fed⟩
    exact (refers_apply_other s op feeds.ne cam).mp (after pipe cam leads)
  · intro refreshed pipe cam given
    obtain ⟨length, ends⟩ := given
    rw [links_apply] at ends
    by_cases here : pipe = op.pipe
    · subst here
      exact (refers_apply_self calibrated ends).mpr (refreshed cam length ends).1
    · rw [refers_apply_other s op here]
      rcases ends.of_update here with kept | ⟨feeds, shorter, _, tail⟩
      · exact calibrated pipe cam ⟨length, kept⟩
      · exact (refreshed cam shorter tail).2 pipe feeds

theorem initial_calibrated : Calibrated initial := by
  intro pipe cam given
  obtain ⟨length, ends⟩ := given
  cases ends with
  | here last => cases last
  | next first _ => cases first

/-- The calibration follows the sources throughout a history exactly when each change that leads to
a camera is made by `setCamera` or `setPipeline` and finds the pipelines that it feeds up to date. -/
theorem always_calibrated_iff (ops : List Op) :
    machine.Always Calibrated initial ops ↔ machine.Meets Refreshed initial ops := by
  apply machine.always_iff_meets (fun _ _ _ _ _ => trivial) _ trivial initial_calibrated
  intro s op next _ calibrated taken
  rw [← Option.some.inj taken]
  exact apply_calibrated_iff calibrated op

/-- The upstream pipeline changes its camera, and the downstream one keeps the old matrices. -/
theorem chainedPipes_not_calibrated :
    ¬ machine.Always Calibrated initial
      [.setCamera (.user 1) 0, .setPipeline (.user 2) (.user 1), .setCamera (.user 1) 5] := by
  intro always
  have last := always.last machine rfl
  have upstream : Ends (links (apply (apply (apply initial (.setCamera (.user 1) 0))
      (.setPipeline (.user 2) (.user 1))) (.setCamera (.user 1) 5))) 0 (.user 1) 5 :=
    Ends.here rfl
  have stale := last (.user 2) 5 ⟨1, Ends.next rfl upstream⟩
  exact absurd stale.1 (by decide)

end Sources

end VisionServer.Server
