/-
This file follows a pose pipeline through its frames, from the outputs of the model to the drawn skeletons.
-/

import VisionServer.Inference.Detections
import VisionServer.Inference.Input
import VisionServer.Library.Rounding
import VisionServer.Vision.Extrusion

namespace VisionServer.Inference
open Library Vision

namespace MoveNet

inductive Output where
  | nose
  | lEye
  | rEye
  | lEar
  | rEar
  | lShoulder
  | rShoulder
  | lElbow
  | rElbow
  | lWrist
  | rWrist
  | lHip
  | rHip
  | lKnee
  | rKnee
  | lAnkle
  | rAnkle

namespace Output

/-- This is the number of outputs. -/
abbrev total : Nat := 17

/-- This is the operator `~`. -/
def index : Output → Fin total
  | nose => 0
  | lEye => 1
  | rEye => 2
  | lEar => 3
  | rEar => 4
  | lShoulder => 5
  | rShoulder => 6
  | lElbow => 7
  | rElbow => 8
  | lWrist => 9
  | rWrist => 10
  | lHip => 11
  | rHip => 12
  | lKnee => 13
  | rKnee => 14
  | lAnkle => 15
  | rAnkle => 16

end Output

def connections : List (Output × Output) :=
  [(.lShoulder, .rShoulder),
    (.lShoulder, .lElbow),
    (.lElbow, .lWrist),
    (.rShoulder, .rElbow),
    (.rElbow, .rWrist),
    (.lHip, .rHip),
    (.lShoulder, .lHip),
    (.rShoulder, .rHip),
    (.lHip, .lKnee),
    (.rHip, .rKnee),
    (.lAnkle, .lKnee),
    (.rAnkle, .rKnee)]

/-- The literal is a `double`, and the constant is a `float`. -/
def confidThresh : Floating := binary32.store (binary64.round (3 / 10))

/-- The colours and the widths are constant. -/
inductive Drawing where
  | circle (center : Point_ Floating)
  | line (first second : Point_ Floating)

/-- The points of a pipeline survive a frame, and so does what has been drawn on all of them. -/
structure Skeleton where
  points : Vector (Point_ Floating) Output.total
  drawn : List Drawing

abbrev Posing := EStateM Fault Skeleton

/-- A frame has its size, the outputs for it, and the truth value of the pointer if that is indeterminate. -/
structure Picture where
  frame : Frame
  contents : Contents
  raw : Bool

section Process

variable (runner : MoveNet) (picture : Picture)

def readOutput (place : Nat) : Posing Floating :=
  orThrow (picture.contents.value runner.outputs place) .undefined

def getX (idx : Nat) : Posing Floating := runner.readOutput picture (idx * 3 + 1)

def getY (idx : Nat) : Posing Floating := runner.readOutput picture (idx * 3)

def getConfidence (idx : Nat) : Posing Floating := runner.readOutput picture (idx * 3 + 2)

/-- The extent of the frame is converted to a `float`. -/
def scaleTo (value : Floating) (extent : Nat) : Floating := binary32.mul value (binary32.store extent)

def draw (drawing : Skeleton → Drawing) : Posing PUnit :=
  modify fun skeleton => { skeleton with drawn := skeleton.drawn ++ [drawing skeleton] }

/-- This is one pass of the first loop. -/
def placeJoint (i : Fin Output.total) : Posing PUnit := do
  let x ← runner.getX picture i
  let y ← runner.getY picture i
  let point := ⟨scaleTo x picture.frame.cols, scaleTo y picture.frame.rows⟩
  modify fun skeleton => { skeleton with points := skeleton.points.set i point }
  let confidence ← runner.getConfidence picture i
  if confidThresh.less confidence then draw fun skeleton => .circle skeleton.points[i]

/-- This is one pass of the second loop, where the second output is read only when the first one is confident. -/
def connect (connection : Output × Output) : Posing PUnit := do
  let first ← runner.getConfidence picture connection.1.index
  if confidThresh.less first then
    let second ← runner.getConfidence picture connection.2.index
    if confidThresh.less second then
      draw fun skeleton =>
        .line skeleton.points[connection.1.index] skeleton.points[connection.2.index]

/-- This is what follows the invocation of the model on its input. -/
def process : Posing PUnit := do
  if runner.isValidBuffer ∧ runner.isValidOutput picture.raw then
    forM (List.finRange Output.total) (runner.placeJoint picture)
    forM connections (runner.connect picture)

end Process

/-- The pipeline gets one frame after the other. -/
def run (runner : MoveNet) (pictures : List Picture) : Posing PUnit := forM pictures runner.process

namespace Picture

variable (picture : Picture)

/-- These are the values of the only output. -/
def value (place : Nat) : Floating := (picture.contents 0).getD place .nan

/-- The output has three values for each joint. -/
def Filled : Prop := Output.total * 3 ≤ (picture.contents 0).length

instance : Decidable picture.Filled := inferInstanceAs (Decidable (_ ≤ _))

def point (i : Fin Output.total) : Point_ Floating :=
  ⟨scaleTo (picture.value (i * 3 + 1)) picture.frame.cols, scaleTo (picture.value (i * 3)) picture.frame.rows⟩

def confident (i : Fin Output.total) : Bool := confidThresh.less (picture.value (i * 3 + 2))

def connected (connection : Output × Output) : Bool :=
  picture.confident connection.1.index && picture.confident connection.2.index

/-- The confident joints are shown, and the connections between two of them. -/
def shown : List Drawing :=
  ((List.finRange Output.total).filter picture.confident).map (fun i => .circle (picture.point i)) ++
    (connections.filter picture.connected).map fun connection =>
      .line (picture.point connection.1.index) (picture.point connection.2.index)

def setPoint (points : Vector (Point_ Floating) Output.total) (i : Fin Output.total) :
    Vector (Point_ Floating) Output.total := points.set i (picture.point i)

/-- This is the skeleton after a joint. -/
def place (skeleton : Skeleton) (i : Fin Output.total) : Skeleton where
  points := picture.setPoint skeleton.points i
  drawn := skeleton.drawn ++ if picture.confident i then [.circle (picture.point i)] else []

/-- This is the skeleton after a connection. -/
def join (skeleton : Skeleton) (connection : Output × Output) : Skeleton where
  points := skeleton.points
  drawn := skeleton.drawn ++ if picture.connected connection then
    [.line skeleton.points[connection.1.index] skeleton.points[connection.2.index]] else []

/-- This is the skeleton after a frame. -/
def pose (skeleton : Skeleton) : Skeleton where
  points := Vector.ofFn picture.point
  drawn := skeleton.drawn ++ picture.shown

end Picture

section Passes

variable {runner : MoveNet} {picture : Picture}

theorem readOutput_run (bound : runner.outputs = .output 0) {place : Nat}
    (inside : place < (picture.contents 0).length) (skeleton : Skeleton) :
    (runner.readOutput picture place).run skeleton = .ok (picture.value place) skeleton := by
  have found : picture.contents.value runner.outputs place = some (picture.value place) := by
    rw [bound]
    simp [Contents.value, Picture.value, inside]
  rw [readOutput, found]
  rfl

/-- The three values of a joint are read. -/
theorem values_run (bound : runner.outputs = .output 0) (filled : picture.Filled) (i : Fin Output.total)
    (skeleton : Skeleton) :
    (runner.getX picture i).run skeleton = .ok (picture.value (i * 3 + 1)) skeleton ∧
      (runner.getY picture i).run skeleton = .ok (picture.value (i * 3)) skeleton ∧
        (runner.getConfidence picture i).run skeleton = .ok (picture.value (i * 3 + 2)) skeleton := by
  have below : i.val < 17 := i.isLt
  unfold Picture.Filled Output.total at filled
  exact ⟨readOutput_run bound (by omega) skeleton, readOutput_run bound (by omega) skeleton,
    readOutput_run bound (by omega) skeleton⟩

theorem draw_run (drawing : Skeleton → Drawing) (skeleton : Skeleton) : (draw drawing).run skeleton =
    .ok ⟨⟩ { skeleton with drawn := skeleton.drawn ++ [drawing skeleton] } := rfl

/-- Each pass of the first loop sets its point before it shows it. -/
theorem placeJoint_run (bound : runner.outputs = .output 0) (filled : picture.Filled) (i : Fin Output.total)
    (skeleton : Skeleton) : (runner.placeJoint picture i).run skeleton = .ok ⟨⟩ (picture.place skeleton i) := by
  have values := values_run bound filled i
  rw [placeJoint, run_bind_of_ok (values skeleton).1, run_bind_of_ok (values skeleton).2.1]
  have set : (modify fun skeleton => { skeleton with points := skeleton.points.set i (picture.point i) } :
      Posing PUnit).run skeleton = .ok ⟨⟩ { skeleton with points := skeleton.points.set i (picture.point i) } := rfl
  refine (run_bind_of_ok set _).trans ?_
  rw [run_bind_of_ok (values _).2.2]
  unfold Picture.place Picture.setPoint Picture.confident
  by_cases shown : confidThresh.less (picture.value (i * 3 + 2)) = true
  · rw [if_pos shown, draw_run]
    simp [shown]
  · rw [if_neg shown]
    simp [shown]

/-- The second loop reads the points that the first one has set. -/
theorem connect_run (bound : runner.outputs = .output 0) (filled : picture.Filled)
    (connection : Output × Output) (skeleton : Skeleton) :
    (runner.connect picture connection).run skeleton = .ok ⟨⟩ (picture.join skeleton connection) := by
  have first := values_run bound filled connection.1.index
  have second := values_run bound filled connection.2.index
  rw [connect, run_bind_of_ok (first skeleton).2.2]
  unfold Picture.join Picture.connected Picture.confident
  by_cases near : confidThresh.less (picture.value (connection.1.index * 3 + 2)) = true
  · rw [if_pos near, run_bind_of_ok (second skeleton).2.2]
    by_cases far : confidThresh.less (picture.value (connection.2.index * 3 + 2)) = true
    · rw [if_pos far, near, far]
      rfl
    · rw [if_neg far]
      simp [far]
  · rw [if_neg near]
    simp [near]

end Passes

section Loops

variable {runner : MoveNet} {picture : Picture}

/-- The points that are set get their new places, and the confident ones are shown in order. -/
theorem foldl_place (items : List (Fin Output.total)) (skeleton : Skeleton) :
    items.foldl picture.place skeleton =
      { points := items.foldl picture.setPoint skeleton.points
        drawn := skeleton.drawn ++ (items.filter picture.confident).map fun i => .circle (picture.point i) } := by
  induction items generalizing skeleton with
  | nil => simp
  | cons i items inductionHypothesis =>
      rw [List.foldl_cons, inductionHypothesis]
      by_cases shown : picture.confident i = true
      · simp [Picture.place, shown]
      · simp [Picture.place, shown]

theorem foldl_join (items : List (Output × Output)) (skeleton : Skeleton) :
    items.foldl picture.join skeleton =
      { points := skeleton.points
        drawn := skeleton.drawn ++ (items.filter picture.connected).map fun connection =>
          .line skeleton.points[connection.1.index] skeleton.points[connection.2.index] } := by
  induction items generalizing skeleton with
  | nil => simp
  | cons connection items inductionHypothesis =>
      rw [List.foldl_cons, inductionHypothesis]
      by_cases shown : picture.connected connection = true
      · simp [Picture.join, shown]
      · simp [Picture.join, shown]

/-- A loop that has set a point leaves it, or it sets it to the same place again. -/
theorem getElem_foldl_set (items : List (Fin Output.total)) (points : Vector (Point_ Floating) Output.total)
    (i : Fin Output.total) : (items.foldl picture.setPoint points)[i] =
      if i ∈ items then picture.point i else points[i] := by
  induction items generalizing points with
  | nil => simp
  | cons first items inductionHypothesis =>
      rw [List.foldl_cons, inductionHypothesis]
      by_cases later : i ∈ items
      · rw [if_pos later, if_pos (List.mem_cons_of_mem _ later)]
      · rw [if_neg later]
        by_cases same : i = first
        · rw [same, if_pos List.mem_cons_self]
          simp [Picture.setPoint]
        · rw [if_neg (List.not_mem_cons_of_ne_of_not_mem same later)]
          exact Vector.getElem_set_ne _ _ fun equal => same (Fin.ext equal.symm)

/-- The first loop sets all the points. -/
theorem foldl_set_eq (points : Vector (Point_ Floating) Output.total) :
    (List.finRange Output.total).foldl picture.setPoint points = Vector.ofFn picture.point := by
  refine Vector.ext fun i inside => ?_
  have placed := @getElem_foldl_set picture (List.finRange Output.total) points ⟨i, inside⟩
  rw [if_pos (List.mem_finRange _)] at placed
  rw [Vector.getElem_ofFn]
  exact placed

/-- Nothing of an earlier frame is left in the points, and nothing of it is shown. -/
theorem process_run (valid : runner.isValidBuffer) (bound : runner.outputs = .output 0) (filled : picture.Filled)
    (skeleton : Skeleton) : (runner.process picture).run skeleton = .ok ⟨⟩ (picture.pose skeleton) := by
  have shows : runner.isValidBuffer ∧ runner.isValidOutput picture.raw := by
    unfold isValidOutput
    rw [bound]
    exact ⟨valid, rfl⟩
  have first := run_forM (fun i (_ : i ∈ List.finRange Output.total) => placeJoint_run bound filled i) skeleton
  have second (placed : Skeleton) := run_forM
    (fun connection (_ : connection ∈ connections) => connect_run bound filled connection) placed
  rw [process, if_pos shows, run_bind_of_ok first, second, foldl_place, foldl_set_eq, foldl_join]
  simp [Picture.pose, Picture.shown]

theorem foldl_pose_drawn (pictures : List Picture) (skeleton : Skeleton) :
    (pictures.foldl (fun skeleton picture => picture.pose skeleton) skeleton).drawn =
      skeleton.drawn ++ pictures.flatMap Picture.shown := by
  induction pictures generalizing skeleton with
  | nil => simp
  | cons picture pictures inductionHypothesis =>
      rw [List.foldl_cons, inductionHypothesis]
      simp [Picture.pose]

/-- The frames are shown one after the other. -/
theorem run_run (valid : runner.isValidBuffer) (bound : runner.outputs = .output 0) {pictures : List Picture}
    (filled : ∀ picture ∈ pictures, picture.Filled) (skeleton : Skeleton) :
    ∃ points, (runner.run pictures).run skeleton =
      .ok ⟨⟩ { points := points, drawn := skeleton.drawn ++ pictures.flatMap Picture.shown } := by
  have posed := run_forM
    (fun picture member skeleton => process_run valid bound (filled picture member) skeleton) skeleton
  refine ⟨(pictures.foldl (fun skeleton picture => picture.pose skeleton) skeleton).points, ?_⟩
  rw [run, posed, ← foldl_pose_drawn]

end Loops

section Constructed

variable {tpus : Nat} {ops : List (Loaded × Optimization)} {runner : MoveNet} {picture : Picture}

/-- The pointer is bound when the model has a single output, and nothing else sets it. -/
theorem construct_outputs (constructed : MoveNet.construct tpus ops = some runner) :
    ∃ model, runner.model = some model ∧
      ((∃ output, model.outputs = [output] ∧ runner.outputs = if output.allocated then .output 0 else .null) ∨
        model.outputs.length ≠ 1 ∧ runner.outputs = .indeterminate) := by
  obtain ⟨tf, -, rest⟩ := Option.bind_eq_some_iff.mp constructed
  obtain ⟨model, built, rest⟩ := Option.bind_eq_some_iff.mp rest
  refine ⟨model, ?_⟩
  split at rest
  · rename_i single
    obtain ⟨output, outputs⟩ := List.length_eq_one_iff.mp single
    cases rest
    refine ⟨built, Or.inl ⟨output, outputs, ?_⟩⟩
    simp [Interpreter.outputData, outputs]
  · rename_i other
    cases rest
    exact ⟨built, Or.inr ⟨other, rfl⟩⟩

theorem outputs_of_single (constructed : MoveNet.construct tpus ops = some runner) {model : Interpreter}
    {output : OutputTensor} (built : runner.model = some model) (single : model.outputs = [output]) :
    runner.outputs = if output.allocated then .output 0 else .null := by
  obtain ⟨other, found, pointer⟩ := construct_outputs constructed
  cases built.symm.trans found
  rcases pointer with ⟨same, only, outputs⟩ | ⟨several, -⟩
  · cases single.symm.trans only
    exact outputs
  · rw [single] at several
    exact absurd rfl several

/-- A frame that ends normally has read the last value, unless the pipeline skips it. -/
theorem last_of_process {skeleton final : Skeleton} (valid : runner.isValidBuffer)
    (bound : runner.isValidOutput picture.raw = true)
    (done : (runner.process picture).run skeleton = .ok ⟨⟩ final) :
    ∃ value, picture.contents.value runner.outputs 50 = some value := by
  rw [process, if_pos ⟨valid, bound⟩] at done
  obtain ⟨_, middle, first, -⟩ := run_bind_eq_ok.mp done
  obtain ⟨before, after, pass⟩ := exists_run_of_forM first (List.mem_finRange (16 : Fin Output.total))
  obtain ⟨_, _, -, pass⟩ := run_bind_eq_ok.mp pass
  obtain ⟨_, _, -, pass⟩ := run_bind_eq_ok.mp pass
  obtain ⟨_, _, -, pass⟩ := run_bind_eq_ok.mp pass
  obtain ⟨value, _, read, -⟩ := run_bind_eq_ok.mp pass
  refine ⟨value, ?_⟩
  change (orThrow (picture.contents.value runner.outputs 50) .undefined : Posing Floating).run _ = _ at read
  cases found : picture.contents.value runner.outputs 50 with
  | none =>
      rw [found] at read
      cases read
  | some other =>
      rw [found] at read
      cases read
      rfl

/-- A frame is skipped without an input and without outputs. -/
theorem process_skips (skips : ¬(runner.isValidBuffer ∧ runner.isValidOutput picture.raw)) (skeleton : Skeleton) :
    (runner.process picture).run skeleton = .ok ⟨⟩ skeleton := by
  rw [process, if_neg skips]
  rfl

/-- The outputs hold the same number of values for every frame. -/
def Holds (capacity : Nat) (pictures : List Picture) : Prop :=
  ∀ picture ∈ pictures, (picture.contents 0).length = capacity

/-- The model has a single output, and that holds three values for each joint when it is allocated. -/
def Describes (runner : MoveNet) (capacity : Nat) : Prop :=
  ∃ model output, runner.model = some model ∧ model.outputs = [output] ∧
    (output.allocated = true → Output.total * 3 ≤ capacity)

/-- An indeterminate pointer that happens to be true is read. -/
theorem describes_of_process (constructed : MoveNet.construct tpus ops = some runner) (valid : runner.isValidBuffer)
    (raw : picture.raw = true) {skeleton final : Skeleton}
    (done : (runner.process picture).run skeleton = .ok ⟨⟩ final) :
    runner.Describes (picture.contents 0).length := by
  obtain ⟨model, built, pointer⟩ := construct_outputs constructed
  rcases pointer with ⟨output, single, outputs⟩ | ⟨-, outputs⟩
  · refine ⟨model, output, built, single, fun allocated => ?_⟩
    rw [if_pos allocated] at outputs
    obtain ⟨value, found⟩ := last_of_process valid (by rw [isValidOutput, outputs]) done
    rw [outputs] at found
    exact (List.getElem?_eq_some_iff.mp found).1
  · obtain ⟨value, found⟩ := last_of_process valid (by rw [isValidOutput, outputs, raw]) done
    rw [outputs] at found
    cases found

/-- A described output is bound and filled when a frame is not skipped. -/
theorem bound_of_describes (constructed : MoveNet.construct tpus ops = some runner)
    (described : runner.Describes (picture.contents 0).length) (shows : runner.isValidOutput picture.raw = true) :
    runner.outputs = .output 0 ∧ picture.Filled := by
  obtain ⟨model, output, built, single, filled⟩ := described
  have outputs := outputs_of_single constructed built single
  by_cases allocated : output.allocated = true
  · rw [if_pos allocated] at outputs
    exact ⟨outputs, filled allocated⟩
  · rw [if_neg allocated] at outputs
    rw [isValidOutput, outputs] at shows
    cases shows

/-- This frame is one pixel. -/
def pixelFrame : Frame where
  cols := 1
  rows := 1
  pixel _ _ _ := 0
  wide := Nat.one_pos
  high := Nat.one_pos

/-- A pipeline ends every frame of every sequence normally if and only if it has no input, or its model has a single
output that holds three values for each joint when it is allocated. -/
theorem always_ends_iff (constructed : MoveNet.construct tpus ops = some runner) (capacity : Nat) :
    (∀ pictures, Holds capacity pictures → ∀ skeleton, ∃ final,
      (runner.run pictures).run skeleton = .ok ⟨⟩ final) ↔
      ¬runner.isValidBuffer ∨ runner.Describes capacity := by
  constructor
  · intro ends
    by_cases valid : runner.isValidBuffer
    · let picture : Picture :=
        { frame := pixelFrame, contents := fun _ => List.replicate capacity .nan, raw := true }
      obtain ⟨final, done⟩ := ends [picture] (by simp [Holds, picture])
        { points := Vector.replicate _ ⟨.nan, .nan⟩, drawn := [] }
      rw [run, List.forM_cons] at done
      obtain ⟨_, middle, first, -⟩ := run_bind_eq_ok.mp done
      have described := describes_of_process constructed valid rfl first
      rw [show (picture.contents 0).length = capacity from List.length_replicate] at described
      exact Or.inr described
    · exact Or.inl valid
  · intro condition pictures holds skeleton
    have each (picture : Picture) (member : picture ∈ pictures) (skeleton : Skeleton) :
        (runner.process picture).run skeleton = .ok ⟨⟩
          (if runner.isValidBuffer ∧ runner.isValidOutput picture.raw then picture.pose skeleton else skeleton) := by
      by_cases shows : runner.isValidBuffer ∧ runner.isValidOutput picture.raw
      · have described := condition.resolve_left (not_not_intro shows.1)
        rw [← holds picture member] at described
        obtain ⟨bound, filled⟩ := bound_of_describes constructed described shows.2
        rw [if_pos shows]
        exact process_run shows.1 bound filled skeleton
      · rw [if_neg shows]
        exact process_skips shows skeleton
    exact ⟨_, run_forM each skeleton⟩

/-- The single output of this pipeline is allocated. -/
def classifierPoser : MoveNet where
  map := true
  model := some classifier
  inputTensor := { rows := 1, cols := 1, data := some 0 }
  inputSize := ⟨1, 1⟩
  outputs := .output 0

/-- All values of this frame are one. -/
def standing : Picture where
  frame := pixelFrame
  contents _ := List.replicate 51 (.finite 1)
  raw := false

def start : Skeleton where
  points := Vector.replicate _ ⟨.finite 0, .finite 0⟩
  drawn := []

theorem standing_ends : ∃ final, (classifierPoser.run [standing]).run start = .ok ⟨⟩ final := by
  have constructed : MoveNet.construct 0 [(.built classifier, .default)] = some classifierPoser := rfl
  have described : classifierPoser.Describes 51 := ⟨classifier, _, rfl, rfl, fun _ => le_rfl⟩
  refine (always_ends_iff constructed 51).mpr (Or.inr described) [standing] (fun picture member => ?_) start
  obtain rfl := List.mem_singleton.mp member
  rfl

/-- Each line of a frame ends at two circles of it. -/
theorem circles_of_line {first second : Point_ Floating} (shown : .line first second ∈ picture.shown) :
    .circle first ∈ picture.shown ∧ .circle second ∈ picture.shown := by
  rcases List.mem_append.mp shown with circle | line
  · obtain ⟨i, -, other⟩ := List.mem_map.mp circle
    cases other
  · obtain ⟨connection, confident, same⟩ := List.mem_map.mp line
    cases same
    have both := Bool.and_eq_true_iff.mp (List.mem_filter.mp confident).2
    have circle (i : Fin Output.total) (confident : picture.confident i = true) :
        Drawing.circle (picture.point i) ∈ picture.shown :=
      List.mem_append_left _ (List.mem_map.mpr ⟨i, List.mem_filter.mpr ⟨List.mem_finRange i, confident⟩, rfl⟩)
    exact ⟨circle _ both.1, circle _ both.2⟩

/-- A sequence of frames shows what each frame shows by itself, whatever the pipeline has kept of the earlier ones,
and each line of a frame ends at two circles of it. -/
theorem always_shows (constructed : MoveNet.construct tpus ops = some runner) (valid : runner.isValidBuffer)
    {model : Interpreter} {output : OutputTensor} (built : runner.model = some model)
    (single : model.outputs = [output]) (allocated : output.allocated = true) {pictures : List Picture}
    (filled : ∀ picture ∈ pictures, picture.Filled) (skeleton : Skeleton) :
    (∃ points, (runner.run pictures).run skeleton =
      .ok ⟨⟩ { points := points, drawn := skeleton.drawn ++ pictures.flatMap Picture.shown }) ∧
      ∀ picture ∈ pictures, ∀ first second, .line first second ∈ picture.shown →
        .circle first ∈ picture.shown ∧ .circle second ∈ picture.shown := by
  have bound : runner.outputs = .output 0 := by
    rw [outputs_of_single constructed built single, if_pos allocated]
  exact ⟨run_run valid bound filled skeleton, fun picture _ first second => circles_of_line⟩

theorem standing_shows : (∃ points, (classifierPoser.run [standing]).run start =
    .ok ⟨⟩ { points := points, drawn := start.drawn ++ [standing].flatMap Picture.shown }) ∧
      ∀ picture ∈ [standing], ∀ first second, .line first second ∈ picture.shown →
        .circle first ∈ picture.shown ∧ .circle second ∈ picture.shown := by
  have constructed : MoveNet.construct 0 [(.built classifier, .default)] = some classifierPoser := rfl
  refine always_shows constructed (by decide) rfl rfl rfl (fun picture member => ?_) start
  obtain rfl := List.mem_singleton.mp member
  decide

end Constructed

section Construction

variable {tpus : Nat} {ops : List (Loaded × Optimization)}

end Construction

end MoveNet

end VisionServer.Inference
