/-
This file decides when a compensation attaches everything to the first connected camera.
-/

import VisionServer.Library.Loop
import VisionServer.Server.Frames

namespace VisionServer.Server
open Library

/-- This is what a direct index change makes of a stream. -/
def redirect (s : Registry) (i : Int) (stream : OutputStream) : OutputStream :=
  if stream.localIdx ≠ i then s.attach i stream else stream

/-- The selected source depends on the registries alone. -/
theorem redirect_congr {s t : Registry} (same : SameSources s t) (i : Int) :
    redirect t i = redirect s i := by
  funext stream
  have selected : t.selected i = s.selected i := by
    unfold Registry.selected Registry.numCameras Registry.numPipelines
    rw [same.cameras, same.pipelines]
  rw [redirect, redirect, Registry.attach, Registry.attach, selected]

/-- A direct index change redirects one stream. -/
theorem setSourceIdx_streams (position : Nat) (i : Int) (s : Registry) :
    (s.setSourceIdx position i).streams = s.streams.modify position (redirect s i) := by
  rw [List.modify_eq_set_getElem?]
  rw [Registry.setSourceIdx_eq]
  cases found : s.streams[position]? with
  | none => rfl
  | some stream =>
      change _ = s.streams.set position (redirect s i stream)
      dsimp only
      by_cases new : stream.localIdx ≠ i
      · rw [if_pos new, redirect, if_pos new]
        rfl
      · rw [if_neg new, redirect, if_neg new]
        obtain ⟨inside, here⟩ := List.getElem?_eq_some_iff.mp found
        rw [← here, List.set_getElem_self]

/-- A loop of direct index changes redirects the streams at its positions. -/
theorem foldl_setSourceIdx_streams (i : Int) (positions : List Nat) {s t : Registry}
    (same : SameSources s t) :
    (positions.foldl (fun t position => t.setSourceIdx position i) t).streams =
      positions.foldl (fun streams position => streams.modify position (redirect s i)) t.streams := by
  induction positions generalizing t with
  | nil => rfl
  | cons position rest ih =>
      have next := same.setSourceIdx position i
      rw [List.foldl_cons, List.foldl_cons, ih next, setSourceIdx_streams, redirect_congr same]

/-- The loop over all streams redirects each of them. -/
theorem forStreams_setSourceIdx_streams (i : Int) (s : Registry) :
    (s.forStreams fun position => Registry.setSourceIdx position i).streams =
      s.streams.map (redirect s i) :=
  (foldl_setSourceIdx_streams i _ (SameSources.refl s)).trans (foldl_modify_eq_map _ _)

/-- A loop of `setCamera` attaches every pipeline of its list. -/
theorem foldl_setCamera_input (cam : Nat) (pipes : List BasePipe) (inputs : Inputs) (pipe : BasePipe) :
    (pipes.foldl (fun inputs pipe => inputs.setCamera pipe cam) inputs).input pipe =
      if pipe ∈ pipes then some (.camera cam) else inputs.input pipe := by
  induction pipes generalizing inputs with
  | nil => rfl
  | cons first rest ih =>
      rw [List.foldl_cons, ih]
      by_cases later : pipe ∈ rest
      · rw [if_pos later, if_pos (List.mem_cons_of_mem first later)]
      · rw [if_neg later]
        by_cases here : pipe = first
        · rw [here, if_pos List.mem_cons_self]
          exact Function.update_self ..
        · rw [if_neg (by simp [here, later])]
          exact Function.update_of_ne here ..

/-- This is the source that all streams get. -/
def mainSource (s : Registry) (i : Nat) : Option VideoSource :=
  if s.pipelines = [] then (s.cameras[i]?).map .camera else (s.pipelines[0]?).map .pipe

/-- A compensation answers whether a camera is connected. It attaches every pipeline to the first
connected camera and shows the first source on every stream, or it changes nothing. -/
structure Compensated (connected : Nat → Bool) (s : Registry) (outcome : Outcome) : Prop where
  answer : outcome.result = .ok (s.cameras.any connected)
  inputs : ∀ i, s.cameras.findIdx? connected = some i → ∀ pipe ∈ s.pipelines,
    outcome.server.inputs.input pipe = (s.cameras[i]?).map .camera
  streams : ∀ i, s.cameras.findIdx? connected = some i →
    ∀ stream ∈ outcome.server.streams, stream.source = mainSource s i
  refused : outcome.result = .ok false → outcome.server = s

/-- The first connected camera has an index in the range of `int16_t`. A stream that remembers the
index of the first pipeline shows this pipeline. Without pipelines a stream that remembers the index
of the camera shows this camera, or the truncated index of the camera changes no stream. -/
def SettledAt (s : Registry) (i : Nat) : Prop :=
  if s.pipelines ≠ [] then
    i < 2 ^ 15 ∧ ∀ stream ∈ s.streams,
      stream.localIdx ≠ 1 ∧ 1 ≤ toInt32 s.numPipelines ∨ stream.source = mainSource s i
  else if s.streams = [] then i % 2 ^ 16 ≠ 2 ^ 16 - 1
  else
    i % 2 ^ 16 < 2 ^ 15 ∧ ∀ stream ∈ s.streams,
      if stream.localIdx ≠ -((i % 2 ^ 16 : Nat) + 1 : Int) ∧
          ((i % 2 ^ 16 : Nat) + 1 : Int) ≤ toInt32 s.numCameras then i < 2 ^ 15
      else stream.source = mainSource s i

/-- The state is settled at the index of the first connected camera. -/
def Settled (connected : Nat → Bool) (s : Registry) : Prop :=
  ∀ i, s.cameras.findIdx? connected = some i → SettledAt s i

/-- The element before the first connected camera is another camera. -/
theorem camera_ne_of_lt {cameras : List Nat} {connected : Nat → Bool} {i j : Nat}
    (first : cameras.findIdx? connected = some i) (before : j < i) : cameras[j]? ≠ cameras[i]? := by
  obtain ⟨inside, plugged, least⟩ := List.findIdx?_eq_some_iff_getElem.mp first
  rw [List.getElem?_eq_getElem inside, List.getElem?_eq_getElem (by omega)]
  intro same
  have unplugged := least j before
  rw [Option.some.inj same] at unplugged
  exact unplugged plugged

section Connected

variable {connected : Nat → Bool} {s : Registry} {i : Nat}
variable (first : s.cameras.findIdx? connected = some i)
include first

theorem index_lt : i < s.cameras.length := (List.findIdx?_eq_some_iff_getElem.mp first).1

/-- Some camera is connected. -/
theorem any_connected : s.cameras.any connected = true := by
  obtain ⟨inside, plugged, _⟩ := List.findIdx?_eq_some_iff_getElem.mp first
  exact List.any_eq_true.mpr ⟨s.cameras[i], List.getElem_mem inside, plugged⟩

/-- The stored index is right modulo `2 ^ 16`. -/
theorem firstConnected_of_lt (small : i % 2 ^ 16 < 2 ^ 15) :
    s.firstConnected connected = (i % 2 ^ 16 : Nat) := by
  rw [Registry.firstConnected, first]
  dsimp only
  rw [Int.bmod_def]
  split <;> omega

/-- From the middle of the range on, the stored index is negative. -/
theorem firstConnected_of_ge (large : 2 ^ 15 ≤ i % 2 ^ 16) :
    s.firstConnected connected = (i % 2 ^ 16 : Nat) - 2 ^ 16 := by
  rw [Registry.firstConnected, first]
  dsimp only
  rw [Int.bmod_def]
  split <;> omega

/-- With pipelines a usable index attaches all of them and redirects the streams to the first. -/
theorem compensate_pipelines (some_ : s.pipelines ≠ []) (small : i % 2 ^ 16 < 2 ^ 15) :
    ∃ cam, s.cameras[i % 2 ^ 16]? = some cam ∧
      s.compensate connected = ⟨.ok true, Registry.forStreams
        (fun position => Registry.setSourceIdx position 1) { s with
          inputs := s.pipelines.foldl (fun inputs pipe => inputs.setCamera pipe cam) s.inputs }⟩ := by
  have inside : i % 2 ^ 16 < s.cameras.length := by
    have bound := index_lt first
    have lower := Nat.mod_le i (2 ^ 16)
    omega
  have found := List.getElem?_eq_getElem inside
  refine ⟨_, found, ?_⟩
  unfold Registry.compensate
  dsimp only
  rw [firstConnected_of_lt first small, if_pos (by omega), if_pos some_, if_neg (by omega),
    Int.toNat_natCast, found]
  rfl

/-- Without pipelines a usable index redirects the streams to the camera. -/
theorem compensate_cameras (none_ : s.pipelines = []) (small : i % 2 ^ 16 < 2 ^ 15) :
    s.compensate connected = ⟨.ok true, s.forStreams fun position =>
      Registry.setSourceIdx position (-((i % 2 ^ 16 : Nat) + 1 : Int))⟩ := by
  have narrow : ((i % 2 ^ 16 : Nat) + 1 : Int) % 2 ^ 16 = (i % 2 ^ 16 : Nat) + 1 := by omega
  unfold Registry.compensate
  dsimp only
  rw [firstConnected_of_lt first small, if_pos (by omega), if_neg (not_not.mpr none_),
    if_neg (fun given => by omega)]
  unfold Registry.setCameraIdx
  rw [narrow]

/-- With something to attach a negative index ends in an exception or in an undefined access, and
the index -1 means that there is no camera. -/
theorem compensate_negative (work : s.pipelines ≠ [] ∨ s.streams ≠ [])
    (large : 2 ^ 15 ≤ i % 2 ^ 16) : (s.compensate connected).result ≠ .ok true := by
  have high := Nat.mod_lt i (by decide : 0 < 2 ^ 16)
  unfold Registry.compensate
  dsimp only
  rw [firstConnected_of_ge first large]
  by_cases last : ((i % 2 ^ 16 : Nat) - 2 ^ 16 + 1 : Int) ≠ 0
  · rw [if_pos last]
    by_cases pipes : s.pipelines ≠ []
    · rw [if_pos pipes, if_pos (by omega)]
      intro returned
      cases returned
    · rw [if_neg pipes, if_pos ⟨by omega, work.resolve_left pipes⟩]
      intro returned
      cases returned
  · rw [if_neg last]
    exact fun given => Bool.noConfusion (Except.ok.inj given)

/-- Without pipelines and streams every index but -1 gives true. -/
theorem compensate_nothing (none_ : s.pipelines = []) (streams : s.streams = []) :
    s.compensate connected = ⟨.ok (decide (i % 2 ^ 16 ≠ 2 ^ 16 - 1)), s⟩ := by
  have unchanged (body : Nat → Registry → Registry) : s.forStreams body = s := by
    rw [Registry.forStreams, streams]
    rfl
  have active : s.firstConnected connected + 1 ≠ 0 ↔ i % 2 ^ 16 ≠ 2 ^ 16 - 1 := by
    have high := Nat.mod_lt i (by decide : 0 < 2 ^ 16)
    by_cases small : i % 2 ^ 16 < 2 ^ 15
    · rw [firstConnected_of_lt first small]
      omega
    · rw [firstConnected_of_ge first (by omega)]
      omega
  unfold Registry.compensate
  dsimp only
  by_cases usable : i % 2 ^ 16 ≠ 2 ^ 16 - 1
  · rw [if_pos (active.mpr usable), if_neg (not_not.mpr none_), if_neg (fun given => given.2 streams),
      unchanged, decide_eq_true usable]
  · rw [if_neg (mt active.mp usable), decide_eq_false usable]

end Connected

/-- Without a connected camera the call returns false and changes nothing. -/
theorem compensate_unconnected {connected : Nat → Bool} {s : Registry}
    (none_ : s.cameras.findIdx? connected = none) : s.compensate connected = ⟨.ok false, s⟩ := by
  unfold Registry.compensate Registry.firstConnected
  rw [none_]
  rfl

/-- A redirected stream has the selected source unless it remembered the index already. -/
theorem redirect_source (s : Registry) (i : Int) (stream : OutputStream) :
    (redirect s i stream).source =
      if stream.localIdx ≠ i then (s.selected i).orElse fun _ => stream.source
      else stream.source := by
  unfold redirect
  split <;> rfl

/-- The index of the first pipeline selects it when the number of pipelines is positive as `int`. -/
theorem selected_one (s : Registry) :
    s.selected 1 =
      if 1 ≤ toInt32 s.numPipelines then (s.pipelines[0]?).map .pipe else none := by
  unfold Registry.selected
  rw [if_neg (by omega)]
  by_cases fits : 1 ≤ toInt32 s.numPipelines
  · rw [if_pos ⟨by decide, fits⟩, if_pos fits]
    rfl
  · rw [if_neg (fun given => fits given.2), if_neg fits]

/-- The index of a camera selects it when the number of cameras is large enough as `int`. -/
theorem selected_camera (s : Registry) (j : Nat) :
    s.selected (-(j + 1 : Int)) =
      if (j + 1 : Int) ≤ toInt32 s.numCameras then (s.cameras[j]?).map .camera else none := by
  have position : (-(-(j + 1 : Int))).toNat - 1 = j := by omega
  unfold Registry.selected
  by_cases fits : (j + 1 : Int) ≤ toInt32 s.numCameras
  · rw [if_pos ⟨by omega, by omega⟩, if_pos fits, position]
  · rw [if_neg (fun given => fits (by omega)), if_neg (fun given => by omega), if_neg fits]

/-- The truncated index names the first connected camera exactly when nothing was cut off. -/
theorem truncated_camera_iff {connected : Nat → Bool} {s : Registry} {i : Nat}
    (first : s.cameras.findIdx? connected = some i) (small : i % 2 ^ 16 < 2 ^ 15) :
    (s.cameras[i % 2 ^ 16]?).map VideoSource.camera = (s.cameras[i]?).map VideoSource.camera ↔
      i < 2 ^ 15 := by
  have injective : Function.Injective VideoSource.camera := fun _ _ same => VideoSource.camera.inj same
  rw [(Option.map_injective injective).eq_iff]
  constructor
  · intro same
    by_contra large
    have lower := Nat.mod_le i (2 ^ 16)
    exact camera_ne_of_lt first (by omega) same
  · intro range
    rw [Nat.mod_eq_of_lt (by omega)]

/-- A compensation that returns true is judged by the inputs and by the streams. -/
theorem compensated_iff_of_true {connected : Nat → Bool} {s : Registry} {i : Nat}
    (first : s.cameras.findIdx? connected = some i) {outcome : Outcome}
    (returned : outcome.result = .ok true) :
    Compensated connected s outcome ↔
      (∀ pipe ∈ s.pipelines, outcome.server.inputs.input pipe = (s.cameras[i]?).map .camera) ∧
        ∀ stream ∈ outcome.server.streams, stream.source = mainSource s i := by
  constructor
  · intro compensated
    exact ⟨compensated.inputs i first, compensated.streams i first⟩
  · intro given
    obtain ⟨inputs, streams⟩ := given
    have same {j : Nat} (other : s.cameras.findIdx? connected = some j) : i = j :=
      Option.some.inj (first.symm.trans other)
    refine ⟨by rw [returned, any_connected first], fun j other => ?_, fun j other => ?_, ?_⟩
    · exact same other ▸ inputs
    · exact same other ▸ streams
    · intro refused
      rw [returned] at refused
      cases refused

/-- A compensation with pipelines attaches everything exactly when the state was settled. -/
theorem compensated_pipelines_iff {connected : Nat → Bool} {s : Registry} {i : Nat}
    (first : s.cameras.findIdx? connected = some i) (some_ : s.pipelines ≠ [])
    (small : i % 2 ^ 16 < 2 ^ 15) :
    Compensated connected s (s.compensate connected) ↔ i < 2 ^ 15 ∧ ∀ stream ∈ s.streams,
      stream.localIdx ≠ 1 ∧ 1 ≤ toInt32 s.numPipelines ∨ stream.source = mainSource s i := by
  obtain ⟨cam, found, result⟩ := compensate_pipelines first some_ small
  obtain ⟨pipe, rest, shape⟩ := List.exists_cons_of_ne_nil some_
  have head : (s.pipelines[0]?).map VideoSource.pipe = mainSource s i := by
    rw [mainSource, if_neg some_]
  have main : mainSource s i = some (.pipe pipe) := by
    rw [← head, shape]
    rfl
  rw [compensated_iff_of_true first (by rw [result]), result]
  dsimp only
  rw [(forStreams_setSourceIdx_same 1 _).inputs, forStreams_setSourceIdx_streams, List.forall_mem_map]
  apply and_congr
  · rw [← truncated_camera_iff first small, found, Option.map_some]
    constructor
    · intro attached
      have member : pipe ∈ s.pipelines := by
        rw [shape]
        exact List.mem_cons_self
      rw [← attached pipe member, foldl_setCamera_input, if_pos member]
    · intro same given member
      rw [foldl_setCamera_input, if_pos member, same]
  · apply forall₂_congr
    intro stream _
    change (redirect s 1 stream).source = _ ↔ _
    rw [redirect_source, selected_one, head, main]
    by_cases new : stream.localIdx ≠ 1
    · by_cases fits : 1 ≤ toInt32 s.numPipelines
      · simp [new, fits]
      · simp [fits]
    · simp [new]

/-- A compensation without pipelines shows the camera exactly when the state was settled. -/
theorem compensated_cameras_iff {connected : Nat → Bool} {s : Registry} {i : Nat}
    (first : s.cameras.findIdx? connected = some i) (none_ : s.pipelines = [])
    (small : i % 2 ^ 16 < 2 ^ 15) :
    Compensated connected s (s.compensate connected) ↔ ∀ stream ∈ s.streams,
      if stream.localIdx ≠ -((i % 2 ^ 16 : Nat) + 1 : Int) ∧
          ((i % 2 ^ 16 : Nat) + 1 : Int) ≤ toInt32 s.numCameras then i < 2 ^ 15
      else stream.source = mainSource s i := by
  have result := compensate_cameras first none_ small
  have main : mainSource s i = (s.cameras[i]?).map .camera := by
    rw [mainSource, if_pos none_]
  have bound := index_lt first
  have lower := Nat.mod_le i (2 ^ 16)
  have found := List.getElem?_eq_getElem (l := s.cameras) (i := i % 2 ^ 16) (by omega)
  rw [compensated_iff_of_true first (by rw [result]), result]
  dsimp only
  rw [forStreams_setSourceIdx_streams, List.forall_mem_map, none_]
  simp only [List.not_mem_nil, false_implies, implies_true, true_and]
  apply forall₂_congr
  intro stream _
  rw [redirect_source, selected_camera, ← truncated_camera_iff first small, main, found]
  by_cases new : stream.localIdx ≠ -((i % 2 ^ 16 : Nat) + 1 : Int)
  · by_cases fits : ((i % 2 ^ 16 : Nat) + 1 : Int) ≤ toInt32 s.numCameras
    · rw [if_pos new, if_pos fits, if_pos ⟨new, fits⟩]
      rfl
    · rw [if_pos new, if_neg fits, if_neg (fun given => fits given.2)]
      rfl
  · rw [if_neg new, if_neg (fun given => new given.1)]

/-- A compensation without a connected camera does what it is meant to do. -/
theorem compensated_of_unconnected {connected : Nat → Bool} {s : Registry}
    (none_ : s.cameras.findIdx? connected = none) :
    Compensated connected s (s.compensate connected) := by
  have absent (i : Nat) : s.cameras.findIdx? connected ≠ some i := by
    rw [none_]
    exact (Option.some_ne_none i).symm
  have unplugged : s.cameras.any connected = false := List.any_eq_false.mpr fun cam member => by
    rw [List.findIdx?_eq_none_iff.mp none_ cam member]
    exact Bool.false_ne_true
  rw [compensate_unconnected none_]
  exact ⟨by rw [unplugged], fun i found => absurd found (absent i),
    fun i found => absurd found (absent i), fun _ => rfl⟩

section Decided

variable {connected : Nat → Bool} {s : Registry} {i : Nat}
variable (first : s.cameras.findIdx? connected = some i)
include first

/-- With a connected camera the call must return true. -/
theorem not_compensated_of_failed (failed : (s.compensate connected).result ≠ .ok true) :
    ¬ Compensated connected s (s.compensate connected) := by
  intro compensated
  apply failed
  rw [compensated.answer, any_connected first]

/-- With nothing to attach a compensation is right unless the stored index means that there is no
camera. -/
theorem compensated_nothing_iff (none_ : s.pipelines = []) (streams : s.streams = []) :
    Compensated connected s (s.compensate connected) ↔ i % 2 ^ 16 ≠ 2 ^ 16 - 1 := by
  have result := compensate_nothing first none_ streams
  by_cases usable : i % 2 ^ 16 ≠ 2 ^ 16 - 1
  · rw [decide_eq_true usable] at result
    refine iff_of_true ((compensated_iff_of_true first (by rw [result])).mpr ?_) usable
    rw [result]
    dsimp only
    rw [none_, streams]
    exact ⟨fun _ member => absurd member List.not_mem_nil,
      fun _ member => absurd member List.not_mem_nil⟩
  · rw [decide_eq_false usable] at result
    refine iff_of_false (not_compensated_of_failed first fun returned => ?_) usable
    rw [result] at returned
    cases returned

/-- The index of the first connected camera decides. -/
theorem settled_iff : Settled connected s ↔ SettledAt s i := by
  constructor
  · intro settled
    exact settled i first
  · intro holds j other
    obtain rfl : i = j := Option.some.inj (first.symm.trans other)
    exact holds

end Decided

/-- A compensation does what it is meant to do exactly when the state was settled. -/
theorem compensated_iff_settled (connected : Nat → Bool) (s : Registry) :
    Compensated connected s (s.compensate connected) ↔ Settled connected s := by
  cases first : s.cameras.findIdx? connected with
  | none =>
      refine iff_of_true (compensated_of_unconnected first) fun i found => ?_
      rw [first] at found
      cases found
  | some i =>
      have wrong := not_compensated_of_failed first
      rw [settled_iff first, SettledAt]
      by_cases some_ : s.pipelines ≠ []
      · rw [if_pos some_]
        by_cases small : i % 2 ^ 16 < 2 ^ 15
        · exact compensated_pipelines_iff first some_ small
        · exact iff_of_false (wrong (compensate_negative first (Or.inl some_) (by omega)))
            fun settled => small (by omega)
      · have none_ := not_not.mp some_
        rw [if_neg some_]
        by_cases streams : s.streams = []
        · rw [if_pos streams]
          exact compensated_nothing_iff first none_ streams
        · rw [if_neg streams]
          by_cases small : i % 2 ^ 16 < 2 ^ 15
          · rw [and_iff_right small]
            exact compensated_cameras_iff first none_ small
          · exact iff_of_false (wrong (compensate_negative first (Or.inr streams) (by omega)))
              fun settled => small settled.1

/-- A client selected the first pipeline in a raw run, and the pipeline was added later. -/
theorem rawIndex_not_compensated :
    ∃ s, machine.run initial [.addCamera 7, .addStreams [("Stream 1", none)], .start .raw,
        .remoteWrite "Stream 1" 1, .syncIdx 0, .stop, .addPipeline (.user 1)] = some s ∧
      ¬ Compensated (fun _ => true) s (s.compensate fun _ => true) := by
  refine ⟨_, rfl, fun compensated => ?_⟩
  have shown := compensated.streams 0 rfl ⟨"Stream 1", 1, none⟩ List.mem_cons_self
  exact absurd shown (by decide)

end VisionServer.Server
