/-
This file decides when the published entries of the streams show the indices that the streams
remember.
-/

import VisionServer.Server.Compensation
import VisionServer.Server.Counts
import VisionServer.Server.StreamIndex

namespace VisionServer.Server
open Library

/-- The entry of each stream shows the index that the stream remembers. -/
def Agreed (s : Registry) : Prop := ∀ stream ∈ s.streams, s.sourceIndex stream.name = stream.localIdx

/-- The streams with a name remember an index. -/
def Remember (streams : List OutputStream) (name : String) (i : Int) : Prop :=
  ∀ stream ∈ streams, stream.name = name → stream.localIdx = i

/-- These are the names that the streams get by their number. -/
def defaultNames (first count : Nat) : List String :=
  (List.range' first count).map fun k => "Stream " ++ toString k

/-- The stream that gets a new index shares its name only with streams that remember this index. -/
def SetsAlone (s : Registry) (position : Nat) (i : Int) : Prop :=
  ∀ stream, s.streams[position]? = some stream → stream.localIdx ≠ i →
    ∀ j other, j ≠ position → s.streams[j]? = some other → other.name = stream.name → other.localIdx = i

/-- The operation leaves the entry of each stream with the index that the stream remembers. A
compensation that stores the index of its camera as a negative number changes the first stream only. -/
def KeepsEntries (s : Registry) : Op → Prop
  | .addStreams strms => s.isRunning = true ∨ ∀ name ∈ strms.map Prod.fst, Remember s.streams name 0
  | .addStreamsCount n =>
      s.isRunning = true ∨ ∀ name ∈ defaultNames (s.streams.length + 1) n, Remember s.streams name 0
  | .compensate connected =>
      s.pipelines = [] → s.firstConnected connected < -1 →
        SetsAlone s 0 (-((s.firstConnected connected + 1) % 2 ^ 16))
  | .setSourceIdx position i => SetsAlone s position i
  | .remoteWrite name i => Remember s.streams name i
  | _ => True

/-- The new streams follow the old ones. -/
theorem foldl_emplaceStream_streams (strms : List (String × Option VideoSource)) (s : Registry) :
    (strms.foldl (fun s strm => s.emplaceStream strm.1 strm.2) s).streams =
      s.streams ++ strms.map fun strm => ⟨strm.1, 0, strm.2⟩ := by
  induction strms generalizing s with
  | nil => exact (List.append_nil _).symm
  | cons strm rest ih =>
      rw [List.foldl_cons, ih, Registry.emplaceStream, List.map_cons, List.append_assoc]
      rfl

/-- The entries of the new streams are zero. -/
theorem foldl_emplaceStream_sourceIndex (strms : List (String × Option VideoSource)) (s : Registry)
    (name : String) : (strms.foldl (fun s strm => s.emplaceStream strm.1 strm.2) s).sourceIndex name =
      if name ∈ strms.map Prod.fst then 0 else s.sourceIndex name := by
  induction strms generalizing s with
  | nil => rfl
  | cons strm rest ih =>
      rw [List.foldl_cons, ih, List.map_cons]
      by_cases later : name ∈ rest.map Prod.fst
      · rw [if_pos later, if_pos (List.mem_cons_of_mem _ later)]
      · rw [if_neg later]
        by_cases here : name = strm.1
        · rw [here, if_pos List.mem_cons_self]
          exact Function.update_self ..
        · rw [if_neg (by simp [here, later])]
          exact Function.update_of_ne here ..

/-- The overloads with a number give default names. -/
theorem repeat_emplaceStream (n : Nat) (s : Registry) :
    n.repeat (fun s => s.emplaceStream ("Stream " ++ toString (s.streams.length + 1)) none) s =
      ((defaultNames (s.streams.length + 1) n).map fun name => (name, none)).foldl
        (fun s strm => s.emplaceStream strm.1 strm.2) s := by
  induction n with
  | zero => rfl
  | succ n ih =>
      rw [Nat.repeat, ih]
      unfold defaultNames
      rw [List.range'_1_concat, List.map_append, List.map_append, List.foldl_append]
      rw [foldl_emplaceStream_streams]
      simp [Nat.add_right_comm]

/-- The cameras and pipelines are changed without the streams. -/
theorem changesRegistries_streams {s next : Registry} {op : Op} (changes : op.changesRegistries = true)
    (taken : step s op = some next) : next.streams = s.streams ∧ next.sourceIndex = s.sourceIndex := by
  have simple (body : Registry → Registry) (same : (Registry.unlessRunning body s).server = next)
      (kept : (body s).streams = s.streams ∧ (body s).sourceIndex = s.sourceIndex) :
      next.streams = s.streams ∧ next.sourceIndex = s.sourceIndex := by
    rw [← same, unlessRunning_server]
    split
    · exact ⟨rfl, rfl⟩
    · exact kept
  cases op with
  | addCamera | addCameras | setCameras | addPipeline | addPipelines | setPipelines | addPipelineType =>
      exact simple _ (Option.some.inj taken) ⟨rfl, rfl⟩
  | addPipelinesTypes types =>
      simp only [step, Option.ite_none_right_eq_some] at taken
      obtain ⟨bound, taken⟩ := taken
      by_cases running : s.isRunning = true
      · rw [Registry.addPipelinesTypes, if_pos running] at taken
        exact Option.some.inj taken ▸ ⟨rfl, rfl⟩
      · rw [addPipelinesTypes_eq (eq_false_of_ne_true running) bound] at taken
        exact Option.some.inj taken ▸ ⟨rfl, rfl⟩
  | setPipelinesTypes types =>
      rw [← Option.some.inj taken, setPipelinesTypes_server]
      split <;> exact ⟨rfl, rfl⟩
  | addStreams | addStreamsCount | compensate | start | stop | syncIdx | setSourceIdx
  | remoteWrite => cases changes

section Agreement

variable {s : Registry} (agreed : Agreed s)
include agreed

/-- New streams agree with their entries, and old streams that share their names do so with zero. -/
theorem emplaceStreams_agreed_iff (strms : List (String × Option VideoSource)) :
    Agreed (strms.foldl (fun s strm => s.emplaceStream strm.1 strm.2) s) ↔
      ∀ name ∈ strms.map Prod.fst, Remember s.streams name 0 := by
  unfold Agreed
  rw [foldl_emplaceStream_streams]
  constructor
  · intro after name shared stream member same
    have shown := after stream (List.mem_append_left _ member)
    rw [foldl_emplaceStream_sourceIndex, if_pos (same ▸ shared)] at shown
    exact shown.symm
  · intro remember stream member
    rw [foldl_emplaceStream_sourceIndex]
    rcases List.mem_append.mp member with old | new
    · by_cases shared : stream.name ∈ strms.map Prod.fst
      · rw [if_pos shared]
        exact (remember stream.name shared stream old rfl).symm
      · rw [if_neg shared]
        exact agreed stream old
    · obtain ⟨strm, given, rfl⟩ := List.mem_map.mp new
      exact if_pos (List.mem_map_of_mem given)

/-- A direct index change is published for its stream, and for the streams with the same name. -/
theorem setSourceIdx_agreed_iff (position : Nat) (i : Int) :
    Agreed (s.setSourceIdx position i) ↔ SetsAlone s position i := by
  unfold SetsAlone
  cases found : s.streams[position]? with
  | none =>
      have same : s.setSourceIdx position i = s := by
        rw [Registry.setSourceIdx_eq, found]
      rw [same]
      exact iff_of_true agreed fun _ none => by cases none
  | some stream =>
      by_cases here : stream.localIdx = i
      · have same : s.setSourceIdx position i = s := by
          rw [Registry.setSourceIdx_eq, found]
          exact if_neg (not_not.mpr here)
        rw [same]
        refine iff_of_true agreed fun _ given different => ?_
        exact absurd (Option.some.inj given ▸ here) different
      · have changed : s.setSourceIdx position i = { s.updateStream position (s.attach i stream) with
            sourceIndex := Function.update s.sourceIndex stream.name i } := by
          rw [Registry.setSourceIdx_eq, found]
          exact if_pos here
        have inside := (List.getElem?_eq_some_iff.mp found).1
        rw [changed]
        constructor
        · intro after given same _ j other away at_ shared
          obtain rfl : stream = given := Option.some.inj same
          have member : other ∈ s.streams.set position (s.attach i stream) := by
            apply List.mem_of_getElem? (i := j)
            rw [List.getElem?_set_ne (Ne.symm away), at_]
          have shown := after other member
          change Function.update s.sourceIndex stream.name i other.name = _ at shown
          rw [shared, Function.update_self] at shown
          exact shown.symm
        · intro alone other member
          change Function.update s.sourceIndex stream.name i other.name = other.localIdx
          obtain ⟨j, at_⟩ := List.mem_iff_getElem?.mp member
          by_cases moved : position = j
          · subst moved
            rw [show (s.updateStream position (s.attach i stream)).streams[position]? = _ from
              List.getElem?_set_self inside] at at_
            obtain rfl := Option.some.inj at_
            exact Function.update_self ..
          · rw [show (s.updateStream position (s.attach i stream)).streams[j]? = _ from
              List.getElem?_set_ne moved] at at_
            by_cases shared : other.name = stream.name
            · rw [shared, Function.update_self]
              exact (alone stream rfl here j other (Ne.symm moved) at_ shared).symm
            · rw [Function.update_of_ne shared]
              exact agreed other (List.mem_of_getElem? at_)

theorem Agreed.of_same {t : Registry} (same : t.streams = s.streams ∧ t.sourceIndex = s.sourceIndex) :
    Agreed t := by
  unfold Agreed
  rw [same.1, same.2]
  exact agreed

/-- The same index for all streams is published for all of them. -/
theorem forStreams_agreed (i : Int) : Agreed (s.forStreams fun position => Registry.setSourceIdx position i) := by
  -- an entry shows the new index already, or still the index of its streams
  let shown (t : Registry) : Prop := ∀ stream ∈ t.streams,
    t.sourceIndex stream.name = i ∨ t.sourceIndex stream.name = stream.localIdx
  have kept (position : Nat) (t : Registry) (before : shown t) : shown (t.setSourceIdx position i) := by
    intro stream member
    rw [setSourceIdx_streams, List.modify_eq_set_getElem?] at member
    rw [Registry.setSourceIdx_eq]
    cases found : t.streams[position]? with
    | none =>
        rw [found] at member
        exact before stream member
    | some given =>
        rw [found] at member
        dsimp only
        by_cases new : given.localIdx ≠ i
        · rw [if_pos new]
          change Function.update t.sourceIndex given.name i stream.name = i ∨
            Function.update t.sourceIndex given.name i stream.name = stream.localIdx
          by_cases same : stream.name = given.name
          · rw [same, Function.update_self]
            exact Or.inl rfl
          · rw [Function.update_of_ne same]
            rcases List.mem_or_eq_of_mem_set member with old | replaced
            · exact before stream old
            · rw [replaced, redirect, if_pos new] at same
              exact absurd rfl same
        · rw [if_neg new]
          rcases List.mem_or_eq_of_mem_set member with old | replaced
          · exact before stream old
          · rw [redirect, if_neg new] at replaced
            exact replaced ▸ before given (List.mem_of_getElem? found)
  have all : shown (s.forStreams fun position => Registry.setSourceIdx position i) :=
    forStreams_keeps kept fun stream member => Or.inr (agreed stream member)
  intro stream member
  have remembers : stream.localIdx = i := by
    rw [forStreams_setSourceIdx_streams] at member
    obtain ⟨old, _, rfl⟩ := List.mem_map.mp member
    unfold redirect
    by_cases new : old.localIdx ≠ i
    · rw [if_pos new]
      rfl
    · rw [if_neg new]
      exact not_not.mp new
  rcases all stream member with changed | unchanged
  · rw [changed, remembers]
  · exact unchanged

/-- A compensation publishes the index that it gives to all streams. -/
theorem compensate_agreed_iff (connected : Nat → Bool) :
    Agreed (s.compensate connected).server ↔ KeepsEntries s (.compensate connected) := by
  unfold Registry.compensate KeepsEntries
  dsimp only
  by_cases active : s.firstConnected connected + 1 ≠ 0
  · rw [if_pos active]
    by_cases pipes : s.pipelines ≠ []
    · rw [if_pos pipes]
      refine iff_of_true ?_ fun none => absurd none pipes
      split
      · exact agreed
      next cam found =>
        have moved : Agreed { s with
            inputs := s.pipelines.foldl (fun inputs pipe => inputs.setCamera pipe cam) s.inputs } := agreed
        exact forStreams_agreed moved 1
    · rw [if_neg pipes]
      have none := not_not.mp pipes
      by_cases undefined : s.firstConnected connected < 0 ∧ s.streams ≠ []
      · rw [if_pos undefined]
        have negative : s.firstConnected connected < -1 := by omega
        change Agreed (s.setSourceIdx 0 _) ↔ _
        rw [setSourceIdx_agreed_iff agreed]
        exact ⟨fun alone _ _ => alone, fun alone => alone none negative⟩
      · rw [if_neg undefined]
        refine iff_of_true (forStreams_agreed agreed _) fun _ negative => ?_
        have empty : s.streams = [] := by
          by_contra some
          exact undefined ⟨by omega, some⟩
        intro stream found
        rw [empty] at found
        cases found
  · rw [if_neg active]
    exact iff_of_true agreed fun _ negative => absurd negative (by omega)

/-- A step keeps the entries right exactly when it sets the index of no stream for another one. -/
theorem step_agreed_iff {op : Op} {next : Registry} (taken : step s op = some next) :
    Agreed next ↔ KeepsEntries s op := by
  cases op with
  | addStreams strms =>
      rw [← Option.some.inj taken, Registry.addStreams, unlessRunning_server, KeepsEntries]
      by_cases running : s.isRunning = true
      · rw [if_pos running]
        exact iff_of_true agreed (Or.inl running)
      · rw [if_neg running, emplaceStreams_agreed_iff agreed]
        exact (or_iff_right running).symm
  | addStreamsCount n =>
      rw [← Option.some.inj taken, Registry.addStreamsCount, unlessRunning_server, KeepsEntries]
      by_cases running : s.isRunning = true
      · rw [if_pos running]
        exact iff_of_true agreed (Or.inl running)
      · rw [if_neg running, repeat_emplaceStream, emplaceStreams_agreed_iff agreed, List.map_map]
        change (∀ name ∈ (defaultNames (s.streams.length + 1) n).map id, Remember s.streams name 0) ↔ _
        rw [List.map_id]
        exact (or_iff_right running).symm
  | compensate connected =>
      rw [← Option.some.inj taken]
      exact compensate_agreed_iff agreed connected
  | setSourceIdx position i =>
      simp only [step, Option.ite_none_right_eq_some, Option.some.injEq] at taken
      rw [← taken.2]
      exact setSourceIdx_agreed_iff agreed position i
  | remoteWrite name i =>
      simp only [step, Option.ite_none_right_eq_some, Option.some.injEq] at taken
      rw [← taken.2]
      constructor
      · intro after stream member same
        have shown := after stream member
        change Function.update s.sourceIndex name i stream.name = _ at shown
        rw [same, Function.update_self] at shown
        exact shown.symm
      · intro remember stream member
        change Function.update s.sourceIndex name i stream.name = _
        by_cases same : stream.name = name
        · rw [same, Function.update_self]
          exact (remember stream member same).symm
        · rw [Function.update_of_ne same]
          exact agreed stream member
  | syncIdx position =>
      rw [← Option.some.inj taken]
      refine iff_of_true ?_ trivial
      have same : s.syncIdx position = s := by
        cases found : s.streams[position]? with
        | none => rw [Registry.syncIdx_eq, found]
        | some stream => exact syncIdx_of_agree found (agreed stream (List.mem_of_getElem? found))
      rw [same]
      exact agreed
  | start mode =>
      have same : next.streams = s.streams ∧ next.sourceIndex = s.sourceIndex := by
        cases mode with
        | raw =>
            rw [← Option.some.inj taken]
            exact ⟨rfl, rfl⟩
        | processing =>
            simp only [step] at taken
            split at taken <;> (rw [← Option.some.inj taken]; exact ⟨rfl, rfl⟩)
      exact iff_of_true (agreed.of_same same) trivial
  | stop =>
      rw [← Option.some.inj taken]
      exact iff_of_true agreed trivial
  | addCamera | addCameras | setCameras | addPipeline | addPipelines | setPipelines
  | addPipelineType | addPipelinesTypes | setPipelinesTypes =>
      exact iff_of_true (agreed.of_same (changesRegistries_streams rfl taken)) trivial

end Agreement

/-- The published entries show the remembered indices in every state of a history exactly when each
operation sets the index of no stream for another one. -/
theorem always_agreed_iff (ops : List Op) :
    machine.Always Agreed initial ops ↔ machine.Meets KeepsEntries initial ops :=
  machine.always_iff_meets (fun _ _ _ _ _ => trivial)
    (fun _ _ _ _ agreed taken => step_agreed_iff agreed taken) trivial (fun _ none => by cases none) ops

/-- A synchronization attaches the stream to the index of its entry. -/
def synchronized (s : Registry) (stream : OutputStream) : OutputStream :=
  if s.sourceIndex stream.name ≠ stream.localIdx then s.attach (s.sourceIndex stream.name) stream else stream

/-- The synchronization depends on the registries and the entries. -/
theorem synchronized_congr {s t : Registry} (same : SameSources s t) (entries : t.sourceIndex = s.sourceIndex) :
    synchronized t = synchronized s := by
  funext stream
  have selected (i : Int) : t.selected i = s.selected i := by
    unfold Registry.selected Registry.numCameras Registry.numPipelines
    rw [same.cameras, same.pipelines]
  rw [synchronized, synchronized, entries, Registry.attach, Registry.attach, selected]

theorem syncIdx_streams (position : Nat) (s : Registry) :
    (s.syncIdx position).streams = s.streams.modify position (synchronized s) := by
  rw [List.modify_eq_set_getElem?, Registry.syncIdx_eq]
  cases found : s.streams[position]? with
  | none => rfl
  | some stream =>
      change _ = s.streams.set position (synchronized s stream)
      dsimp only
      by_cases new : s.sourceIndex stream.name ≠ stream.localIdx
      · rw [if_pos new, synchronized, if_pos new]
        rfl
      · rw [if_neg new, synchronized, if_neg new]
        obtain ⟨inside, here⟩ := List.getElem?_eq_some_iff.mp found
        rw [← here, List.set_getElem_self]

theorem syncIdx_sourceIndex (position : Nat) (s : Registry) : (s.syncIdx position).sourceIndex = s.sourceIndex := by
  obtain ⟨streams, shape⟩ := syncIdx_frame position s
  rw [shape]

theorem syncIdx_same {s t : Registry} (same : SameSources s t) (position : Nat) :
    SameSources s (t.syncIdx position) := by
  obtain ⟨streams, shape⟩ := syncIdx_frame position t
  rw [shape]
  exact ⟨same.cameras, same.pipelines, same.inputs⟩

/-- A loop of synchronizations reads the entries of its first state. -/
theorem foldl_syncIdx (positions : List Nat) {s t : Registry} (same : SameSources s t)
    (entries : t.sourceIndex = s.sourceIndex) :
    (positions.foldl (fun t position => t.syncIdx position) t).streams =
        positions.foldl (fun streams position => streams.modify position (synchronized s)) t.streams ∧
      (positions.foldl (fun t position => t.syncIdx position) t).sourceIndex = s.sourceIndex := by
  induction positions generalizing t with
  | nil => exact ⟨rfl, entries⟩
  | cons position rest ih =>
      obtain ⟨streams, still⟩ := ih (syncIdx_same same position) ((syncIdx_sourceIndex position t).trans entries)
      rw [List.foldl_cons, List.foldl_cons, streams, syncIdx_streams, synchronized_congr same entries]
      exact ⟨rfl, still⟩

/-- A pass of the run functions brings all streams in line with their entries, whatever was written
before. -/
theorem pass_agreed (s : Registry) : Agreed (s.forStreams Registry.syncIdx) := by
  obtain ⟨streams, entries⟩ := foldl_syncIdx (List.range s.streams.length) (SameSources.refl s) rfl
  intro stream member
  change stream ∈ (List.foldl _ s (List.range s.streams.length)).streams at member
  rw [streams, foldl_modify_eq_map] at member
  obtain ⟨old, _, rfl⟩ := List.mem_map.mp member
  change (List.foldl _ s (List.range s.streams.length)).sourceIndex _ = _
  rw [entries]
  unfold synchronized
  by_cases new : s.sourceIndex old.name ≠ old.localIdx
  · rw [if_pos new]
    rfl
  · rw [if_neg new]
    exact not_not.mp new

/-- These are the streams whose entries a direct index change writes. -/
def renumbered (streams : List OutputStream) (i : Int) : List String :=
  (streams.filter fun stream => stream.localIdx ≠ i).map OutputStream.name

/-- A compensation that finds no camera or throws writes no entry. Without pipelines it stores the index of its camera
in all streams, or only in the first one when the number is negative. -/
def Registry.compensateWrites (connected : Nat → Bool) (s : Registry) : List String :=
  let active := s.firstConnected connected
  if active + 1 = 0 then []
  else if s.pipelines ≠ [] then if active < 0 then [] else renumbered s.streams 1
  else renumbered (if active < 0 then s.streams.take 1 else s.streams) (-((active + 1) % 2 ^ 16))

/-- These are the names of the entries that an operation writes. -/
def Registry.writes (s : Registry) : Op → List String
  | .addStreams strms => if s.isRunning then [] else strms.map Prod.fst
  | .addStreamsCount n => if s.isRunning then [] else defaultNames (s.streams.length + 1) n
  | .compensate connected => s.compensateWrites connected
  | .setSourceIdx position i => renumbered s.streams[position]?.toList i
  | .remoteWrite name _ => [name]
  | _ => []

/-- The operation does not write the entry with this name. -/
def Untouched (name : String) (s : Registry) (op : Op) : Prop := name ∉ s.writes op

instance (name : String) (s : Registry) (op : Op) : Decidable (Untouched name s op) :=
  inferInstanceAs (Decidable (_ ∉ _))

theorem notMem_renumbered {name : String} {streams : List OutputStream} {i : Int} :
    name ∉ renumbered streams i ↔ Remember streams name i := by
  unfold renumbered Remember
  simp only [List.mem_map, List.mem_filter, decide_eq_true_eq, not_exists, not_and]
  constructor
  · intro none stream member same
    by_contra other
    exact none stream ⟨member, other⟩ same
  · intro remember stream given same
    exact given.2 (remember stream given.1 same)

/-- A direct index change writes the entry of its stream only. -/
theorem setSourceIdx_entry {name : String} {s : Registry} {position : Nat} {i : Int}
    (untouched : Remember s.streams[position]?.toList name i) :
    (s.setSourceIdx position i).sourceIndex name = s.sourceIndex name := by
  rw [Registry.setSourceIdx_eq]
  cases found : s.streams[position]? with
  | none => rfl
  | some stream =>
      dsimp only
      by_cases new : stream.localIdx ≠ i
      · rw [if_pos new]
        refine Function.update_of_ne (fun same => new ?_) ..
        exact untouched stream (by rw [found]; exact List.mem_singleton_self stream) same.symm
      · rw [if_neg new]

/-- A loop of direct index changes writes no entry whose streams remember the index already. -/
theorem forStreams_entry {name : String} {s : Registry} {i : Int} (untouched : Remember s.streams name i) :
    (s.forStreams fun position => Registry.setSourceIdx position i).sourceIndex name = s.sourceIndex name := by
  let kept (t : Registry) : Prop := Remember t.streams name i ∧ t.sourceIndex name = s.sourceIndex name
  have preserve (position : Nat) (t : Registry) (before : kept t) : kept (t.setSourceIdx position i) := by
    obtain ⟨remember, entry⟩ := before
    constructor
    · intro stream member same
      rw [setSourceIdx_streams, List.modify_eq_set_getElem?] at member
      cases found : t.streams[position]? with
      | none =>
          rw [found] at member
          exact remember stream member same
      | some given =>
          rw [found] at member
          rcases List.mem_or_eq_of_mem_set member with old | replaced
          · exact remember stream old same
          · rw [replaced]
            unfold redirect
            by_cases new : given.localIdx ≠ i
            · rw [if_pos new]
              rfl
            · rw [if_neg new]
              exact not_not.mp new
    · rw [setSourceIdx_entry, entry]
      intro stream member same
      exact remember stream (List.mem_of_getElem? (Option.mem_toList.mp member)) same
  have start : kept s := ⟨untouched, rfl⟩
  have final : kept (s.forStreams fun position => Registry.setSourceIdx position i) := forStreams_keeps preserve start
  exact final.2

theorem compensate_entry {name : String} {s : Registry} {connected : Nat → Bool}
    (untouched : name ∉ s.compensateWrites connected) :
    (s.compensate connected).server.sourceIndex name = s.sourceIndex name := by
  unfold Registry.compensateWrites at untouched
  unfold Registry.compensate
  dsimp only at untouched ⊢
  by_cases active : s.firstConnected connected + 1 = 0
  · rw [if_neg (not_not.mpr active)]
  · rw [if_neg active] at untouched
    rw [if_pos active]
    by_cases pipes : s.pipelines ≠ []
    · rw [if_pos pipes] at untouched ⊢
      by_cases negative : s.firstConnected connected < 0
      · rw [if_pos negative]
      · rw [if_neg negative] at untouched ⊢
        split
        · rfl
        · exact forStreams_entry (s := { s with inputs := _ }) (notMem_renumbered.mp untouched)
    · rw [if_neg pipes, notMem_renumbered] at untouched
      rw [if_neg pipes]
      by_cases undefined : s.firstConnected connected < 0 ∧ s.streams ≠ []
      · rw [if_pos undefined.1] at untouched
        rw [if_pos undefined]
        apply setSourceIdx_entry
        intro stream member same
        refine untouched stream ?_ same
        rw [List.take_one]
        exact List.head?_eq_getElem? (l := s.streams) ▸ member
      · rw [if_neg undefined]
        apply forStreams_entry
        by_cases negative : s.firstConnected connected < 0
        · have none : s.streams = [] := not_not.mp fun some => undefined ⟨negative, some⟩
          rw [none]
          exact fun _ member => absurd member List.not_mem_nil
        · rwa [if_neg negative] at untouched

/-- An operation leaves the entries that it does not write. -/
theorem step_sourceIndex {name : String} {s next : Registry} {op : Op} (untouched : Untouched name s op)
    (taken : step s op = some next) : next.sourceIndex name = s.sourceIndex name := by
  cases op with
  | addStreams strms =>
      rw [← Option.some.inj taken, Registry.addStreams, unlessRunning_server]
      by_cases running : s.isRunning = true
      · rw [if_pos running]
      · rw [Untouched, Registry.writes, if_neg running] at untouched
        rw [if_neg running, foldl_emplaceStream_sourceIndex, if_neg untouched]
  | addStreamsCount n =>
      rw [← Option.some.inj taken, Registry.addStreamsCount, unlessRunning_server]
      by_cases running : s.isRunning = true
      · rw [if_pos running]
      · rw [Untouched, Registry.writes, if_neg running] at untouched
        rw [if_neg running, repeat_emplaceStream, foldl_emplaceStream_sourceIndex, if_neg]
        rw [List.map_map]
        change name ∉ (defaultNames (s.streams.length + 1) n).map id
        rw [List.map_id]
        exact untouched
  | compensate connected =>
      rw [← Option.some.inj taken]
      exact compensate_entry untouched
  | setSourceIdx position i =>
      simp only [step, Option.ite_none_right_eq_some, Option.some.injEq] at taken
      rw [← taken.2]
      exact setSourceIdx_entry (notMem_renumbered.mp untouched)
  | remoteWrite other i =>
      simp only [step, Option.ite_none_right_eq_some, Option.some.injEq] at taken
      rw [← taken.2]
      exact Function.update_of_ne (List.ne_of_not_mem_cons untouched) ..
  | syncIdx position =>
      rw [← Option.some.inj taken, syncIdx_sourceIndex]
  | start mode =>
      cases mode with
      | raw => rw [← Option.some.inj taken]
      | processing =>
          simp only [step] at taken
          split at taken <;> rw [← Option.some.inj taken]
  | stop => rw [← Option.some.inj taken]
  | addCamera | addCameras | setCameras | addPipeline | addPipelines | setPipelines
  | addPipelineType | addPipelinesTypes | setPipelinesTypes =>
      rw [(changesRegistries_streams rfl taken).2]

/-- An index that a client has written reaches every stream with this name in the next pass, unless
the entry is written again before it. -/
theorem remoteWrite_delivered {name : String} {i : Int} {s final : Registry} {ops : List Op}
    (written : s.sourceIndex name = i) (untouched : machine.Meets (Untouched name) s ops)
    (reached : machine.run s ops = some final) :
    Remember (final.forStreams Registry.syncIdx).streams name i := by
  have kept : machine.Always (fun t => t.sourceIndex name = i) s ops :=
    Machine.Meets.always machine (fun _ _ _ before still taken => (step_sourceIndex still taken).trans before)
      written untouched
  have entry := kept.last machine reached
  intro stream member same
  have agreed := pass_agreed final stream member
  have entries := (foldl_syncIdx (List.range final.streams.length) (SameSources.refl final) rfl).2
  change (List.foldl _ final (List.range final.streams.length)).sourceIndex _ = _ at agreed
  rw [entries, same, entry] at agreed
  exact agreed.symm

/-- The index of a camera is written before the camera is registered and the server runs. A compensation without a
connected camera and a refused stream lie between. -/
theorem cameraIndex_delivered : ∃ final,
    machine.run (written (initial.addStreamsCount 1).server "Stream 1" (-1))
        [.addCamera 7, .compensate fun _ => false, .start .raw, .addStreams [("Stream 1", none)]] = some final ∧
      Remember (final.forStreams Registry.syncIdx).streams "Stream 1" (-1) := by
  have reached : machine.run (written (initial.addStreamsCount 1).server "Stream 1" (-1))
      [.addCamera 7, .compensate fun _ => false, .start .raw, .addStreams [("Stream 1", none)]] = some _ := rfl
  refine ⟨_, reached, remoteWrite_delivered rfl ?_ reached⟩
  decide

end VisionServer.Server
