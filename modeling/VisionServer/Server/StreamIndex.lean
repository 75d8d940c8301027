/-
This file proves that the index of a stream can be set directly or by a remote client with the same
result.
-/

import VisionServer.Library.Binary64
import VisionServer.Server.Registry

namespace VisionServer.Server
open Library

/-- The table of a stream after a client wrote to it. -/
def written (s : Registry) (name : String) (i : Int) : Registry :=
  { s with sourceIndex := Function.update s.sourceIndex name i }

section Agreeing

variable {s : Registry} {position : Nat} {stream : OutputStream}
variable (found : s.streams[position]? = some stream)
include found

/-- A stream that remembers the published index is not synchronized again. -/
theorem syncIdx_of_agree (agree : s.sourceIndex stream.name = stream.localIdx) :
    s.syncIdx position = s := by
  rw [Registry.syncIdx_eq, found]
  dsimp only
  rw [if_neg (not_not.mpr agree)]

/-- The direct call has the effect of a remote write and one synchronization. -/
theorem setSourceIdx_eq_written_syncIdx (agree : s.sourceIndex stream.name = stream.localIdx)
    (i : Int) : s.setSourceIdx position i = (written s stream.name i).syncIdx position := by
  have read : (written s stream.name i).sourceIndex stream.name = i := Function.update_self ..
  have kept : (written s stream.name i).streams[position]? = some stream := found
  rw [Registry.setSourceIdx_eq, found, Registry.syncIdx_eq, kept]
  dsimp only
  rw [read]
  by_cases same : stream.localIdx = i
  · have published : Function.update s.sourceIndex stream.name i = s.sourceIndex := by
      rw [← same, ← agree, Function.update_eq_self]
    rw [if_neg (not_not.mpr same), if_neg (not_not.mpr same.symm), written, published]
  · rw [if_pos same, if_pos (Ne.symm same)]
    rfl

/-- After the direct call the stream remembers the published index. -/
theorem setSourceIdx_agree (agree : s.sourceIndex stream.name = stream.localIdx) (i : Int) :
    ∃ after, (s.setSourceIdx position i).streams[position]? = some after ∧ after.name = stream.name ∧
      after.localIdx = i ∧ (s.setSourceIdx position i).sourceIndex stream.name = i := by
  have inside := (List.getElem?_eq_some_iff.mp found).1
  rw [Registry.setSourceIdx_eq, found]
  dsimp only
  by_cases same : stream.localIdx = i
  · rw [if_neg (not_not.mpr same)]
    exact ⟨stream, found, rfl, same, agree.trans same⟩
  · rw [if_pos same]
    exact ⟨s.attach i stream, List.getElem?_set_self inside, rfl, rfl, Function.update_self ..⟩

/-- A direct call does the same as a remote write and one synchronization. Later synchronizations
change nothing, and the published index survives the conversion to `double`. -/
theorem setSourceIdx_matches_remoteWrite (agree : s.sourceIndex stream.name = stream.localIdx)
    (i : Int) :
    machine.run s [.setSourceIdx position i] =
        machine.run s [.remoteWrite stream.name i, .syncIdx position] ∧
      ∀ reached, machine.run s [.setSourceIdx position i] = some reached →
        toDouble (reached.sourceIndex stream.name) = reached.sourceIndex stream.name ∧
          ∀ n, machine.run reached (List.replicate n (.syncIdx position)) = some reached := by
  by_cases int : IsInt i
  · have direct : machine.run s [.setSourceIdx position i] = some (s.setSourceIdx position i) := by
      simp [machine, step, int]
    have remote : machine.run s [.remoteWrite stream.name i, .syncIdx position] =
        some ((written s stream.name i).syncIdx position) := by
      simp [machine, step, int, written]
    refine ⟨?_, fun reached taken => ?_⟩
    · rw [direct, remote, setSourceIdx_eq_written_syncIdx found agree]
    · rw [direct, Option.some.injEq] at taken
      subst taken
      obtain ⟨after, here, name, remembered, published⟩ := setSourceIdx_agree found agree i
      refine ⟨by rw [published, toDouble_of_range int.1 int.2], fun n => ?_⟩
      have idle := syncIdx_of_agree here (by rw [name, published, remembered])
      induction n with
      | zero => rfl
      | succ n ih =>
          rw [List.replicate_succ, Machine.run_cons]
          change (some ((s.setSourceIdx position i).syncIdx position)).bind _ = _
          rw [idle, Option.bind_some]
          exact ih
  · have refused : machine.run s [.setSourceIdx position i] = none := by
      simp [machine, step, int]
    have unwritten : machine.run s [.remoteWrite stream.name i, .syncIdx position] = none := by
      simp [machine, step, int]
    refine ⟨by rw [refused, unwritten], fun reached taken => ?_⟩
    rw [refused] at taken
    cases taken

end Agreeing

/-- One camera, one pipeline and one stream are registered. -/
def oneOfEach : Registry :=
  (((initial.addCamera 7).server.addPipeline (.user 1)).server.addStreams [("Stream 1", none)]).server

/-- A new stream can be pointed at the first camera in both ways. -/
theorem newStream_matches_remoteWrite :
    (oneOfEach.setSourceIdx 0 (-1)).streams = [⟨"Stream 1", -1, some (.camera 7)⟩] ∧
      machine.run oneOfEach [.setSourceIdx 0 (-1)] =
        machine.run oneOfEach [.remoteWrite "Stream 1" (-1), .syncIdx 0] ∧
      ∀ reached, machine.run oneOfEach [.setSourceIdx 0 (-1)] = some reached →
        toDouble (reached.sourceIndex "Stream 1") = reached.sourceIndex "Stream 1" ∧
          ∀ n, machine.run reached (List.replicate n (.syncIdx 0)) = some reached := by
  have found : oneOfEach.streams[0]? = some ⟨"Stream 1", 0, none⟩ := rfl
  exact ⟨by decide, setSourceIdx_matches_remoteWrite found rfl (-1)⟩

end VisionServer.Server
