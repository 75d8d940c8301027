/-
This file shows that the references of the pipelines follow the cameras that the selections name.
-/

import VisionServer.Server.Matrices
import VisionServer.Server.PipelineRunner
import VisionServer.Server.RunSingle

namespace VisionServer.Server.Matrices
open Library

/-- A reference is an address of the member that a matrix names. -/
def Leads (s : Attachments) (r : Registry) : Ref → Mat → Prop
  | .default, .default => True
  | .camera address, .camera id =>
      ∃ index, address = s.server.cameras.slot index ∧ r.cameras[index]? = some id
  | _, _ => False

/-- The two views have the same pipelines, as many cameras and the same references. -/
structure Agree (s : Attachments) (r : Registry) : Prop where
  pipelines : s.pipelines = r.pipelines
  size : s.server.cameras.size = r.numCameras
  srcMatrix : ∀ pipe, Leads s r (s.srcMatrix pipe) (r.inputs.srcMatrix pipe)
  srcDistort : ∀ pipe, Leads s r (s.srcDistort pipe) (r.inputs.srcDistort pipe)

/-- The pipelines of both views refer to the defaults. -/
structure Unattached (s : Attachments) (r : Registry) : Prop where
  pipelines : s.pipelines = r.pipelines
  size : s.server.cameras.size = r.numCameras
  references : ∀ pipe, s.srcMatrix pipe = .default ∧ s.srcDistort pipe = .default
  inputs : r.inputs = Sources.initial

theorem Unattached.agree {s : Attachments} {r : Registry} (unattached : Unattached s r) : Agree s r := by
  obtain ⟨pipelines, size, references, inputs⟩ := unattached
  refine ⟨pipelines, size, fun pipe => ?_, fun pipe => ?_⟩
  · rw [(references pipe).1, inputs]
    trivial
  · rw [(references pipe).2, inputs]
    trivial

/-- The references do not depend on the streams. -/
theorem Agree.congr {s : Attachments} {r t : Registry} (agree : Agree s r) (same : SameSources r t) :
    Agree s t := by
  have leads {ref : Ref} {mat : Mat} (before : Leads s r ref mat) : Leads s t ref mat := by
    cases ref <;> cases mat <;> first
      | exact before
      | (obtain ⟨index, slot, found⟩ := before
         exact ⟨index, slot, by rw [same.cameras, found]⟩)
  refine ⟨agree.pipelines.trans same.pipelines.symm, ?_, fun pipe => ?_, fun pipe => ?_⟩
  · rw [agree.size, Registry.numCameras, Registry.numCameras, same.cameras]
  · rw [same.inputs]
    exact leads (agree.srcMatrix pipe)
  · rw [same.inputs]
    exact leads (agree.srcDistort pipe)

/-- The new references and the old ones of the other pipelines agree. -/
theorem leads_update {s : Attachments} {r : Registry} {pipe : BasePipe} {ref : Ref} {mat : Mat}
    (new : Leads s r ref mat) {refs : BasePipe → Ref} {mats : BasePipe → Mat}
    (old : ∀ other, Leads s r (refs other) (mats other)) (other : BasePipe) :
    Leads s r (Function.update refs pipe ref other) (Function.update mats pipe mat other) := by
  by_cases same : other = pipe
  · rw [same, Function.update_self, Function.update_self]
    exact new
  · rw [Function.update_of_ne same, Function.update_of_ne same]
    exact old other

section Selections

variable {s : Attachments} {r : Registry} (agree : Agree s r)
include agree

/-- The attachment of a camera takes the addresses of its members. -/
theorem setCamera_agree {index cam : Nat} (found : r.cameras[index]? = some cam) (pipe : BasePipe) :
    Agree (s.setCamera pipe (s.server.cameras.slot index))
      { r with inputs := r.inputs.setCamera pipe cam } :=
  have new : Leads s r (.camera (s.server.cameras.slot index)) (.camera cam) := ⟨index, rfl, found⟩
  ⟨agree.pipelines, agree.size, leads_update new agree.srcMatrix, leads_update new agree.srcDistort⟩

/-- The attachment of a pipeline copies its addresses. -/
theorem setPipeline_agree (pipe upstream : BasePipe) :
    Agree (s.setPipeline pipe upstream) { r with inputs := r.inputs.setPipeline pipe upstream } :=
  ⟨agree.pipelines, agree.size, leads_update (agree.srcMatrix upstream) agree.srcMatrix,
    leads_update (agree.srcDistort upstream) agree.srcDistort⟩

end Selections

/-- The thread of a pipeline attaches what its selection names. -/
theorem runnerSelect_agree {s : Attachments} {t next : Runner} (agree : Agree s t.server) {n : Int}
    (different : n ≠ t.idx) {address : Nat} {pipe : BasePipe}
    (taken : t.iterate address pipe n = .ok next) :
    Agree (s.runnerSelect address pipe n) next.server := by
  obtain ⟨call, selected, shape⟩ := iterate_ok taken
  rw [shape]
  unfold Runner.selectSource at selected
  unfold Attachments.runnerSelect
  rw [if_pos different] at selected
  rw [agree.size, agree.pipelines]
  by_cases range : n > 0 ∧ n ≤ t.server.numCameras
  · rw [if_pos range] at selected ⊢
    cases found : t.server.cameras[n.toNat - 1]? with
    | none =>
        rw [found] at selected
        cases selected
    | some cam =>
        rw [found] at selected
        cases selected
        exact setCamera_agree agree found pipe
  · rw [if_neg range] at selected ⊢
    by_cases negative : n < 0
    · rw [if_pos negative] at selected
      by_cases overflow : toInt32 address = -2 ^ 31
      · rw [if_pos overflow] at selected
        cases selected
      · rw [if_neg overflow] at selected
        by_cases passed : n ≥ -toInt32 address
        · rw [if_pos passed] at selected
          rw [if_pos ⟨negative, passed⟩]
          cases found : t.server.pipelines[(-n).toNat - 1]? with
          | none =>
              rw [found] at selected
              cases selected
          | some upstream =>
              rw [found] at selected
              cases selected
              exact setPipeline_agree agree pipe upstream
        · rw [if_neg passed] at selected
          rw [if_neg (fun both => passed both.2)]
          cases selected
          exact agree
    · rw [if_neg negative] at selected
      rw [if_neg (fun both => negative both.1)]
      cases selected
      exact agree

/-- The loop of `runSingle` attaches the camera at the index that it reads, unless it reads behind the
last camera. -/
theorem singleSelect_agree {s : Attachments} {t : SingleLoop} (agree : Agree s t.server) {m : Int}
    (new : m ≠ t.cIdx) {pipe : BasePipe} (active : t.server.pipelines[t.pIdx]? = some pipe)
    (inside : m > 0 → m ≠ t.server.numCameras) :
    Agree (s.singleSelect pipe m) (t.switchCamera m).server := by
  unfold SingleLoop.switchCamera Attachments.singleSelect
  rw [if_pos new, agree.size]
  dsimp only
  by_cases range : m > 0 ∧ m ≤ t.server.numCameras
  · have index : m.toNat < t.server.cameras.length := by
      have before := inside range.1
      simp only [Registry.numCameras] at before range
      omega
    have found := List.getElem?_eq_getElem index
    rw [if_pos range, if_pos range, found]
    dsimp only
    rw [attachCamera_eq (s := { t with cIdx := m }) active]
    exact setCamera_agree agree found pipe
  · rw [if_neg range, if_neg range]
    exact agree

/-- The loop of a compensation attaches all pipelines to one camera. -/
theorem foldl_setCamera_agree {index cam : Nat} (pipes : List BasePipe) {s : Attachments} {r : Registry}
    (agree : Agree s r) (found : r.cameras[index]? = some cam) :
    Agree (pipes.foldl (fun s pipe => s.setCamera pipe (s.server.cameras.slot index)) s)
      { r with inputs := pipes.foldl (fun inputs pipe => inputs.setCamera pipe cam) r.inputs } := by
  induction pipes generalizing s r with
  | nil => exact agree
  | cons pipe rest ih => exact ih (setCamera_agree agree found pipe) found

/-- Both views find the same connected camera. -/
theorem firstConnected_agree {s : Attachments} {r : Registry} (agree : Agree s r)
    (connected : Nat → Bool) :
    s.firstConnected (fun index => (r.cameras[index]?).any connected) = r.firstConnected connected := by
  have same : (List.range r.cameras.length).find? (fun index => (r.cameras[index]?).any connected) =
      r.cameras.findIdx? connected := by
    apply Option.ext
    intro index
    rw [List.find?_range_eq_some, List.findIdx?_eq_some_iff_getElem]
    constructor
    · intro given
      obtain ⟨plugged, member, before⟩ := given
      have inside := List.mem_range.mp member
      rw [List.getElem?_eq_getElem inside] at plugged
      refine ⟨inside, plugged, fun j earlier => ?_⟩
      have unplugged := before j earlier
      rw [List.getElem?_eq_getElem (by omega)] at unplugged
      simpa using unplugged
    · intro given
      obtain ⟨inside, plugged, before⟩ := given
      refine ⟨?_, List.mem_range.mpr inside, fun j earlier => ?_⟩
      · rw [List.getElem?_eq_getElem inside]
        exact plugged
      · rw [List.getElem?_eq_getElem (by omega)]
        simpa using before j earlier
  rw [← Registry.numCameras, ← agree.size] at same
  unfold Attachments.firstConnected Registry.firstConnected
  cases found : r.cameras.findIdx? connected <;> simp only [same, found]

/-- A compensation attaches the pipelines of both views to the same camera. -/
theorem compensate_agree {s : Attachments} {r : Registry} (agree : Agree s r)
    (connected : Nat → Bool) :
    Agree (s.compensate fun index => (r.cameras[index]?).any connected)
      (r.compensate connected).server := by
  have same := firstConnected_agree agree connected
  have streams (i : Int) (t : Registry) (other : Agree s t) :
      Agree s (t.forStreams fun position => Registry.setCameraIdx position i) :=
    other.congr (forStreams_setSourceIdx_same _ t)
  unfold Attachments.compensate Registry.compensate
  rw [same]
  dsimp only
  by_cases negative : r.firstConnected connected < 0
  · rw [if_pos negative]
    split
    · dsimp only
      split
      · exact agree
      · split
        · exact agree.congr ((SameSources.refl r).setSourceIdx 0 _)
        · exact streams _ r agree
    · exact agree
  · rw [if_neg negative, if_pos (by omega), agree.pipelines]
    by_cases some_ : r.pipelines ≠ []
    · have index : (r.firstConnected connected).toNat < r.cameras.length := by
        have within := firstConnected_lt (s := s) (by rw [same]; exact negative)
        rw [same, agree.size] at within
        exact within
      have found := List.getElem?_eq_getElem index
      rw [if_pos some_, if_neg negative, found]
      dsimp only
      apply (foldl_setCamera_agree r.pipelines agree found).congr
      exact forStreams_setSourceIdx_same _ _
    · rw [if_neg some_, not_not.mp some_, if_neg (fun both => negative both.1)]
      exact streams _ r agree

section Runs

/-- The thread of a pipeline and the loop of `runSingle` select by an index and remember the last one. -/
inductive Selection where
  | compensate (connected : Nat → Bool)
  | runner (pipe : BasePipe) (last n : Int)
  | single (pIdx : Nat) (last m : Int)

/-- Between two registrations the loops select the sources of registered pipelines. Nothing is defined behind a
fault. -/
def selections (address : Nat) : Machine Registry Selection where
  step r
    | .compensate connected => some (r.compensate connected).server
    | .runner pipe last n =>
        if pipe ∈ r.pipelines then ((Runner.mk last r).iterate address pipe n).toOption.map Runner.server else none
    | .single pIdx last m =>
        let next := SingleLoop.switchCamera m ⟨pIdx, last, r, [], false⟩
        if next.outside then none else some next.server

/-- The registry of the cameras is not changed. -/
def Op.selects : Op → Bool
  | .registry _ => false
  | _ => true

/-- These are the same selections where the pipelines refer to addresses. -/
def attaching (address : Nat) : Machine Attachments Op := (machine address).restrict fun _ op => op.selects

/-- The other view follows a state when it waits or takes a selection and agrees again. -/
def Followed (address : Nat) (s : Attachments) (next : Registry) : Prop :=
  ∃ after, Agree after next ∧ (after = s ∨ ∃ op, (attaching address).step s op = some after)

variable {address : Nat} {s : Attachments} {r next : Registry} (agree : Agree s r)
include agree

theorem compensate_followed (connected : Nat → Bool) : Followed address s (r.compensate connected).server :=
  ⟨_, compensate_agree agree connected, Or.inr ⟨.compensate _, rfl⟩⟩

/-- An index that is remembered selects nothing in the thread of a pipeline. -/
theorem runner_followed {pipe : BasePipe} {last n : Int}
    (taken : (selections address).step r (.runner pipe last n) = some next) : Followed address s next := by
  obtain ⟨registered, taken⟩ := Option.ite_none_right_eq_some.mp taken
  obtain ⟨reached, iterated, rfl⟩ := Option.map_eq_some_iff.mp taken
  have iterated : (Runner.mk last r).iterate address pipe n = .ok reached := by
    cases result : (Runner.mk last r).iterate address pipe n with
    | error fault =>
        rw [result] at iterated
        cases iterated
    | ok other =>
        rw [result] at iterated
        exact congrArg Except.ok (Option.some.inj iterated)
  by_cases same : n = last
  · rw [same, iterate_same ⟨last, r⟩] at iterated
    cases iterated
    exact ⟨s, agree, Or.inl rfl⟩
  · have after := runnerSelect_agree (t := ⟨last, r⟩) agree same iterated
    have stepped : (machine address).step s (.runnerSelect pipe n) = some (s.runnerSelect address pipe n) :=
      if_pos (agree.pipelines ▸ registered)
    exact ⟨_, after, Or.inr ⟨.runnerSelect pipe n, (machine address).restrict_step.mpr ⟨rfl, stepped⟩⟩⟩

/-- The loop of `runSingle` selects a camera for a registered pipeline, or it selects nothing. -/
theorem single_followed {pIdx : Nat} {last m : Int}
    (taken : (selections address).step r (.single pIdx last m) = some next) : Followed address s next := by
  have here := taken
  simp only [selections, Option.ite_none_left_eq_some, Option.some.injEq] at here
  obtain ⟨defined, rfl⟩ := here
  by_cases new : m ≠ last
  · by_cases range : m > 0 ∧ m ≤ r.numCameras
    · cases found : r.cameras[m.toNat]? with
      | none =>
          simp [SingleLoop.switchCamera, new, range, found] at defined
      | some cam =>
          cases active : r.pipelines[pIdx]? with
          | none =>
              simp [SingleLoop.switchCamera, new, range, found, SingleLoop.attachCamera, SingleLoop.onActive,
                active] at defined
          | some pipe =>
              have inside : m > 0 → m ≠ r.numCameras := by
                intro _ last
                have index := (List.getElem?_eq_some_iff.mp found).1
                simp only [Registry.numCameras] at last
                omega
              have after := singleSelect_agree (t := ⟨pIdx, last, r, [], false⟩) agree new active inside
              have stepped : (machine address).step s (.singleSelect pipe m) = some (s.singleSelect pipe m) :=
                if_pos (agree.pipelines ▸ List.mem_of_getElem? active)
              exact ⟨_, after, Or.inr ⟨.singleSelect pipe m, (machine address).restrict_step.mpr ⟨rfl, stepped⟩⟩⟩
    · refine ⟨s, ?_, Or.inl rfl⟩
      rw [SingleLoop.switchCamera, if_pos new]
      dsimp only
      rw [if_neg range]
      exact agree
  · refine ⟨s, ?_, Or.inl rfl⟩
    rw [SingleLoop.switchCamera, if_neg new]
    exact agree

omit agree

/-- After every run of selections the references of the pipelines are the addresses of the cameras that the selections
name. -/
theorem selections_agree {final : Registry} (unattached : Unattached s r) {labels : List Selection}
    (reached : (selections address).run r labels = some final) :
    ∃ history after, (attaching address).run s history = some after ∧ Agree after final := by
  have all : (selections address).Meets (fun _ _ => True) r labels :=
    (selections address).along_of_invariant (fun _ _ _ (kept : True) _ => ⟨trivial, kept⟩) trivial labels
  have follow : ∀ before (label : Selection) after seen, Agree seen before → True →
      (selections address).step before label = some after → Followed address seen after := by
    intro before label after seen shows _ taken
    cases label with
    | compensate connected => exact Option.some.inj taken ▸ compensate_followed shows connected
    | runner pipe last n => exact runner_followed shows taken
    | single pIdx last m => exact single_followed shows taken
  exact all.follows (selections address) follow unattached.agree reached

end Runs

end VisionServer.Server.Matrices
