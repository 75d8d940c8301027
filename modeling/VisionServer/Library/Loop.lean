/-
This file gives loops over the indices below a bound and their rules.
-/

import Mathlib.Data.List.FinRange
import Mathlib.Data.List.Forall2

namespace VisionServer.Library

variable {State : Type}

/-- The body runs once for each index below the bound, in order. -/
def forUp (body : Nat → State → State) : Nat → State → State
  | 0, state => state
  | index + 1, state => body index (forUp body index state)

/-- A loop invariant speaks about the number of passes that are done. -/
theorem forUp_rule {body : Nat → State → State} (invariant : Nat → State → Prop) {bound : Nat}
    {state : State} (start : invariant 0 state)
    (preserve : ∀ index current, index < bound → invariant index current →
      invariant (index + 1) (body index current)) :
    invariant bound (forUp body bound state) := by
  induction bound with
  | zero => exact start
  | succ index ih =>
      have before := ih fun earlier current below => preserve earlier current (by omega)
      exact preserve index _ (Nat.lt_succ_self index) before

/-- The passes below a bound have changed the elements below it. -/
theorem foldl_modify_getElem? {Item : Type} (change : Item → Item) (items : List Item)
    (bound position : Nat) :
    ((List.range bound).foldl (fun items index => items.modify index change) items)[position]? =
      (items[position]?).map fun item => if position < bound then change item else item := by
  induction bound with
  | zero => simp
  | succ bound ih =>
      rw [List.range_succ, List.foldl_append, List.foldl_cons, List.foldl_nil, List.getElem?_modify, ih]
      cases items[position]? with
      | none => rfl
      | some item =>
          simp only [Option.map_eq_map, Option.map_some, Option.some.injEq]
          by_cases last : bound = position
          · rw [if_pos last, if_neg (by omega), if_pos (by omega)]
          · rw [if_neg last]
            have same : position < bound ↔ position < bound + 1 := by omega
            simp only [same]

/-- A loop that changes one element in each pass maps the change over the list. -/
theorem foldl_modify_eq_map {Item : Type} (change : Item → Item) (items : List Item) :
    (List.range items.length).foldl (fun items index => items.modify index change) items =
      items.map change := by
  apply List.ext_getElem?
  intro position
  rw [foldl_modify_getElem?, List.getElem?_map]
  cases found : items[position]? with
  | none => rfl
  | some item => rw [Option.map_some, Option.map_some, if_pos (List.getElem?_eq_some_iff.mp found).1]

section Partial

variable {Item Result : Type}

/-- A loop that appends an element in each pass ends with the elements that its passes make. -/
theorem foldlM_append_eq_some_iff {pass : Item → Option Result} {items : List Item} {init ret : List Result} :
    items.foldlM (fun ret item => do return ret ++ [← pass item]) init = some ret ↔
      ∃ tail, ret = init ++ tail ∧ List.Forall₂ (fun item element => pass item = some element) items tail := by
  induction items generalizing init with
  | nil => simp [eq_comm]
  | cons item items ih =>
      rw [List.foldlM_cons]
      cases made : pass item with
      | none =>
          refine iff_of_false (fun done => nomatch done) ?_
          rintro ⟨tail, -, _ | ⟨first, -⟩⟩
          exact nomatch made.symm.trans first
      | some element =>
          refine ih.trans ?_
          constructor
          · rintro ⟨tail, rfl, others⟩
            exact ⟨element :: tail, List.append_assoc _ _ _, List.Forall₂.cons made others⟩
          · rintro ⟨tail, rfl, _ | ⟨first, others⟩⟩
            obtain rfl := Option.some.inj (made.symm.trans first)
            exact ⟨_, List.append_cons _ _ _, others⟩

/-- A loop that replaces each element ends with the elements that its passes make. -/
theorem mapM_eq_some_iff {pass : Item → Option Result} {items : List Item} {ret : List Result} :
    items.mapM pass = some ret ↔ List.Forall₂ (fun item element => pass item = some element) items ret := by
  induction items generalizing ret with
  | nil => simp [eq_comm]
  | cons item items ih =>
      rw [List.mapM_cons, List.forall₂_cons_left_iff]
      simp only [Option.bind_eq_bind, Option.bind_eq_some_iff, Option.pure_def, Option.some.injEq, ih]
      constructor
      · intro ⟨element, made, others, rest, same⟩
        exact ⟨element, others, made, rest, same.symm⟩
      · intro ⟨element, others, made, rest, same⟩
        exact ⟨element, made, others, rest, same.symm⟩

/-- A loop changes no element if and only if each pass makes the same element again. -/
theorem mapM_eq_self_iff {pass : Item → Option Item} {items : List Item} :
    items.mapM pass = some items ↔ ∀ item ∈ items, pass item = some item := by
  rw [mapM_eq_some_iff, List.forall₂_same]

/-- A loop relates the elements to new ones if and only if each pass does. -/
theorem exists_mapM_iff {pass : Item → Option Result} {related : Item → Result → Prop} {items : List Item} :
    (∃ ret, items.mapM pass = some ret ∧ List.Forall₂ related items ret) ↔
      ∀ item ∈ items, ∃ element, pass item = some element ∧ related item element := by
  induction items with
  | nil => simp
  | cons item items ih =>
      rw [List.forall_mem_cons, ← ih, List.mapM_cons]
      constructor
      · intro ⟨ret, done, each⟩
        obtain ⟨element, made, rest⟩ := Option.bind_eq_some_iff.mp done
        obtain ⟨others, passed, same⟩ := Option.bind_eq_some_iff.mp rest
        cases same
        obtain ⟨first, following⟩ := List.forall₂_cons.mp each
        exact ⟨⟨element, made, first⟩, others, passed, following⟩
      · intro ⟨⟨element, made, first⟩, others, passed, following⟩
        refine ⟨element :: others, ?_, List.Forall₂.cons first following⟩
        rw [made, passed]
        rfl

/-- Two such loops one after the other are one loop with both passes. -/
theorem mapM_bind_mapM {Middle : Type} {first : Item → Option Middle} {second : Middle → Option Result}
    {items : List Item} : (items.mapM first).bind (fun middle => middle.mapM second) =
      items.mapM fun item => (first item).bind second := by
  induction items with
  | nil => rfl
  | cons item items ih =>
      rw [List.mapM_cons, List.mapM_cons, ← ih]
      cases first item with
      | none => rfl
      | some middle =>
          cases items.mapM first with
          | none => cases made : second middle <;> simp [made]
          | some others => simp

/-- A loop that writes an element in each pass ends with the elements that its passes make. -/
theorem foldlM_set_eq_some_iff {size : Nat} {pass : Fin size → Option Result} {indices : List (Fin size)}
    {init ret : Vector Result size} :
    indices.foldlM (fun ret i => do return ret.set i (← pass i)) init = some ret ↔
      (∀ i ∈ indices, pass i = some ret[i]) ∧ ∀ i ∉ indices, ret[i] = init[i] := by
  induction indices generalizing init with
  | nil =>
      have same : ret = init ↔ ∀ i : Fin size, ret[i] = init[i] :=
        ⟨fun same _ => same ▸ rfl, fun each => Vector.ext fun i inside => each ⟨i, inside⟩⟩
      simpa [eq_comm (a := init)] using same
  | cons index indices ih =>
      rw [List.foldlM_cons, List.forall_mem_cons]
      cases made : pass index with
      | none => exact iff_of_false (fun done => nomatch done) fun given => nomatch given.1.1
      | some element =>
          refine ih.trans ?_
          -- A later pass may write the element again, and then it writes the same one.
          constructor
          · rintro ⟨written, kept⟩
            refine ⟨⟨?_, written⟩, fun i other => ?_⟩
            · by_cases again : index ∈ indices
              · exact made.symm.trans (written index again)
              · rw [kept index again]
                simp
            · obtain ⟨different, others⟩ := List.ne_and_not_mem_of_not_mem_cons other
              rw [kept i others]
              exact Vector.getElem_set_ne _ _ fun same => different (Fin.ext same.symm)
          · rintro ⟨⟨first, written⟩, kept⟩
            refine ⟨written, fun i others => ?_⟩
            by_cases same : i = index
            · rw [same]
              simpa using (Option.some.inj first).symm
            · rw [kept i (List.not_mem_cons_of_ne_of_not_mem same others)]
              exact (Vector.getElem_set_ne _ _ fun equal => same (Fin.ext equal.symm)).symm

end Partial

end VisionServer.Library
