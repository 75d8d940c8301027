/-
This file gives tables as lists of pairs that are searched for a key.
-/

import Mathlib.Data.List.Nodup

namespace VisionServer.Library

variable {Key Value : Type} [DecidableEq Key]

/-- Each key occurs at most once. -/
def DistinctKeys (entries : List (Key × Value)) : Prop := (entries.map Prod.fst).Nodup

instance (entries : List (Key × Value)) : Decidable (DistinctKeys entries) :=
  inferInstanceAs (Decidable (List.Nodup _))

/-- The value of the first pair with the key is what a lookup finds. -/
theorem find?_map_eq_lookup (key : Key) (entries : List (Key × Value)) :
    (entries.find? fun entry => entry.1 == key).map Prod.snd = entries.lookup key := by
  induction entries with
  | nil => rfl
  | cons entry rest ih =>
      rw [List.find?_cons, List.lookup_cons, BEq.comm]
      cases key == entry.1 with
      | true => rfl
      | false => exact ih

/-- A lookup finds the first pair of its key. -/
theorem lookup_mem {key : Key} {entries : List (Key × Value)} {value : Value}
    (found : entries.lookup key = some value) : (key, value) ∈ entries := by
  obtain ⟨before, after, rfl, _⟩ := List.lookup_eq_some_iff.mp found
  exact List.mem_append_right _ List.mem_cons_self

theorem exists_lookup_of_mem {key : Key} {entries : List (Key × Value)} {value : Value}
    (member : (key, value) ∈ entries) : ∃ other, entries.lookup key = some other :=
  Option.isSome_iff_exists.mp (List.lookup_isSome_iff.mpr ⟨_, member, beq_self_eq_true key⟩)

/-- With distinct keys each pair is found. -/
theorem lookup_eq_some_iff_mem {key : Key} {entries : List (Key × Value)} (distinct : DistinctKeys entries)
    {value : Value} : entries.lookup key = some value ↔ (key, value) ∈ entries := by
  refine ⟨lookup_mem, fun member => ?_⟩
  obtain ⟨other, found⟩ := exists_lookup_of_mem member
  have pairs := List.inj_on_of_nodup_map distinct (lookup_mem found) member rfl
  rw [found, (Prod.mk.inj pairs).2]

/-- The order of distinct keys does not matter. -/
theorem lookup_perm {key : Key} {first second : List (Key × Value)} (distinct : DistinctKeys first)
    (same : second.Perm first) : second.lookup key = first.lookup key := by
  have other : DistinctKeys second := (same.map Prod.fst).nodup_iff.mpr distinct
  apply Option.ext
  intro value
  rw [lookup_eq_some_iff_mem distinct, lookup_eq_some_iff_mem other, same.mem_iff]

end VisionServer.Library
