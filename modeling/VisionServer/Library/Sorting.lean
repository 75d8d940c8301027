/-
This file gives what a sort by an unspecified algorithm returns.
-/

import Mathlib.Data.List.Sort
import Mathlib.Order.Basic

namespace VisionServer.Library

variable {Item : Type}

/-- Items that are not in order are interchangeable. -/
structure StrictWeak (less : Item → Item → Bool) : Prop where
  irreflexive : ∀ item, less item item = false
  transitive : ∀ first second third,
    less first second = true → less second third = true → less first third = true
  incomparable : ∀ first second third, less first second = false → less second first = false →
    less second third = false → less third second = false → less first third = false ∧ less third first = false

/-- Of a strict weak order, a sort gives some permutation without an item behind a greater one. -/
structure Sorts (sort : (Item → Item → Bool) → List Item → List Item) : Prop where
  perm : ∀ less items, StrictWeak less → (sort less items).Perm items
  sorted : ∀ less items, StrictWeak less →
    (sort less items).Pairwise fun first second => less second first = false

/-- The merge sort keeps the items that are not in order as they come. -/
def mergeBy (less : Item → Item → Bool) (items : List Item) : List Item :=
  items.mergeSort fun first second => !less second first

section Orders

variable {less : Item → Item → Bool}

theorem StrictWeak.asymmetric (weak : StrictWeak less) {first second : Item} (below : less first second = true) :
    less second first = false := by
  cases above : less second first with
  | false => rfl
  | true => exact absurd (weak.transitive _ _ _ below above) (by simp [weak.irreflexive])

/-- Not to be greater is transitive. -/
theorem StrictWeak.trans_not (weak : StrictWeak less) {first second third : Item}
    (lower : less second first = false) (upper : less third second = false) : less third first = false := by
  cases greater : less third first with
  | false => rfl
  | true =>
      have near : less first second = false := by
        cases below : less first second with
        | false => rfl
        | true => exact absurd (weak.transitive _ _ _ greater below) (by simp [upper])
      have far : less second third = false := by
        cases below : less second third with
        | false => rfl
        | true => exact absurd (weak.transitive _ _ _ below greater) (by simp [lower])
      exact greater.symm.trans (weak.incomparable _ _ _ near lower far upper).2

/-- The merge sort is one of the sorts. -/
theorem mergeBy_sorts : Sorts (@mergeBy Item) := by
  constructor
  · intro less items _
    exact List.mergeSort_perm _ _
  · intro less items weak
    have ordered := @List.pairwise_mergeSort Item (fun first second => !less second first)
      (fun first second third lower upper => by
        simp only [Bool.not_eq_true'] at lower upper ⊢
        exact weak.trans_not lower upper)
      (fun first second => by
        cases above : less second first with
        | false => rfl
        | true => simp [weak.asymmetric above]) items
    unfold mergeBy
    simpa using ordered

end Orders

section Keys

variable {Key : Type} [LinearOrder Key] {sort : (Item → Item → Bool) → List Item → List Item}

/-- An order of keys is a strict weak order of the items. -/
theorem strictWeak_of_key (key : Item → Key) : StrictWeak fun first second => decide (key first < key second) where
  irreflexive item := by simp
  transitive first second third := by
    simp only [decide_eq_true_eq]
    exact lt_trans
  incomparable first second third := by
    simp only [decide_eq_false_iff_not, not_lt]
    intro firstAbove firstBelow secondAbove secondBelow
    exact ⟨secondAbove.trans firstAbove, firstBelow.trans secondBelow⟩

variable {key : Item → Key} {items others : List Item}

/-- Distinct keys leave a sort no choice. -/
theorem Sorts.eq_of_sorted (sorts : Sorts sort) (distinct : Set.InjOn key {item | item ∈ items})
    (same : others.Perm items) (sorted : others.Pairwise fun first second => key first ≤ key second) :
    sort (fun first second => decide (key first < key second)) items = others := by
  have weak := strictWeak_of_key key
  have permuted := sorts.perm _ items weak
  have inOrder := sorts.sorted _ items weak
  simp only [decide_eq_false_iff_not, not_lt] at inOrder
  refine List.Perm.eq_of_pairwise ?_ inOrder sorted (permuted.trans same.symm)
  intro first second firstMember secondMember below above
  exact distinct (permuted.mem_iff.mp firstMember) (same.mem_iff.mp secondMember) (le_antisymm below above)

/-- The order in which the items come makes no difference. -/
theorem Sorts.eq_of_perm (sorts : Sorts sort) (distinct : Set.InjOn key {item | item ∈ items})
    (same : others.Perm items) :
    sort (fun first second => decide (key first < key second)) others =
      sort (fun first second => decide (key first < key second)) items := by
  have weak := strictWeak_of_key key
  have inOrder := sorts.sorted _ others weak
  simp only [decide_eq_false_iff_not, not_lt] at inOrder
  exact (sorts.eq_of_sorted distinct ((sorts.perm _ others weak).trans same) inOrder).symm

/-- Opposite keys give the opposite order. -/
theorem Sorts.reverse {opposite : Item → Key} (sorts : Sorts sort)
    (distinct : Set.InjOn key {item | item ∈ items})
    (flips : ∀ first second, opposite first < opposite second ↔ key second < key first) :
    sort (fun first second => decide (opposite first < opposite second)) items =
      (sort (fun first second => decide (key first < key second)) items).reverse := by
  have weak := strictWeak_of_key opposite
  have permuted := sorts.perm _ items weak
  have inOrder := sorts.sorted _ items weak
  simp only [flips, decide_eq_false_iff_not, not_lt] at inOrder permuted ⊢
  rw [sorts.eq_of_sorted distinct ((List.reverse_perm _).trans permuted) (List.pairwise_reverse.mpr inOrder),
    List.reverse_reverse]

end Keys

end VisionServer.Library
