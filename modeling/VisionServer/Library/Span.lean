/-
This file gives the address ranges of a machine word and decides when two of them are equal.
-/

import Mathlib.Data.BitVec
import Mathlib.Data.Set.Lattice
import Mathlib.Order.CompletePartialOrder

namespace VisionServer.Library

variable {w : Nat}

/-- A range of addresses starts at its base and wraps at the end of the address space. -/
def span (base : BitVec w) (length : Nat) : Set (BitVec w) := {a | (a - base).toNat < length}

theorem mem_span {base a : BitVec w} {length : Nat} :
    a ∈ span base length ↔ (a - base).toNat < length := Iff.rfl

instance (base a : BitVec w) (length : Nat) : Decidable (a ∈ span base length) :=
  inferInstanceAs (Decidable ((a - base).toNat < length))

@[simp] theorem span_zero (base : BitVec w) : span base 0 = ∅ := by
  ext a
  simp [mem_span]

theorem base_mem_span (base : BitVec w) {length : Nat} (positive : 0 < length) :
    base ∈ span base length := by
  rw [mem_span, BitVec.sub_self]
  exact positive

/-- An offset below the size of the address space is its own distance. -/
theorem add_mem_span (base : BitVec w) {offset length : Nat} (small : offset < 2 ^ w) :
    base + BitVec.ofNat w offset ∈ span base length ↔ offset < length := by
  rw [mem_span, BitVec.add_comm, BitVec.add_sub_cancel, BitVec.toNat_ofNat, Nat.mod_eq_of_lt small]

theorem span_mono {base : BitVec w} {short long : Nat} (shorter : short ≤ long) :
    span base short ⊆ span base long := fun _ inside => Nat.lt_of_lt_of_le inside shorter

/-- Two consecutive ranges are one range. -/
theorem span_append (base : BitVec w) (first second : Nat) :
    span base (first + second) = span base first ∪ span (base + BitVec.ofNat w first) second := by
  ext a
  rw [Set.mem_union, mem_span, mem_span, mem_span]
  have bound := (a - base).isLt
  have later : (a - (base + BitVec.ofNat w first)).toNat =
      (2 ^ w - first % 2 ^ w + (a - base).toNat) % 2 ^ w := by
    rw [← sub_sub, BitVec.toNat_sub, BitVec.toNat_ofNat]
  rw [later]
  generalize (a - base).toNat = distance at bound
  by_cases inside : distance < first
  · exact ⟨fun _ => Or.inl inside, fun _ => by omega⟩
  · have small : first % 2 ^ w = first := Nat.mod_eq_of_lt (by omega)
    have wrapped : (2 ^ w - first % 2 ^ w + distance) % 2 ^ w = distance - first := by
      rw [small, show 2 ^ w - first + distance = (distance - first) + 2 ^ w by omega,
        Nat.add_mod_right, Nat.mod_eq_of_lt (by omega)]
    rw [wrapped]
    omega

/-- A later part of a range is inside it. -/
theorem span_add_subset (base : BitVec w) (first second : Nat) :
    span (base + BitVec.ofNat w first) second ⊆ span base (first + second) := by
  rw [span_append]
  exact Set.subset_union_right

/-- A range of whole blocks is the union of its blocks. -/
theorem mem_span_blocks {base a : BitVec w} {block count : Nat} :
    a ∈ span base (count * block) ↔
      ∃ i < count, a ∈ span (base + BitVec.ofNat w (i * block)) block := by
  induction count with
  | zero => simp
  | succ count ih =>
      rw [Nat.succ_mul, span_append, Set.mem_union, ih]
      constructor
      · intro given
        rcases given with ⟨i, inside, here⟩ | here
        · exact ⟨i, by omega, here⟩
        · exact ⟨count, by omega, here⟩
      · intro given
        obtain ⟨i, inside, here⟩ := given
        by_cases last : i = count
        · subst last
          exact Or.inr here
        · exact Or.inl ⟨i, by omega, here⟩

/-- A range that does not fill the address space determines its length. -/
theorem span_eq_iff {base : BitVec w} {length other : Nat} (small : length < 2 ^ w) :
    span base other = span base length ↔ other = length := by
  constructor
  · intro same
    rcases Nat.lt_trichotomy other length with less | equal | more
    · have inside := (add_mem_span base (by omega : other < 2 ^ w)).mpr less
      rw [← same, add_mem_span base (by omega)] at inside
      omega
    · exact equal
    · have inside := (add_mem_span base small).mpr more
      rw [same, add_mem_span base small] at inside
      omega
  · rintro rfl
    rfl

/-- Disjoint ranges fit into the address space together. -/
theorem add_le_of_disjoint {base other : BitVec w} {length more : Nat}
    (apart : Disjoint (span base length) (span other more)) (first : 0 < length) (second : 0 < more) :
    length + more ≤ 2 ^ w := by
  have outside := Set.disjoint_left.mp apart
  have here : ¬ (base - other).toNat < more := outside (base_mem_span base first)
  have there : ¬ (other - base).toNat < length := fun inside =>
    outside inside (base_mem_span other second)
  have opposite : (other - base).toNat = (2 ^ w - (base - other).toNat) % 2 ^ w := by
    rw [← neg_sub base other, BitVec.toNat_neg]
  rw [opposite] at there
  have bound := (base - other).isLt
  have reduced := Nat.mod_le (2 ^ w - (base - other).toNat) (2 ^ w)
  omega

/-- Ranges whose bases are far from each other in both directions are disjoint. -/
theorem disjoint_of_far {base other : BitVec w} {length more : Nat} (before : more ≤ (base - other).toNat)
    (after : length ≤ (other - base).toNat) : Disjoint (span base length) (span other more) := by
  rw [Set.disjoint_left]
  intro a first second
  rw [mem_span] at first second
  have opposite : (other - base).toNat = (2 ^ w - (base - other).toNat) % 2 ^ w := by
    rw [← neg_sub base other, BitVec.toNat_neg]
  have reduced := Nat.mod_le (2 ^ w - (base - other).toNat) (2 ^ w)
  have through : (a - other).toNat = ((a - base).toNat + (base - other).toNat) % 2 ^ w := by
    rw [← sub_add_sub_cancel a base other, BitVec.toNat_add]
  rw [through, Nat.mod_eq_of_lt (by omega)] at second
  omega

/-- An offset before the start of a later range leads to an address outside it. -/
theorem add_notMem_of_before (base : BitVec w) {offset start length : Nat} (before : offset < start)
    (fits : start + length ≤ 2 ^ w) :
    base + BitVec.ofNat w offset ∉ span (base + BitVec.ofNat w start) length := by
  intro given
  rw [mem_span, add_sub_add_left_eq_sub, BitVec.toNat_sub, BitVec.toNat_ofNat, BitVec.toNat_ofNat,
    Nat.mod_eq_of_lt (a := start) (by omega), Nat.mod_eq_of_lt (a := offset) (by omega),
    Nat.mod_eq_of_lt (by omega)] at given
  omega

/-- An offset behind the end of an earlier range leads to an address outside it. -/
theorem add_notMem_of_behind (base : BitVec w) {offset start length : Nat} (behind : start + length ≤ offset)
    (small : offset < 2 ^ w) :
    base + BitVec.ofNat w offset ∉ span (base + BitVec.ofNat w start) length := by
  intro given
  have distance : 2 ^ w - start + offset = offset - start + 2 ^ w := by omega
  rw [mem_span, add_sub_add_left_eq_sub, BitVec.toNat_sub, BitVec.toNat_ofNat, BitVec.toNat_ofNat,
    Nat.mod_eq_of_lt (a := start) (by omega), Nat.mod_eq_of_lt (a := offset) small, distance,
    Nat.add_mod_right, Nat.mod_eq_of_lt (by omega)] at given
  omega

/-- An offset inside a range leads to its address. -/
theorem add_mem_of_lt (base : BitVec w) {offset length : Nat} (inside : offset < length) :
    base + BitVec.ofNat w offset ∈ span base length := by
  rw [mem_span, BitVec.add_comm, BitVec.add_sub_cancel, BitVec.toNat_ofNat]
  exact Nat.lt_of_le_of_lt (Nat.mod_le _ _) inside

/-- An address of a range is reached by an offset inside it. -/
theorem exists_of_mem_span {base a : BitVec w} {length : Nat} (inside : a ∈ span base length) :
    ∃ offset < length, a = base + BitVec.ofNat w offset := by
  refine ⟨(a - base).toNat, inside, ?_⟩
  rw [BitVec.ofNat_toNat, BitVec.setWidth_eq, add_sub_cancel]

/-- An address of a range without its predecessor is the base of the range. -/
theorem eq_base_of_pred_notMem {base a : BitVec w} {length : Nat} (inside : a ∈ span base length)
    (outside : a - 1 ∉ span base length) : a = base := by
  rw [mem_span] at inside outside
  by_contra different
  apply outside
  have one_lt : 1 < 2 ^ w := by
    rcases Nat.eq_zero_or_pos w with rfl | wide
    · exact absurd (Subsingleton.elim a base) different
    · exact Nat.one_lt_two_pow (by omega)
  have apart : (a - base).toNat ≠ 0 := by
    intro zero
    have none := BitVec.eq_of_toNat_eq (x := a - base) (y := 0#w) (by rw [zero]; simp)
    exact different (sub_eq_zero.mp none)
  have bound := (a - base).isLt
  have before : (a - 1 - base).toNat = (a - base).toNat - 1 := by
    rw [sub_right_comm, BitVec.toNat_sub, BitVec.ofNat_eq_ofNat, BitVec.toNat_ofNat,
      Nat.mod_eq_of_lt one_lt, show 2 ^ w - 1 + (a - base).toNat =
        ((a - base).toNat - 1) + 2 ^ w by omega, Nat.add_mod_right, Nat.mod_eq_of_lt (by omega)]
  rw [before]
  omega

end VisionServer.Library
