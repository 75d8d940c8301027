/-
This file gives memories of bytes in which a range of addresses is overwritten.
-/

import VisionServer.Library.Span

namespace VisionServer.Library

variable {w : Nat}

/-- A range of memory takes the values at the distances from its base. -/
def overwritten (base : BitVec w) (bytes : Nat) (value : Nat → BitVec 8) (mem : BitVec w → BitVec 8) :
    BitVec w → BitVec 8 :=
  fun a => if a ∈ span base bytes then value (a - base).toNat else mem a

variable {base : BitVec w} {bytes : Nat} {value : Nat → BitVec 8} {mem : BitVec w → BitVec 8}

/-- The distance of an address behind the base is its offset. -/
theorem toNat_add_ofNat_sub (base : BitVec w) {q : Nat} (small : q < 2 ^ w) :
    (base + BitVec.ofNat w q - base).toNat = q := by
  rw [BitVec.add_comm, BitVec.add_sub_cancel, BitVec.toNat_ofNat, Nat.mod_eq_of_lt small]

theorem overwritten_of_notMem {a : BitVec w} (outside : a ∉ span base bytes) :
    overwritten base bytes value mem a = mem a := if_neg outside

theorem overwritten_add {q : Nat} (inside : q < bytes) (small : q < 2 ^ w) :
    overwritten base bytes value mem (base + BitVec.ofNat w q) = value q := by
  rw [overwritten, if_pos ((add_mem_span base small).mpr inside), toNat_add_ofNat_sub base small]

theorem overwritten_zero (base : BitVec w) (value : Nat → BitVec 8) (mem : BitVec w → BitVec 8) :
    overwritten base 0 value mem = mem := by
  funext a
  exact overwritten_of_notMem (Nat.not_lt_zero _)

/-- Only the values inside the range matter. -/
theorem overwritten_congr {other : Nat → BitVec 8} (same : ∀ q < bytes, value q = other q) :
    overwritten base bytes value mem = overwritten base bytes other mem := by
  funext a
  by_cases inside : a ∈ span base bytes
  · rw [overwritten, overwritten, if_pos inside, if_pos inside]
    exact same _ inside
  · rw [overwritten_of_notMem inside, overwritten_of_notMem inside]

/-- A range that is overwritten behind another one extends it. -/
theorem overwritten_append {more : Nat} {next : Nat → BitVec 8} (fits : bytes + more ≤ 2 ^ w)
    (same : ∀ q < more, next q = value (bytes + q)) :
    overwritten (base + BitVec.ofNat w bytes) more next (overwritten base bytes value mem) =
      overwritten base (bytes + more) value mem := by
  funext a
  by_cases later : a ∈ span (base + BitVec.ofNat w bytes) more
  · obtain ⟨q, below, rfl⟩ := exists_of_mem_span later
    rw [overwritten_add below (by omega), BitVec.add_assoc, ← BitVec.ofNat_add,
      overwritten_add (Nat.add_lt_add_left below bytes) (by omega)]
    exact same q below
  · rw [overwritten_of_notMem later]
    by_cases inside : a ∈ span base bytes
    · rw [overwritten, if_pos inside, overwritten, if_pos (span_mono (Nat.le_add_right _ _) inside)]
    · rw [overwritten_of_notMem inside, overwritten_of_notMem]
      rw [span_append]
      exact not_or.mpr ⟨inside, later⟩

end VisionServer.Library
