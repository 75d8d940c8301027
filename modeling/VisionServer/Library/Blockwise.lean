/-
This file gives the memory that a loop leaves when each of its turns stores one block of bytes.
-/

import VisionServer.Library.Streaming

namespace VisionServer.Library.Aarch64
open Assembly

/-- The bytes before a turn are read at distances from the base registers. -/
abbrev Reads := Fin 31 → Nat → Byte

section Fronts

/-- An instruction without a store keeps the memory. -/
theorem exec_mem_eq {op : Op} (reads : ∀ a, op.access = some a → a.direction = .load) (s : Cpu) :
    (s.exec op).mem = s.mem := by
  cases op with
  | str | st3 | st1Lane => cases reads _ rfl
  | lsr width => cases width <;> rfl
  | dup arrangement => cases arrangement <;> rfl
  | subs | cmp | ldr | ld3 | ld3Lane | clz | neg | ushrImm | uqshlImm | cmhi | and | orr | ushl | uqshl
  | uqadd | uqsub => rfl

/-- Code without a store keeps the memory. -/
theorem block_mem {ops : List Op} (reads : ∀ t ∈ touches ops, t.direction = .load) (s : Cpu) :
    (execAll isa ops s).mem = s.mem := by
  induction ops generalizing s with
  | nil => rfl
  | cons op rest ih =>
      have here : (s.exec op).mem = s.mem := by
        apply exec_mem_eq
        intro a accesses
        simp only [touches, accesses] at reads
        exact reads _ List.mem_cons_self
      refine (ih ?_ (s.exec op)).trans here
      intro t member
      cases accesses : op.access with
      | none =>
          simp only [touches, accesses] at reads
          exact reads t member
      | some a =>
          simp only [touches, accesses] at reads
          rw [← after_direction a t]
          exact reads _ (List.mem_cons_of_mem _ (List.mem_map_of_mem member))

variable {ops front : List Op} {t : Fin 32} {d : Fin 31} {post offset : Nat} {value : Nat → Byte}

/-- A final store of one register leaves its lanes in order. -/
theorem mem_of_str (text : ops = front ++ [.str t d post]) (vector : front.all Op.isVector)
    (reads : ∀ t ∈ touches front, t.direction = .load) (place : advance d front = offset) (s : Cpu)
    (lanes : ∀ i : Fin 16, (execAll isa front s).v t i = value i) :
    (execAll isa ops s).mem = overwritten (s.x d + BitVec.ofNat 64 offset) 16 value s.mem := by
  have split : execAll isa ops s = (execAll isa front s).exec (.str t d post) := by
    rw [text]
    exact List.foldl_append
  rw [split, ← place, ← block_x vector s d, ← block_mem reads s]
  change overwritten ((execAll isa front s).x d) 16 (fun q => (execAll isa front s).v t (.ofNat 16 q)) _ = _
  apply overwritten_congr
  intro q inside
  rw [lanes, Fin.val_ofNat, Nat.mod_eq_of_lt inside]

/-- A final store of three registers leaves the channels of one lane after the other. -/
theorem mem_of_st3 (text : ops = front ++ [.st3 0 d post]) (vector : front.all Op.isVector)
    (reads : ∀ t ∈ touches front, t.direction = .load) (place : advance d front = offset) (s : Cpu)
    (first : ∀ i : Fin 16, (execAll isa front s).v 0 i = value (3 * i))
    (second : ∀ i : Fin 16, (execAll isa front s).v 1 i = value (3 * i + 1))
    (third : ∀ i : Fin 16, (execAll isa front s).v 2 i = value (3 * i + 2)) :
    (execAll isa ops s).mem = overwritten (s.x d + BitVec.ofNat 64 offset) 48 value s.mem := by
  have split : execAll isa ops s = (execAll isa front s).exec (.st3 0 d post) := by
    rw [text]
    exact List.foldl_append
  rw [split, ← place, ← block_x vector s d, ← block_mem reads s]
  change overwritten ((execAll isa front s).x d) 48
    (fun q => (execAll isa front s).v (0 + .ofNat 32 (q % 3)) (.ofNat 16 (q / 3))) _ = _
  apply overwritten_congr
  intro q inside
  have lane : (Fin.ofNat 16 (q / 3)).val = q / 3 := Nat.mod_eq_of_lt (by omega)
  have parts : q % 3 = 0 ∨ q % 3 = 1 ∨ q % 3 = 2 := by omega
  rcases parts with channel | channel | channel
  · rw [channel]
    refine (first _).trans ?_
    rw [lane, show 3 * (q / 3) = q by omega]
  · rw [channel]
    refine (second _).trans ?_
    rw [lane, show 3 * (q / 3) + 1 = q by omega]
  · rw [channel]
    refine (third _).trans ?_
    rw [lane, show 3 * (q / 3) + 2 = q by omega]

end Fronts

/-- Straight code keeps its constants and stores one block that it computes from the bytes that it
loads. -/
structure Stores (ops : List Op) (keeps : (Fin 32 → Lanes) → Prop) (d : Fin 31) (offset bytes : Nat)
    (value : Reads → Nat → Byte) : Prop where
  kept : ∀ s : Cpu, keeps s.v → keeps (execAll isa ops s).v
  mem : ∀ s : Cpu, keeps s.v → (execAll isa ops s).mem =
    overwritten (s.x d + BitVec.ofNat 64 offset) bytes (value s.byteAt) s.mem
  loads : ∀ f g : Reads, (∀ t ∈ touches ops, t.direction = .load → ∀ j < t.bytes,
    f t.n (t.offset + j) = g t.n (t.offset + j)) → ∀ q < bytes, value f q = value g q

/-- Two readings that agree on the loads agree on the bytes of each. -/
theorem same_of_load {ops : List Op} {f g : Reads} {r : Fin 31} {bytes : Nat}
    (same : ∀ t ∈ touches ops, t.direction = .load → ∀ j < t.bytes,
      f t.n (t.offset + j) = g t.n (t.offset + j))
    (member : ⟨.load, r, 0, bytes⟩ ∈ touches ops) {j : Nat} (inside : j < bytes) : f r j = g r j := by
  have found := same _ member rfl j inside
  rw [Nat.zero_add] at found
  exact found

/-- The bytes that a later turn finds at its base registers. -/
def Cpu.ahead (s : Cpu) (ops : List Op) (k : Nat) : Reads := fun r j => s.byteAt r (k * advance r ops + j)

/-- The memory after a number of turns whose blocks are computed from the first state. -/
def filled (ops : List Op) (d : Fin 31) (offset bytes : Nat) (value : Reads → Nat → Byte) (s : Cpu) :
    Nat → Word → Byte
  | 0 => s.mem
  | k + 1 => overwritten (s.x d + BitVec.ofNat 64 (k * advance d ops + offset)) bytes
      (value (s.ahead ops k)) (filled ops d offset bytes value s k)

/-- The loads of a turn find the bytes of the first state. -/
def Undisturbed (ops : List Op) (d : Fin 31) (offset bytes : Nat) (value : Reads → Nat → Byte) (s : Cpu)
    (k : Nat) : Prop :=
  ∀ t ∈ touches ops, t.direction = .load → ∀ j < t.bytes,
    filled ops d offset bytes value s k (s.x t.n + BitVec.ofNat 64 (k * advance t.n ops + (t.offset + j))) =
      s.mem (s.x t.n + BitVec.ofNat 64 (k * advance t.n ops + (t.offset + j)))

section Turns

variable {ops : List Op} {keeps : (Fin 32 → Lanes) → Prop} {d counter : Fin 31}
  {offset bytes step n : Nat} {value : Reads → Nat → Byte} {s : Cpu}

/-- The constants are kept over all turns. -/
theorem Stores.keeps_iterate (stores : Stores ops keeps d offset bytes value) (kept : keeps s.v) (n : Nat) :
    keeps ((execAll isa (ops ++ [.subs counter counter step]))^[n] s).v := by
  induction n with
  | zero => exact kept
  | succ n ih =>
      have split (t : Cpu) : execAll isa (ops ++ [.subs counter counter step]) t =
          (execAll isa ops t).exec (.subs counter counter step) := List.foldl_append
      rw [Function.iterate_succ_apply', split]
      exact stores.kept _ ih

/-- A further turn stores one block that it computes from the memory that it finds. -/
theorem Stores.mem_turn (stores : Stores ops keeps d offset bytes value) (apart : d ≠ counter) {t : Cpu}
    (walked : Walked ops counter step n s t) (kept : keeps t.v) :
    (execAll isa (ops ++ [.subs counter counter step]) t).mem =
      overwritten (s.x d + BitVec.ofNat 64 (n * advance d ops + offset)) bytes (value t.byteAt) t.mem := by
  have split : execAll isa (ops ++ [.subs counter counter step]) t =
      (execAll isa ops t).exec (.subs counter counter step) := List.foldl_append
  rw [split]
  change (execAll isa ops t).mem = _
  rw [stores.mem t kept, walked.pointers d apart, BitVec.ofNat_add, BitVec.add_assoc]

/-- A turn whose loads find the bytes of the first state fills the next block. -/
theorem Stores.turn_filled (stores : Stores ops keeps d offset bytes value) (turn : Turn counter step ops)
    (apart : d ≠ counter) {t : Cpu} (walked : Walked ops counter step n s t) (kept : keeps t.v)
    (same : t.mem = filled ops d offset bytes value s n)
    (undisturbed : Undisturbed ops d offset bytes value s n) :
    (execAll isa (ops ++ [.subs counter counter step]) t).mem =
      filled ops d offset bytes value s (n + 1) := by
  rw [stores.mem_turn apart walked kept, same, filled]
  apply overwritten_congr
  apply stores.loads
  intro access member toward j inside
  have found := undisturbed access member toward j inside
  rw [Cpu.byteAt, walked.pointers access.n (turn.apart access member), BitVec.add_assoc,
    ← BitVec.ofNat_add, same]
  exact found

/-- Turns whose loads find the bytes of the first state fill the memory block by block. -/
theorem Stores.mem_iterate (stores : Stores ops keeps d offset bytes value) (turn : Turn counter step ops)
    (apart : d ≠ counter) (kept : keeps s.v)
    (undisturbed : ∀ k < n, Undisturbed ops d offset bytes value s k) :
    ((execAll isa (ops ++ [.subs counter counter step]))^[n] s).mem =
      filled ops d offset bytes value s n := by
  induction n with
  | zero => rfl
  | succ n ih =>
      rw [Function.iterate_succ_apply']
      exact stores.turn_filled turn apart (walked_iterate turn n s) (stores.keeps_iterate kept n)
        (ih fun k below => undisturbed k (by omega)) (undisturbed n (Nat.lt_succ_self n))

/-- Later turns keep the bytes outside their blocks. -/
theorem Stores.iterate_frame (stores : Stores ops keeps d offset bytes value) (turn : Turn counter step ops)
    (apart : d ≠ counter) (kept : keeps s.v) {first : Nat} (later : first ≤ n) {a : Word}
    (outside : ∀ k < n, first ≤ k →
      a ∉ span (s.x d + BitVec.ofNat 64 (k * advance d ops + offset)) bytes) :
    ((execAll isa (ops ++ [.subs counter counter step]))^[n] s).mem a =
      ((execAll isa (ops ++ [.subs counter counter step]))^[first] s).mem a := by
  induction n, later using Nat.le_induction with
  | base => rfl
  | succ n later ih =>
      rw [Function.iterate_succ_apply',
        stores.mem_turn apart (walked_iterate turn n s) (stores.keeps_iterate kept n),
        overwritten_of_notMem (outside n (Nat.lt_succ_self n) later)]
      exact ih fun k below => outside k (by omega)

/-- The turns of one pass over the memory keep the block that a turn computes from the memory that it
finds. -/
theorem Stores.iterate_block (stores : Stores ops keeps d offset bytes value) (turn : Turn counter step ops)
    (apart : d ≠ counter) (kept : keeps s.v) (room : offset + bytes ≤ advance d ops) {k q : Nat}
    (pass : n * advance d ops ≤ 2 ^ 64 + k * advance d ops) (inside : k < n) (below : q < bytes) :
    ((execAll isa (ops ++ [.subs counter counter step]))^[n] s).mem
        (s.x d + BitVec.ofNat 64 (k * advance d ops + offset + q)) =
      value ((execAll isa (ops ++ [.subs counter counter step]))^[k] s).byteAt q := by
  have later : ∀ i < n, k + 1 ≤ i → s.x d + BitVec.ofNat 64 (k * advance d ops + offset + q) ∉
      span (s.x d + BitVec.ofNat 64 (i * advance d ops + offset)) bytes := by
    intro i last after
    have last : (i + 1) * advance d ops ≤ n * advance d ops := Nat.mul_le_mul_right _ last
    obtain ⟨more, rfl⟩ := Nat.exists_eq_add_of_le after
    have behind : advance d ops ≤ (1 + more) * advance d ops := Nat.le_mul_of_pos_left _ (by omega)
    rw [show k + 1 + more = k + (1 + more) by omega, Nat.add_mul, Nat.add_assoc, Nat.add_assoc,
      BitVec.ofNat_add, BitVec.ofNat_add (k * advance d ops), ← BitVec.add_assoc, ← BitVec.add_assoc]
    rw [show k + 1 + more + 1 = k + (1 + more) + 1 by omega, Nat.succ_mul, Nat.add_mul] at last
    exact add_notMem_of_before _ (by omega) (by omega)
  have small : advance d ops ≤ 2 ^ 64 := by
    have own : (k + 1) * advance d ops ≤ n * advance d ops := Nat.mul_le_mul_right _ inside
    rw [Nat.succ_mul] at own
    omega
  rw [stores.iterate_frame turn apart kept inside later, Function.iterate_succ_apply',
    stores.mem_turn apart (walked_iterate turn k s) (stores.keeps_iterate kept k),
    BitVec.ofNat_add (k * advance d ops + offset), ← BitVec.add_assoc, overwritten_add below (by omega)]

/-- Two loops that touch the same ranges and store the same bytes, whatever they load, leave the same memory
and the same accesses. -/
theorem Stores.iterate_alike {others : List Op} {bytesOf : Nat → Byte}
    (stores : Stores ops keeps d offset bytes fun _ => bytesOf)
    (again : Stores others keeps d offset bytes fun _ => bytesOf) (turn : Turn counter step ops)
    (other : Turn counter step others) (touched : touches others = touches ops)
    (moves : ∀ r, advance r others = advance r ops) (apart : d ≠ counter) {t : Cpu} (kept : keeps s.v)
    (keptAgain : keeps t.v) (base : s.x d = t.x d)
    (pointers : ∀ touch ∈ touches ops, s.x touch.n = t.x touch.n) (mem : s.mem = t.mem)
    (trace : s.trace = t.trace) (n : Nat) :
    ((execAll isa (ops ++ [.subs counter counter step]))^[n] s).mem =
        ((execAll isa (others ++ [.subs counter counter step]))^[n] t).mem ∧
      ((execAll isa (ops ++ [.subs counter counter step]))^[n] s).trace =
        ((execAll isa (others ++ [.subs counter counter step]))^[n] t).trace := by
  induction n with
  | zero => exact ⟨mem, trace⟩
  | succ n ih =>
      obtain ⟨sameMem, sameTrace⟩ := ih
      constructor
      · rw [Function.iterate_succ_apply', Function.iterate_succ_apply',
          stores.mem_turn apart (walked_iterate turn n s) (stores.keeps_iterate kept n),
          again.mem_turn apart (walked_iterate other n t) (again.keeps_iterate keptAgain n), base, moves,
          sameMem]
      · rw [iterate_trace turn, iterate_trace other, sameTrace, touched]
        congr 1
        apply List.map_congr_left
        intro touch member
        rw [Touch.event, Touch.event, pointers touch member, moves]

/-- An address outside the first blocks keeps its byte. -/
theorem filled_of_notMem {a : Word} (outside : ∀ k < n,
    a ∉ span (s.x d + BitVec.ofNat 64 (k * advance d ops + offset)) bytes) :
    filled ops d offset bytes value s n a = s.mem a := by
  induction n with
  | zero => rfl
  | succ n ih =>
      rw [filled, overwritten_of_notMem (outside n (Nat.lt_succ_self n))]
      exact ih fun k below => outside k (by omega)

/-- A block keeps its bytes when the later blocks are behind it. -/
theorem filled_block (room : offset + bytes ≤ advance d ops) (fits : n * advance d ops ≤ 2 ^ 64) {k q : Nat}
    (inside : k < n) (below : q < bytes) : filled ops d offset bytes value s n
      (s.x d + BitVec.ofNat 64 (k * advance d ops + offset + q)) = value (s.ahead ops k) q := by
  induction n with
  | zero => cases inside
  | succ n ih =>
      rw [Nat.succ_mul] at fits
      rcases Nat.lt_succ_iff_lt_or_eq.mp inside with earlier | rfl
      · have next : k * advance d ops + advance d ops ≤ n * advance d ops := by
          rw [← Nat.succ_mul]
          exact Nat.mul_le_mul_right _ earlier
        rw [filled, overwritten_of_notMem (add_notMem_of_before _ (by omega) (by omega))]
        exact ih (by omega) earlier
      · rw [filled, BitVec.ofNat_add (k * advance d ops + offset), ← BitVec.add_assoc]
        exact overwritten_add below (by omega)

end Turns

/-- The bytes that a later turn finds when the blocks before it are as wanted. -/
def Cpu.expecting (s : Cpu) (ops : List Op) (d : Fin 31) (bytes : Nat) (want : Nat → Byte) (k : Nat) : Reads :=
  fun r j => overwritten (s.x d) (k * bytes) want s.mem (s.x r + BitVec.ofNat 64 (k * advance r ops + j))

section Wanted

variable {ops : List Op} {keeps : (Fin 32 → Lanes) → Prop} {d counter : Fin 31} {bytes step n : Nat}
  {value : Reads → Nat → Byte} {s : Cpu} {want : Nat → Byte}

/-- A turn computes its block from the bytes that it finds. -/
theorem Stores.value_expecting (stores : Stores ops keeps d 0 bytes value) (turn : Turn counter step ops)
    {t : Cpu} (walked : Walked ops counter step n s t)
    (found : t.mem = overwritten (s.x d) (n * bytes) want s.mem) {q : Nat} (inside : q < bytes) :
    value t.byteAt q = value (s.expecting ops d bytes want n) q := by
  refine stores.loads _ _ (fun access member _ j _ => ?_) q inside
  rw [Cpu.byteAt, Cpu.expecting, walked.pointers access.n (turn.apart access member), found,
    BitVec.add_assoc, ← BitVec.ofNat_add]

/-- Turns that compute what is wanted leave what is wanted. -/
theorem Stores.mem_wanted (stores : Stores ops keeps d 0 bytes value) (turn : Turn counter step ops)
    (apart : d ≠ counter) (kept : keeps s.v) (stride : advance d ops = bytes) (fits : n * bytes ≤ 2 ^ 64)
    (computes : ∀ k < n, ∀ q < bytes, value (s.expecting ops d bytes want k) q = want (k * bytes + q)) :
    ((execAll isa (ops ++ [.subs counter counter step]))^[n] s).mem =
      overwritten (s.x d) (n * bytes) want s.mem := by
  induction n with
  | zero => rw [Nat.zero_mul, overwritten_zero, Function.iterate_zero, id]
  | succ n ih =>
      rw [Nat.succ_mul] at fits ⊢
      have found := ih (by omega) fun k below => computes k (by omega)
      have walked := walked_iterate turn n s
      rw [Function.iterate_succ_apply', stores.mem_turn apart walked (stores.keeps_iterate kept n), found,
        stride, Nat.add_zero]
      apply overwritten_append fits
      intro q inside
      rw [stores.value_expecting turn walked found inside]
      exact computes n (Nat.lt_succ_self n) q inside

/-- Turns without gaps leave what is wanted if and only if each of them computes its wanted block when the
blocks before it are as wanted. -/
theorem Stores.wanted_iff (stores : Stores ops keeps d 0 bytes value) (turn : Turn counter step ops)
    (apart : d ≠ counter) (kept : keeps s.v) (stride : advance d ops = bytes) (fits : n * bytes ≤ 2 ^ 64) :
    (∀ q < n * bytes, ((execAll isa (ops ++ [.subs counter counter step]))^[n] s).mem
        (s.x d + BitVec.ofNat 64 q) = want q) ↔
      ∀ k < n, ∀ q < bytes, value (s.expecting ops d bytes want k) q = want (k * bytes + q) := by
  have inRange {k : Nat} (inside : k < n) : k * bytes + bytes ≤ n * bytes := by
    rw [← Nat.succ_mul]
    exact Nat.mul_le_mul_right _ inside
  constructor
  · intro given
    -- the induction goes over the turns, since a turn loads what the turns before it have stored
    have go : ∀ m ≤ n, ∀ k < m, ∀ q < bytes,
        value (s.expecting ops d bytes want k) q = want (k * bytes + q) := by
      intro m
      induction m with
      | zero => exact fun _ k inside => absurd inside (Nat.not_lt_zero k)
      | succ m ih =>
          intro few k inside q below
          have earlier := ih (by omega)
          rcases Nat.lt_succ_iff_lt_or_eq.mp inside with before | rfl
          · exact earlier k before q below
          · have walked := walked_iterate turn k s
            have last := inRange few
            have found := stores.mem_wanted turn apart kept stride (by omega) earlier
            have block := stores.iterate_block turn apart kept (by omega) (by rw [stride]; omega) few below
            rw [stride, Nat.add_zero, given (k * bytes + q) (by omega)] at block
            rw [block]
            exact (stores.value_expecting turn walked found below).symm
    exact go n le_rfl
  · intro computes q inside
    rw [stores.mem_wanted turn apart kept stride fits computes]
    exact overwritten_add inside (by omega)

end Wanted

/-- Turns that store their blocks without gaps compute each byte from its distance alone. -/
structure Pixelwise (ops : List Op) (keeps : (Fin 32 → Lanes) → Prop) (d : Fin 31) (bytes : Nat)
    (value : Reads → Nat → Byte) : Prop extends Stores ops keeps d 0 bytes value where
  contiguous : ∀ t ∈ touches ops, t.offset = 0 ∧ t.bytes = advance t.n ops
  stride : advance d ops = bytes
  shift : ∀ (f : Reads) (k : Nat), ∀ q < bytes,
    value (fun r j => f r (k * advance r ops + j)) q = value f (k * bytes + q)

/-- Each range that the turns load is apart from the stored range, or it starts there with the same
stride. -/
def Placed (ops : List Op) (d : Fin 31) (bytes n : Nat) (x : Fin 31 → Word) : Prop :=
  ∀ t ∈ touches ops, t.direction = .load →
    Disjoint (span (x t.n) (n * t.bytes)) (span (x d) (n * bytes)) ∨ x t.n = x d ∧ t.bytes = bytes

/-- No turn loads from the blocks of the turns before it. -/
def Unread (ops : List Op) (d : Fin 31) (bytes n : Nat) (x : Fin 31 → Word) : Prop :=
  ∀ t ∈ touches ops, t.direction = .load → ∀ k < n,
    Disjoint (span (x t.n + BitVec.ofNat 64 (k * t.bytes)) t.bytes) (span (x d) (k * bytes))

/-- Placed ranges are loaded before they are stored. -/
theorem Placed.unread {ops : List Op} {d : Fin 31} {bytes n : Nat} {x : Fin 31 → Word}
    (placed : Placed ops d bytes n x) (fits : n * bytes ≤ 2 ^ 64) : Unread ops d bytes n x := by
  intro t member toward k inside
  have last (size : Nat) : k * size + size ≤ n * size := by
    rw [← Nat.succ_mul]
    exact Nat.mul_le_mul_right _ inside
  have stored := last bytes
  rcases placed t member toward with apart | ⟨here, stride⟩
  · exact Set.disjoint_of_subset ((span_add_subset _ _ _).trans (span_mono (last t.bytes)))
      (span_mono (by omega)) apart
  · rw [here, stride, Set.disjoint_left]
    intro a loaded earlier
    obtain ⟨offset, below, rfl⟩ := exists_of_mem_span earlier
    exact add_notMem_of_before _ below (by omega) loaded

namespace Pixelwise

variable {ops : List Op} {keeps : (Fin 32 → Lanes) → Prop} {d counter : Fin 31} {bytes step n : Nat}
  {value : Reads → Nat → Byte} {s : Cpu} (pixelwise : Pixelwise ops keeps d bytes value)
include pixelwise

/-- The blocks without gaps are one range. -/
theorem filled_eq (fits : n * bytes ≤ 2 ^ 64) :
    filled ops d 0 bytes value s n = overwritten (s.x d) (n * bytes) (value s.byteAt) s.mem := by
  induction n with
  | zero => rw [Nat.zero_mul, overwritten_zero, filled]
  | succ n ih =>
      rw [Nat.succ_mul] at fits ⊢
      rw [filled, ih (by omega), pixelwise.stride, Nat.add_zero]
      exact overwritten_append fits (pixelwise.shift s.byteAt n)

/-- A block is loaded before it is stored. -/
theorem undisturbed (fits : n * bytes ≤ 2 ^ 64) (unread : Unread ops d bytes n s.x) {k : Nat}
    (inside : k < n) : Undisturbed ops d 0 bytes value s k := by
  intro t member toward j below
  obtain ⟨start, whole⟩ := pixelwise.contiguous t member
  have earlier : k * bytes ≤ n * bytes := Nat.mul_le_mul_right _ (Nat.le_of_lt inside)
  rw [pixelwise.filled_eq (by omega), start, ← whole, Nat.zero_add]
  apply overwritten_of_notMem
  have loaded := add_mem_of_lt (s.x t.n + BitVec.ofNat 64 (k * t.bytes)) below
  rw [BitVec.add_assoc, ← BitVec.ofNat_add] at loaded
  exact Set.disjoint_left.mp (unread t member toward k inside) loaded

/-- The turns store one range whose bytes are computed from the first state. -/
theorem mem_iterate (turn : Turn counter step ops) (apart : d ≠ counter) (kept : keeps s.v)
    (fits : n * bytes ≤ 2 ^ 64) (unread : Unread ops d bytes n s.x) :
    ((execAll isa (ops ++ [.subs counter counter step]))^[n] s).mem =
      overwritten (s.x d) (n * bytes) (value s.byteAt) s.mem := by
  rw [← pixelwise.filled_eq fits]
  have stores := pixelwise.toStores
  exact stores.mem_iterate turn apart kept fun k inside => pixelwise.undisturbed fits unread inside

end Pixelwise

end VisionServer.Library.Aarch64
