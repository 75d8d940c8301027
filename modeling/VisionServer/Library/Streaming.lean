/-
This file gives the footprints of straight vector code and of the loops that count down.
-/

import VisionServer.Library.Aarch64

namespace VisionServer.Library.Aarch64
open Assembly

/-- An access names its base register and the bytes by which it moves. -/
structure Access where
  direction : Direction
  n : Fin 31
  bytes : Nat
  post : Nat
deriving DecidableEq

def Op.access : Op → Option Access
  | .ldr _ n post => some ⟨.load, n, 16, post⟩
  | .str _ n post => some ⟨.store, n, 16, post⟩
  | .ld3 _ n post => some ⟨.load, n, 48, post⟩
  | .st3 _ n post => some ⟨.store, n, 48, post⟩
  | .ld3Lane _ _ n post => some ⟨.load, n, 3, post⟩
  | .st1Lane _ _ n post => some ⟨.store, n, 1, post⟩
  | _ => none

/-- A vector instruction changes no general register except by its access. -/
def Op.isVector : Op → Bool
  | .lsr .. => false
  | .subs .. => false
  | .cmp .. => false
  | _ => true

/-- A touch is an access with the distance of its base register from where the code starts. -/
structure Touch where
  direction : Direction
  n : Fin 31
  offset : Nat
  bytes : Nat
deriving DecidableEq

/-- A touch happens after an access that moved a base register. -/
def Touch.after (access : Access) (t : Touch) : Touch :=
  if t.n = access.n then { t with offset := access.post + t.offset } else t

/-- The touches of straight code come in order. -/
def touches : List Op → List Touch
  | [] => []
  | op :: rest =>
      match op.access with
      | none => touches rest
      | some a => ⟨a.direction, a.n, 0, a.bytes⟩ :: (touches rest).map (Touch.after a)

/-- The bytes by which straight code moves a base register. -/
def advance (r : Fin 31) : List Op → Nat
  | [] => 0
  | op :: rest =>
      match op.access with
      | none => advance r rest
      | some a => (if r = a.n then a.post else 0) + advance r rest

/-- The addresses of one execution of straight code. -/
def footprint (direction : Direction) (ops : List Op) (x : Fin 31 → Word) : Set Word :=
  {a | ∃ t ∈ touches ops, t.direction = direction ∧ a ∈ span (x t.n + BitVec.ofNat 64 t.offset) t.bytes}

/-- The addresses of a number of turns, where each turn moves the base registers by one stride. -/
def loopFootprint (direction : Direction) (ops : List Op) (n : Nat) (x : Fin 31 → Word) : Set Word :=
  {a | ∃ i < n, ∃ t ∈ touches ops, t.direction = direction ∧
    a ∈ span (x t.n + BitVec.ofNat 64 (i * advance t.n ops + t.offset)) t.bytes}

section Block

theorem exec_access {op : Op} {a : Access} (accesses : op.access = some a) (s : Cpu) :
    (s.exec op).x = Function.update s.x a.n (s.x a.n + BitVec.ofNat 64 a.post) ∧
      (s.exec op).trace = s.trace ++ [⟨a.direction, s.x a.n, a.bytes⟩] := by
  cases op <;> cases accesses <;> exact ⟨rfl, rfl⟩

theorem exec_vector {op : Op} (vector : op.isVector) (silent : op.access = none) (s : Cpu) :
    (s.exec op).x = s.x ∧ (s.exec op).trace = s.trace := by
  cases op with
  | dup arrangement => cases arrangement <;> exact ⟨rfl, rfl⟩
  | lsr | subs | cmp => cases vector
  | ldr | str | ld3 | st3 | ld3Lane | st1Lane => cases silent
  | clz | neg | ushrImm | uqshlImm | cmhi | and | orr | ushl | uqshl | uqadd | uqsub => exact ⟨rfl, rfl⟩

theorem touched_of_trace_eq {s t : Cpu} (same : t.trace = s.trace) (direction : Direction) :
    t.touched direction = s.touched direction := by
  unfold Cpu.touched
  rw [same]

/-- An access adds its range to the addresses of its direction. -/
theorem mem_touched_append {s t : Cpu} {event : Event} (longer : t.trace = s.trace ++ [event])
    {direction : Direction} {a : Word} :
    a ∈ t.touched direction ↔ a ∈ s.touched direction ∨
      event.direction = direction ∧ a ∈ span event.address event.bytes := by
  simp only [Cpu.touched, longer, List.mem_append, List.mem_singleton, or_and_right, exists_or,
    exists_eq_left, Set.mem_ofPred_eq]

/-- An instruction changes only the bytes that it stores. -/
theorem exec_mem (op : Op) (s : Cpu) {a : Word} (outside : a ∉ (s.exec op).touched .store) :
    a ∉ s.touched .store ∧ (s.exec op).mem a = s.mem a := by
  have stored {n : Fin 31} {bytes : Nat} (value : Nat → Byte)
      (apart : ¬ (a ∈ s.touched .store ∨ Direction.store = .store ∧ a ∈ span (s.x n) bytes)) :
      a ∉ s.touched .store ∧ (s.storeBytes n bytes value).mem a = s.mem a := by
    rw [not_or] at apart
    exact ⟨apart.1, overwritten_of_notMem fun inside => apart.2 ⟨rfl, inside⟩⟩
  have loaded {n : Fin 31} {bytes : Nat}
      (apart : ¬ (a ∈ s.touched .store ∨ Direction.load = .store ∧ a ∈ span (s.x n) bytes)) :
      a ∉ s.touched .store := (not_or.mp apart).1
  cases op with
  | str t n post =>
      rw [mem_touched_append (exec_access rfl s).2] at outside
      exact stored (fun k => s.v t (.ofNat 16 k)) outside
  | st3 t n post =>
      rw [mem_touched_append (exec_access rfl s).2] at outside
      exact stored (fun k => s.v (t + .ofNat 32 (k % 3)) (.ofNat 16 (k / 3))) outside
  | st1Lane t lane n post =>
      rw [mem_touched_append (exec_access rfl s).2] at outside
      exact stored (fun _ => s.v t lane) outside
  | ldr t n post | ld3 t n post | ld3Lane t lane n post =>
      rw [mem_touched_append (exec_access rfl s).2] at outside
      exact ⟨loaded outside, rfl⟩
  | lsr width => cases width <;> exact ⟨outside, rfl⟩
  | dup arrangement => cases arrangement <;> exact ⟨outside, rfl⟩
  | subs | cmp | clz | neg | ushrImm | uqshlImm | cmhi | and | orr | ushl | uqshl | uqadd | uqsub =>
      exact ⟨outside, rfl⟩

/-- A run changes only the bytes that it stores. -/
theorem frame_of_returns {Label : Type} [DecidableEq Label] {text code : List (Line Op Cond Label)}
    {s final : Cpu} (returns : Assembly.Returns isa text code s final) {a : Word}
    (outside : a ∉ final.touched .store) : final.mem a = s.mem a := by
  have keep (op : Op) (t : Cpu) (holds : a ∉ t.touched .store → t.mem a = s.mem a)
      (apart : a ∉ (t.exec op).touched .store) : (t.exec op).mem a = s.mem a := by
    obtain ⟨before, same⟩ := exec_mem op t apart
    exact same.trans (holds before)
  exact returns.keeps _ keep (fun _ => rfl) outside

/-- The touches after an access start where the access has moved its base register. -/
theorem span_after (access : Access) (x : Fin 31 → Word) (t : Touch) :
    span (Function.update x access.n (x access.n + BitVec.ofNat 64 access.post) t.n +
        BitVec.ofNat 64 t.offset) t.bytes =
      span (x (t.after access).n + BitVec.ofNat 64 (t.after access).offset) (t.after access).bytes := by
  unfold Touch.after
  by_cases same : t.n = access.n
  · rw [if_pos same, same, Function.update_self, BitVec.ofNat_add, BitVec.add_assoc]
  · rw [if_neg same, Function.update_of_ne same]

theorem after_direction (access : Access) (t : Touch) : (t.after access).direction = t.direction := by
  unfold Touch.after
  split <;> rfl

/-- Straight vector code moves its base registers. -/
theorem block_x {ops : List Op} (vector : ops.all Op.isVector) (s : Cpu) (r : Fin 31) :
    (execAll isa ops s).x r = s.x r + BitVec.ofNat 64 (advance r ops) := by
  induction ops generalizing s with
  | nil => exact (BitVec.add_zero _).symm
  | cons op rest ih =>
      rw [List.all_cons, Bool.and_eq_true] at vector
      rw [execAll_cons, ih vector.2]
      change (s.exec op).x r + _ = _
      cases accesses : op.access with
      | none => simp only [advance, accesses, (exec_vector vector.1 accesses s).1]
      | some a =>
          simp only [advance, accesses, (exec_access accesses s).1, BitVec.ofNat_add]
          by_cases same : r = a.n
          · rw [if_pos same, same, Function.update_self, BitVec.add_assoc]
          · rw [if_neg same, Function.update_of_ne same, BitVec.zero_add]

/-- Straight vector code accesses its footprint. -/
theorem block_touched {ops : List Op} (vector : ops.all Op.isVector) (s : Cpu) (direction : Direction) :
    (execAll isa ops s).touched direction = s.touched direction ∪ footprint direction ops s.x := by
  induction ops generalizing s with
  | nil => simp [footprint, touches]
  | cons op rest ih =>
      rw [List.all_cons, Bool.and_eq_true] at vector
      rw [execAll_cons, ih vector.2]
      change (s.exec op).touched direction ∪ footprint direction rest (s.exec op).x = _
      ext a
      cases accesses : op.access with
      | none =>
          have kept := exec_vector vector.1 accesses s
          simp only [footprint, touches, accesses, touched_of_trace_eq kept.2, kept.1]
      | some access =>
          have moved := exec_access accesses s
          simp only [footprint, touches, accesses, Set.mem_union, mem_touched_append moved.2, moved.1,
            span_after, Set.mem_ofPred_eq, List.mem_cons, List.mem_map, or_and_right, exists_or,
            exists_eq_left, or_assoc, exists_exists_and_eq_and, after_direction, BitVec.add_zero]

/-- This is the record of a touch. -/
def Touch.event (x : Fin 31 → Word) (t : Touch) : Event := ⟨t.direction, x t.n + BitVec.ofNat 64 t.offset, t.bytes⟩

theorem event_after (access : Access) (x : Fin 31 → Word) (t : Touch) :
    t.event (Function.update x access.n (x access.n + BitVec.ofNat 64 access.post)) =
      (t.after access).event x := by
  unfold Touch.after Touch.event
  by_cases same : t.n = access.n
  · rw [if_pos same, same, Function.update_self, BitVec.ofNat_add, BitVec.add_assoc]
  · rw [if_neg same, Function.update_of_ne same]

/-- Straight vector code records its touches in order. -/
theorem block_trace {ops : List Op} (vector : ops.all Op.isVector) (s : Cpu) :
    (execAll isa ops s).trace = s.trace ++ (touches ops).map (Touch.event s.x) := by
  induction ops generalizing s with
  | nil => exact (List.append_nil _).symm
  | cons op rest ih =>
      rw [List.all_cons, Bool.and_eq_true] at vector
      rw [execAll_cons, ih vector.2]
      change (s.exec op).trace ++ (touches rest).map (Touch.event (s.exec op).x) = _
      cases accesses : op.access with
      | none =>
          have kept := exec_vector vector.1 accesses s
          simp only [touches, accesses, kept.1, kept.2]
      | some access =>
          have moved := exec_access accesses s
          have first : (Touch.mk access.direction access.n 0 access.bytes).event s.x =
              ⟨access.direction, s.x access.n, access.bytes⟩ := by
            rw [Touch.event, BitVec.add_zero]
          have later : (touches rest).map (Touch.event (s.exec op).x) =
              ((touches rest).map (Touch.after access)).map (Touch.event s.x) := by
            rw [moved.1, List.map_map]
            exact List.map_congr_left fun t _ => event_after access s.x t
          rw [moved.2, later, touches, accesses, List.map_cons, first, List.append_assoc]
          rfl

end Block

/-- The code has made a number of turns from its start, and each turn took `step` from the counter. -/
structure Walked (ops : List Op) (counter : Fin 31) (step n : Nat) (start s : Cpu) : Prop where
  pointers : ∀ r, r ≠ counter → s.x r = start.x r + BitVec.ofNat 64 (n * advance r ops)
  count : s.x counter = start.x counter - BitVec.ofNat 64 (n * step)
  touched : ∀ direction, s.touched direction =
    start.touched direction ∪ loopFootprint direction ops n start.x

/-- A turn is vector code that leaves the counter to a final subtraction. -/
structure Turn (counter : Fin 31) (step : Nat) (ops : List Op) : Prop where
  vector : ops.all Op.isVector
  apart : ∀ t ∈ touches ops, t.n ≠ counter
  still : advance counter ops = 0

section Loops

variable {ops : List Op} {counter : Fin 31} {step n : Nat} {start s : Cpu}

theorem Walked.zero (ops : List Op) (counter : Fin 31) (step : Nat) (start : Cpu) :
    Walked ops counter step 0 start start :=
  ⟨fun r _ => by simp, by simp, fun direction => by simp [loopFootprint]⟩

/-- A further turn moves each base register by one stride. -/
theorem Walked.turn (turn : Turn counter step ops) (walked : Walked ops counter step n start s) :
    Walked ops counter step (n + 1) start (execAll isa (ops ++ [.subs counter counter step]) s) := by
  have split : execAll isa (ops ++ [.subs counter counter step]) s =
      (execAll isa ops s).exec (.subs counter counter step) := List.foldl_append
  rw [split]
  refine ⟨fun r different => ?_, ?_, fun direction => ?_⟩
  · change Function.update (execAll isa ops s).x counter _ r = _
    rw [Function.update_of_ne different, block_x turn.vector, walked.pointers r different,
      Nat.succ_mul, BitVec.ofNat_add, BitVec.add_assoc]
  · change Function.update (execAll isa ops s).x counter _ counter = _
    rw [Function.update_self, block_x turn.vector, turn.still, walked.count, Nat.succ_mul,
      BitVec.ofNat_add, BitVec.add_zero, sub_sub]
  · rw [show Cpu.touched direction (Cpu.exec _ _) = (execAll isa ops s).touched direction from rfl,
      block_touched turn.vector, walked.touched direction, Set.union_assoc]
    congr 1
    ext a
    have here (t : Touch) (member : t ∈ touches ops) : s.x t.n + BitVec.ofNat 64 t.offset =
        start.x t.n + BitVec.ofNat 64 (n * advance t.n ops + t.offset) := by
      rw [walked.pointers t.n (turn.apart t member), BitVec.ofNat_add, BitVec.add_assoc]
    constructor
    · intro given
      rcases given with ⟨i, inside, found⟩ | ⟨t, member, toward, found⟩
      · exact ⟨i, by omega, found⟩
      · rw [here t member] at found
        exact ⟨n, by omega, t, member, toward, found⟩
    · intro given
      obtain ⟨i, inside, t, member, toward, found⟩ := given
      by_cases last : i = n
      · subst last
        rw [← here t member] at found
        exact Or.inr ⟨t, member, toward, found⟩
      · exact Or.inl ⟨i, by omega, t, member, toward, found⟩

/-- Turns without gaps between their touches access one range for each touch. -/
theorem loopFootprint_contiguous
    (contiguous : ∀ t ∈ touches ops, t.offset = 0 ∧ t.bytes = advance t.n ops)
    (direction : Direction) (n : Nat) (x : Fin 31 → Word) :
    loopFootprint direction ops n x =
      {a | ∃ t ∈ touches ops, t.direction = direction ∧ a ∈ span (x t.n) (n * t.bytes)} := by
  ext a
  have block (t : Touch) (member : t ∈ touches ops) (i : Nat) :
      i * advance t.n ops + t.offset = i * t.bytes := by
    rw [(contiguous t member).1, (contiguous t member).2, Nat.add_zero]
  constructor
  · intro given
    obtain ⟨i, inside, t, member, toward, found⟩ := given
    rw [block t member] at found
    exact ⟨t, member, toward, mem_span_blocks.mpr ⟨i, inside, found⟩⟩
  · intro given
    obtain ⟨t, member, toward, found⟩ := given
    obtain ⟨i, inside, here⟩ := mem_span_blocks.mp found
    rw [← block t member] at here
    exact ⟨i, inside, t, member, toward, here⟩

/-- Turns with one touch in a direction access one range for each turn. -/
theorem mem_loopFootprint_single {direction : Direction} {r : Fin 31} {offset bytes : Nat}
    (only : (touches ops).filter (·.direction = direction) = [⟨direction, r, offset, bytes⟩])
    (n : Nat) (x : Fin 31 → Word) (a : Word) : a ∈ loopFootprint direction ops n x ↔
      ∃ i < n, a ∈ span (x r + BitVec.ofNat 64 (i * advance r ops + offset)) bytes := by
  have one (t : Touch) : t ∈ touches ops ∧ t.direction = direction ↔
      t = ⟨direction, r, offset, bytes⟩ := by
    rw [← @List.mem_singleton _ t, ← only, List.mem_filter, decide_eq_true_iff]
  constructor
  · intro given
    obtain ⟨i, inside, t, member, toward, found⟩ := given
    obtain rfl := (one t).mp ⟨member, toward⟩
    exact ⟨i, inside, found⟩
  · intro given
    obtain ⟨i, inside, found⟩ := given
    obtain ⟨member, toward⟩ := (one _).mpr rfl
    exact ⟨i, inside, _, member, toward, found⟩

/-- Turns with one touch in a direction access one range when they leave no gap. -/
theorem loopFootprint_single {direction : Direction} {r : Fin 31} {bytes : Nat}
    (only : (touches ops).filter (·.direction = direction) = [⟨direction, r, 0, bytes⟩])
    (stride : advance r ops = bytes) (n : Nat) (x : Fin 31 → Word) :
    loopFootprint direction ops n x = span (x r) (n * bytes) := by
  ext a
  rw [mem_span_blocks, mem_loopFootprint_single only, stride]
  exact Iff.rfl

/-- A footprint depends on the base registers of its touches. -/
theorem loopFootprint_congr {x y : Fin 31 → Word} (same : ∀ t ∈ touches ops, x t.n = y t.n)
    (direction : Direction) (n : Nat) :
    loopFootprint direction ops n x = loopFootprint direction ops n y := by
  ext a
  constructor
  · intro given
    obtain ⟨i, inside, t, member, toward, found⟩ := given
    rw [same t member] at found
    exact ⟨i, inside, t, member, toward, found⟩
  · intro given
    obtain ⟨i, inside, t, member, toward, found⟩ := given
    rw [← same t member] at found
    exact ⟨i, inside, t, member, toward, found⟩

/-- The zero flag tells whether the counter has become zero. -/
theorem turn_z (ops : List Op) (counter : Fin 31) (step : Nat) (s : Cpu) :
    (execAll isa (ops ++ [.subs counter counter step]) s).flags.z =
      ((execAll isa (ops ++ [.subs counter counter step]) s).x counter == 0) := by
  have split : execAll isa (ops ++ [.subs counter counter step]) s =
      (execAll isa ops s).exec (.subs counter counter step) := List.foldl_append
  rw [split, show (Cpu.exec (.subs counter counter step) (execAll isa ops s)).x counter = _ from
    Function.update_self ..]
  rfl

/-- A comparison accesses no memory. -/
theorem Walked.cmp (walked : Walked ops counter step n start s) (r : Fin 31) (imm : Nat) :
    Walked ops counter step n start (s.exec (.cmp r imm)) :=
  ⟨walked.pointers, walked.count, walked.touched⟩

/-- A loop that counts down to zero makes at least one turn. -/
def turns (count : Word) : Nat := (count - 1).toNat + 1

theorem turns_eq (count : Word) : turns count = if count.toNat = 0 then 2 ^ 64 else count.toNat := by
  unfold turns
  split
  · have zero : count = 0 := BitVec.eq_of_toNat_eq (by assumption)
    subst zero
    rfl
  · bv_omega

/-- After fewer turns the counter is not zero, and after the last turn it is. -/
theorem sub_eq_zero_iff_turns {count : Word} {n : Nat} (inside : n < turns count) :
    count - BitVec.ofNat 64 (n + 1) = 0 ↔ n + 1 = turns count := by
  unfold turns at *
  bv_omega

variable {Label : Type} [DecidableEq Label] {text : List (Line Op Cond Label)} {loop : Label}
  {leave : List (Line Op Cond Label)}

/-- A number of turns moves each base register by as many strides. -/
theorem walked_iterate (turn : Turn counter step ops) (n : Nat) (s : Cpu) :
    Walked ops counter step n s ((execAll isa (ops ++ [.subs counter counter step]))^[n] s) := by
  induction n with
  | zero => exact Walked.zero ..
  | succ n ih =>
      rw [Function.iterate_succ_apply']
      exact ih.turn turn

/-- A further turn records its touches where the turns before it have moved the base registers. -/
theorem iterate_trace (turn : Turn counter step ops) (n : Nat) (s : Cpu) :
    ((execAll isa (ops ++ [.subs counter counter step]))^[n + 1] s).trace =
      ((execAll isa (ops ++ [.subs counter counter step]))^[n] s).trace ++ (touches ops).map (Touch.event
        fun r => s.x r + BitVec.ofNat 64 (n * advance r ops)) := by
  have split (t : Cpu) : execAll isa (ops ++ [.subs counter counter step]) t =
      (execAll isa ops t).exec (.subs counter counter step) := List.foldl_append
  have walked := walked_iterate turn n s
  rw [Function.iterate_succ_apply', split]
  generalize (execAll isa (ops ++ [.subs counter counter step]))^[n] s = t at walked
  change (execAll isa ops t).trace = _
  rw [block_trace turn.vector]
  congr 1
  apply List.map_congr_left
  intro touch member
  rw [Touch.event, Touch.event, walked.pointers touch.n (turn.apart touch member)]

/-- Each turn records each touch once. -/
theorem iterate_trace_length (turn : Turn counter step ops) (n : Nat) (s : Cpu) :
    ((execAll isa (ops ++ [.subs counter counter step]))^[n] s).trace.length =
      s.trace.length + n * (touches ops).length := by
  induction n with
  | zero => rw [Nat.zero_mul, Nat.add_zero, Function.iterate_zero_apply]
  | succ n ih => rw [iterate_trace turn, List.length_append, List.length_map, ih, Nat.succ_mul, Nat.add_assoc]

/-- After a turn the zero flag tells whether it was the last one. -/
theorem iterate_z (turn : Turn counter 1 ops) {s : Cpu} {n : Nat} (inside : n < turns (s.x counter)) :
    ((execAll isa (ops ++ [.subs counter counter 1]))^[n + 1] s).flags.z =
      decide (n + 1 = turns (s.x counter)) := by
  have next := (walked_iterate turn (n + 1) s).count
  rw [Function.iterate_succ_apply'] at next ⊢
  rw [turn_z, next, Nat.mul_one, beq_eq_decide]
  exact decide_eq_decide.mpr (sub_eq_zero_iff_turns inside)

/-- After the last turn the zero flag is set. -/
theorem countdown_z (turn : Turn counter 1 ops) (s : Cpu) :
    ((execAll isa (ops ++ [.subs counter counter 1]))^[turns (s.x counter)] s).flags.z = true := by
  have last := iterate_z turn (show turns (s.x counter) - 1 < turns (s.x counter) from Nat.lt_succ_self _)
  rw [show turns (s.x counter) - 1 + 1 = turns (s.x counter) from rfl] at last
  exact last.trans (decide_eq_true rfl)

/-- A loop that counts down by one is left in the state after its turns. -/
theorem returns_countdown (turn : Turn counter 1 ops)
    (body : block (codeAt loop text) = ops ++ [.subs counter counter 1])
    (back : afterBlock (codeAt loop text) = .branch .ne loop :: leave) (s final : Cpu) :
    Returns isa text (codeAt loop text) s final ↔ Returns isa text leave
      ((execAll isa (ops ++ [.subs counter counter 1]))^[turns (s.x counter)] s) final := by
  have step (n : Nat) (t : Cpu) (inside : n < turns (s.x counter))
      (holds : t = (execAll isa (ops ++ [.subs counter counter 1]))^[n] s) :
      ∃ u, u = (execAll isa (ops ++ [.subs counter counter 1]))^[n + 1] s ∧ ∀ final,
        Returns isa text (codeAt loop text) t final ↔
          Returns isa text (if n + 1 = turns (s.x counter) then leave else codeAt loop text) u final := by
    refine ⟨_, rfl, fun final => ?_⟩
    have zero := iterate_z turn inside
    rw [Function.iterate_succ_apply', ← holds] at zero ⊢
    rw [returns_block, body, back, returns_branch, show isa.holds .ne _ = !decide _ from
      congrArg (!·) zero]
    by_cases last : n + 1 = turns (s.x counter)
    · simp [last]
    · simp [last]
  obtain ⟨t, rfl, same⟩ := exists_leave _ step (Nat.succ_pos _) rfl
  exact same final

/-- A loop that counts down by one comes to its label before each further turn. -/
theorem returnsAfter_countdown (turn : Turn counter 1 ops)
    (body : block (codeAt loop text) = ops ++ [.subs counter counter 1])
    (back : afterBlock (codeAt loop text) = .branch .ne loop :: leave) {count : Nat} {s final : Cpu}
    (after : ReturnsAfter isa text loop count leave
      ((execAll isa (ops ++ [.subs counter counter 1]))^[turns (s.x counter)] s) final) :
    ReturnsAfter isa text loop (count + (turns (s.x counter) - 1)) (codeAt loop text) s final := by
  have zero (n : Nat) (inside : n < turns (s.x counter)) := iterate_z turn inside
  rw [← body] at after zero
  -- the induction goes over the turns that are left, from the state that is reached
  have go : ∀ left n, n + left + 1 = turns (s.x counter) →
      ReturnsAfter isa text loop (count + left) (codeAt loop text)
        ((execAll isa (block (codeAt loop text)))^[n] s) final := by
    intro left
    induction left with
    | zero =>
        intro n position
        have flag := zero n (by omega)
        rw [decide_eq_true position, Function.iterate_succ_apply'] at flag
        rw [← position, Nat.add_zero, Function.iterate_succ_apply'] at after
        apply ReturnsAfter.block
        rw [back]
        exact after.passed (congrArg (!·) flag)
    | succ left ih =>
        intro n position
        have flag := zero n (by omega)
        rw [decide_eq_false (by omega), Function.iterate_succ_apply'] at flag
        have later := ih (n + 1) (by omega)
        rw [Function.iterate_succ_apply'] at later
        have again : ReturnsAfter isa text loop (count + left + if loop = loop then 1 else 0)
            (.branch .ne loop :: leave) _ final := later.taken (congrArg (!·) flag)
        rw [if_pos rfl] at again
        apply ReturnsAfter.block
        rw [back]
        exact again
  have positive : 0 < turns (s.x counter) := Nat.succ_pos _
  exact go (turns (s.x counter) - 1) 0 (by omega)

end Loops

end VisionServer.Library.Aarch64
