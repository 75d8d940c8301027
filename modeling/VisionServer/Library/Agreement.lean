/-
This file decides from an assembly text which registers two runs need to agree on.
-/

import VisionServer.Library.Aarch64

namespace VisionServer.Library.Aarch64
open Assembly

/-- Two states agree on the lowest bits of the registers, on the lowest lanes of the vectors and perhaps on
the flags. -/
structure Known where
  x : Fin 31 → Nat
  v : Fin 32 → Nat
  flags : Bool

namespace Known

def setX (d : Fin 31) (bits : Nat) (known : Known) : Known :=
  { known with x := Function.update known.x d bits }

def setV (d : Fin 32) (lanes : Nat) (known : Known) : Known :=
  { known with v := Function.update known.v d lanes }

def setFlags (flags : Bool) (known : Known) : Known := { known with flags := flags }

/-- The whole register is known. -/
def whole (known : Known) (n : Fin 31) : Bool := 64 ≤ known.x n

/-- A lane next to the known ones is known after it is loaded. -/
def grow (lane : Fin 16) (lanes : Nat) : Nat := if lane.val = lanes then lanes + 1 else lanes

/-- What is known after an instruction. An access to an address that is not known, or a store of bytes that
are not known, is none. -/
def after : Op → Known → Option Known
  | .lsr .w d n _, known => some (known.setX d (if 32 ≤ known.x n then 64 else 0))
  | .lsr .x d n _, known => some (known.setX d (if known.whole n then 64 else 0))
  | .subs d n _, known =>
      some ((known.setX d (if known.whole n then 64 else 0)).setFlags (known.whole n))
  | .cmp n _, known => some (known.setFlags (known.whole n))
  | .dup _ d n, known => some (known.setV d (if 8 ≤ known.x n then 16 else 0))
  | .ldr t n _, known => if known.whole n then some (known.setV t 16) else none
  | .str t n _, known => if known.whole n && 16 ≤ known.v t then some known else none
  | .ld3 t n _, known =>
      if known.whole n then some (((known.setV t 16).setV (t + 1) 16).setV (t + 2) 16) else none
  | .st3 t n _, known =>
      if known.whole n && 16 ≤ known.v t && 16 ≤ known.v (t + 1) && 16 ≤ known.v (t + 2) then some known
      else none
  | .ld3Lane t lane n _, known =>
      if known.whole n then
        some (((known.setV t (grow lane (known.v t))).setV (t + 1) (grow lane (known.v (t + 1)))).setV (t + 2)
          (grow lane (known.v (t + 2))))
      else none
  | .st1Lane t lane n _, known => if known.whole n && lane.val < known.v t then some known else none
  | .clz d n, known => some (known.setV d (known.v n))
  | .neg d n, known => some (known.setV d (known.v n))
  | .ushrImm d n _, known => some (known.setV d (known.v n))
  | .uqshlImm d n _, known => some (known.setV d (known.v n))
  | .cmhi d n m, known => some (known.setV d (min (known.v n) (known.v m)))
  | .and d n m, known => some (known.setV d (min (known.v n) (known.v m)))
  | .orr d n m, known => some (known.setV d (min (known.v n) (known.v m)))
  | .ushl d n m, known => some (known.setV d (min (known.v n) (known.v m)))
  | .uqshl d n m, known => some (known.setV d (min (known.v n) (known.v m)))
  | .uqadd d n m, known => some (known.setV d (min (known.v n) (known.v m)))
  | .uqsub d n m, known => some (known.setV d (min (known.v n) (known.v m)))

def afterAll : List Op → Known → Option Known
  | [], known => some known
  | op :: rest, known => (known.after op).bind (afterAll rest)

/-- The first knowledge is a part of the second. -/
def within (part known : Known) : Bool :=
  (∀ r, part.x r ≤ known.x r) && (∀ r, part.v r ≤ known.v r) && (!part.flags || known.flags)

/-- The code needs no more than what is known. Each label has the knowledge with which a run comes to it. -/
def check {Label : Type} (entries : Label → Option Known) : Known → List (Line Op Cond Label) → Bool
  | _, [] => false
  | known, .label name :: rest =>
      match entries name with
      | none => false
      | some entry => entry.within known && check entries entry rest
  | known, .op op :: rest =>
      match known.after op with
      | none => false
      | some next => check entries next rest
  | known, .branch _ target :: rest =>
      match entries target with
      | none => false
      | some entry => known.flags && entry.within known && check entries known rest
  | _, .ret :: _ => true

end Known

/-- Two states share what is known of them, their memory and their accesses. -/
structure Shares (known : Known) (s t : Cpu) : Prop where
  x : ∀ r, (s.x r).toNat % 2 ^ known.x r = (t.x r).toNat % 2 ^ known.x r
  v : ∀ r (lane : Fin 16), lane.val < known.v r → s.v r lane = t.v r lane
  flags : known.flags = true → s.flags = t.flags
  mem : s.mem = t.mem
  trace : s.trace = t.trace

namespace Shares

variable {known part next : Known} {s t : Cpu}

theorem mono (shares : Shares known s t) (within : part.within known = true) : Shares part s t := by
  simp only [Known.within, Bool.and_eq_true, decide_eq_true_iff, Bool.or_eq_true, Bool.not_eq_true'] at within
  obtain ⟨⟨bits, lanes⟩, flags⟩ := within
  refine ⟨fun r => ?_, fun r lane below => shares.v r lane (Nat.lt_of_lt_of_le below (lanes r)),
    fun needed => ?_, shares.mem, shares.trace⟩
  · have divides : 2 ^ part.x r ∣ 2 ^ known.x r := Nat.pow_dvd_pow 2 (bits r)
    rw [← Nat.mod_mod_of_dvd (s.x r).toNat divides, shares.x r, Nat.mod_mod_of_dvd _ divides]
  · rw [needed] at flags
    exact shares.flags (flags.resolve_left (by decide))

/-- A whole register is the same in both states. -/
theorem same_x (shares : Shares known s t) {n : Fin 31} (whole : known.whole n = true) : s.x n = t.x n := by
  have bits : 64 ≤ known.x n := of_decide_eq_true whole
  have same := shares.x n
  have fits : 2 ^ 64 ≤ 2 ^ known.x n := Nat.pow_le_pow_right (by decide) bits
  rw [Nat.mod_eq_of_lt (Nat.lt_of_lt_of_le (s.x n).isLt fits),
    Nat.mod_eq_of_lt (Nat.lt_of_lt_of_le (t.x n).isLt fits)] at same
  exact BitVec.eq_of_toNat_eq same

/-- The lowest bits of a register are the same in both states. -/
theorem same_low (shares : Shares known s t) {n : Fin 31} {bits : Nat} (enough : bits ≤ known.x n) :
    (s.x n).setWidth bits = (t.x n).setWidth bits := by
  have divides : 2 ^ bits ∣ 2 ^ known.x n := Nat.pow_dvd_pow 2 enough
  apply BitVec.eq_of_toNat_eq
  rw [BitVec.toNat_setWidth, BitVec.toNat_setWidth, ← Nat.mod_mod_of_dvd (s.x n).toNat divides, shares.x n,
    Nat.mod_mod_of_dvd _ divides]

theorem setX (shares : Shares known s t) {d : Fin 31} {bits : Nat} {a b : Word}
    (same : a.toNat % 2 ^ bits = b.toNat % 2 ^ bits) :
    Shares (known.setX d bits) (s.setX d a) (t.setX d b) where
  x r := by
    simp only [Known.setX, Cpu.setX, Function.update_apply]
    by_cases here : r = d
    · simp only [here, if_true]
      exact same
    · simp only [here, if_false]
      exact shares.x r
  v := shares.v
  flags := shares.flags
  mem := shares.mem
  trace := shares.trace

/-- A register that is computed from a known one is known, and one that is not is left open. -/
theorem setX_of (shares : Shares known s t) {d : Fin 31} {needed : Prop} [Decidable needed] {a b : Word}
    (same : needed → a = b) :
    Shares (known.setX d (if needed then 64 else 0)) (s.setX d a) (t.setX d b) := by
  by_cases given : needed
  · rw [if_pos given]
    exact shares.setX (by rw [same given])
  · rw [if_neg given]
    exact shares.setX (by rw [Nat.pow_zero, Nat.mod_one, Nat.mod_one])

theorem setV (shares : Shares known s t) {d : Fin 32} {lanes : Nat} {a b : Lanes}
    (same : ∀ lane : Fin 16, lane.val < lanes → a lane = b lane) :
    Shares (known.setV d lanes) (s.setV d a) (t.setV d b) where
  x := shares.x
  v r lane below := by
    simp only [Known.setV, Cpu.setV, Function.update_apply] at below ⊢
    by_cases here : r = d
    · simp only [here, if_true] at below ⊢
      exact same lane below
    · simp only [here, if_false] at below ⊢
      exact shares.v r lane below
  flags := shares.flags
  mem := shares.mem
  trace := shares.trace

/-- A vector that is computed lane by lane is known where its operand is. -/
theorem map (shares : Shares known s t) {d n : Fin 32} (f : Byte → Byte) :
    Shares (known.setV d (known.v n)) (s.setV d fun i => f (s.v n i)) (t.setV d fun i => f (t.v n i)) :=
  shares.setV fun lane below => congrArg f (shares.v n lane below)

theorem zip (shares : Shares known s t) {d n m : Fin 32} (f : Byte → Byte → Byte) :
    Shares (known.setV d (min (known.v n) (known.v m))) (s.setV d fun i => f (s.v n i) (s.v m i))
      (t.setV d fun i => f (t.v n i) (t.v m i)) :=
  shares.setV fun lane below => congrArg₂ f (shares.v n lane (Nat.lt_of_lt_of_le below (Nat.min_le_left _ _)))
    (shares.v m lane (Nat.lt_of_lt_of_le below (Nat.min_le_right _ _)))

theorem compare (shares : Shares known s t) {flags : Bool} {a b : Word} (imm : Word)
    (same : flags = true → a = b) :
    Shares (known.setFlags flags) (s.compare a imm) (t.compare b imm) where
  x := shares.x
  v := shares.v
  flags needed := by
    obtain rfl := same needed
    rfl
  mem := shares.mem
  trace := shares.trace

theorem access (shares : Shares known s t) {n : Fin 31} (whole : known.whole n = true)
    (direction : Direction) (bytes post : Nat) :
    Shares known (s.access direction n bytes post) (t.access direction n bytes post) where
  x r := by
    have base := shares.same_x whole
    simp only [Cpu.access, Function.update_apply]
    by_cases here : r = n
    · simp only [here, if_true, base]
    · simp only [here, if_false]
      exact shares.x r
  v := shares.v
  flags := shares.flags
  mem := shares.mem
  trace := by
    have base := shares.same_x whole
    simp only [Cpu.access, base, shares.trace]

theorem storeBytes (shares : Shares known s t) {n : Fin 31} (whole : known.whole n = true) {bytes : Nat}
    {a b : Nat → Byte} (same : ∀ k < bytes, a k = b k) :
    Shares known (s.storeBytes n bytes a) (t.storeBytes n bytes b) where
  x := shares.x
  v := shares.v
  flags := shares.flags
  mem := by
    have base := shares.same_x whole
    simp only [Cpu.storeBytes, base, shares.mem]
    exact overwritten_congr same
  trace := shares.trace

theorem byteAt (shares : Shares known s t) {n : Fin 31} (whole : known.whole n = true) (distance : Nat) :
    s.byteAt n distance = t.byteAt n distance := by
  rw [Cpu.byteAt, Cpu.byteAt, shares.same_x whole, shares.mem]

/-- A lane that is loaded into both vectors is shared. -/
theorem update (shares : Shares known s t) (r : Fin 32) (lane : Fin 16) {a b : Byte} (same : a = b)
    (other : Fin 16) (below : other.val < Known.grow lane (known.v r)) :
    Function.update (s.v r) lane a other = Function.update (t.v r) lane b other := by
  rw [Function.update_apply, Function.update_apply]
  by_cases here : other = lane
  · rw [if_pos here, if_pos here, same]
  · rw [if_neg here, if_neg here]
    apply shares.v
    unfold Known.grow at below
    have apart : other.val ≠ lane.val := fun same => here (Fin.ext same)
    split at below
    · omega
    · exact below

/-- An instruction keeps what is known after it. -/
theorem exec {op : Op} (shares : Shares known s t) (after : known.after op = some next) :
    Shares next (s.exec op) (t.exec op) := by
  cases op with
  | lsr width d n shift =>
      cases width with
      | w =>
          cases after
          exact shares.setX_of fun enough => by rw [shares.same_low enough]
      | x =>
          cases after
          exact shares.setX_of fun whole => by rw [shares.same_x whole]
  | subs d n imm =>
      cases after
      exact (shares.compare _ fun whole => shares.same_x whole).setX_of
        fun whole => by rw [shares.same_x whole]
  | cmp n imm =>
      cases after
      exact shares.compare _ fun whole => shares.same_x whole
  | dup arrangement d n =>
      cases after
      have lanes (a b : Lanes) (same : 8 ≤ known.x n → a = b) :
          Shares (known.setV d (if 8 ≤ known.x n then 16 else 0)) (s.setV d a) (t.setV d b) := by
        refine shares.setV fun lane below => ?_
        split at below
        · rename_i enough
          rw [same enough]
        · exact absurd below (Nat.not_lt_zero _)
      cases arrangement with
      | b8 => exact lanes _ _ fun enough => by rw [shares.same_low enough]
      | b16 => exact lanes _ _ fun enough => by rw [shares.same_low enough]
  | ldr d n post =>
      obtain ⟨whole, ⟨⟩⟩ := Option.ite_none_right_eq_some.mp after
      exact (shares.access whole .load 16 post).setV fun lane _ => shares.byteAt whole lane
  | str d n post =>
      obtain ⟨needed, ⟨⟩⟩ := Option.ite_none_right_eq_some.mp after
      rw [Bool.and_eq_true, decide_eq_true_iff] at needed
      obtain ⟨whole, lanes⟩ := needed
      exact (shares.storeBytes whole fun k _ => shares.v d _ (by have := (Fin.ofNat 16 k).isLt; omega)).access
        whole .store 16 post
  | ld3 d n post =>
      obtain ⟨whole, ⟨⟩⟩ := Option.ite_none_right_eq_some.mp after
      exact (((shares.access whole .load 48 post).setV fun lane _ => shares.byteAt whole (3 * lane)).setV
        fun lane _ => shares.byteAt whole (3 * lane + 1)).setV
          fun lane _ => shares.byteAt whole (3 * lane + 2)
  | st3 d n post =>
      obtain ⟨needed, ⟨⟩⟩ := Option.ite_none_right_eq_some.mp after
      simp only [Bool.and_eq_true, decide_eq_true_iff] at needed
      obtain ⟨⟨⟨whole, first⟩, second⟩, third⟩ := needed
      refine (shares.storeBytes whole fun k _ => ?_).access whole .store 48 post
      have lane := (Fin.ofNat 16 (k / 3)).isLt
      have channel : k % 3 = 0 ∨ k % 3 = 1 ∨ k % 3 = 2 := by omega
      rcases channel with zero | one | two
      · rw [zero, show d + Fin.ofNat 32 0 = d from add_zero d]
        exact shares.v d _ (by omega)
      · rw [one]
        exact shares.v (d + 1) _ (by omega)
      · rw [two]
        exact shares.v (d + 2) _ (by omega)
  | ld3Lane d lane n post =>
      obtain ⟨whole, ⟨⟩⟩ := Option.ite_none_right_eq_some.mp after
      exact (((shares.access whole .load 3 post).setV (shares.update d lane (shares.byteAt whole 0))).setV
        (shares.update (d + 1) lane (shares.byteAt whole 1))).setV
          (shares.update (d + 2) lane (shares.byteAt whole 2))
  | st1Lane d lane n post =>
      obtain ⟨needed, ⟨⟩⟩ := Option.ite_none_right_eq_some.mp after
      rw [Bool.and_eq_true, decide_eq_true_iff] at needed
      obtain ⟨whole, below⟩ := needed
      exact (shares.storeBytes whole fun _ _ => shares.v d lane below).access whole .store 1 post
  | clz d n =>
      cases after
      exact shares.map fun a => a.clz
  | neg d n =>
      cases after
      exact shares.map fun a => -a
  | ushrImm d n shift =>
      cases after
      exact shares.map fun a => a >>> shift
  | uqshlImm d n shift =>
      cases after
      exact shares.map fun a => uqshlImm a shift
  | cmhi d n m =>
      cases after
      exact shares.zip cmhi
  | and d n m =>
      cases after
      exact shares.zip (· &&& ·)
  | orr d n m =>
      cases after
      exact shares.zip (· ||| ·)
  | ushl d n m =>
      cases after
      exact shares.zip ushl
  | uqshl d n m =>
      cases after
      exact shares.zip uqshl
  | uqadd d n m =>
      cases after
      exact shares.zip uqadd
  | uqsub d n m =>
      cases after
      exact shares.zip uqsub

theorem execAll {ops : List Op} (shares : Shares known s t) (after : known.afterAll ops = some next) :
    Shares next (Assembly.execAll isa ops s) (Assembly.execAll isa ops t) := by
  induction ops generalizing known s t with
  | nil =>
      cases after
      exact shares
  | cons op rest ih =>
      obtain ⟨middle, first, later⟩ := Option.bind_eq_some_iff.mp after
      exact ih (shares.exec first) later

/-- The flags that are known decide a condition in both states. -/
theorem holds (shares : Shares known s t) (flags : known.flags = true) (cond : Cond) :
    isa.holds cond s = isa.holds cond t := by
  have same := shares.flags flags
  cases cond <;> simp only [isa, Cpu.holds, same]

section Runs

variable {Label : Type} [DecidableEq Label] {text code : List (Line Op Cond Label)}
  {entries : Label → Option Known}
  (checked : ∀ name entry, entries name = some entry → entry.check entries (codeAt name text) = true)
include checked

/-- Runs of a checked code go through the same lines in both states. -/
theorem run (needs : known.check entries code = true) (shares : Shares known s t) {fuel : Nat} {final : Cpu}
    (taken : Assembly.run isa text fuel code s = some final) :
    ∃ other, Assembly.run isa text fuel code t = some other ∧ final.mem = other.mem ∧
      final.trace = other.trace := by
  induction fuel generalizing known code s t with
  | zero => cases taken
  | succ fuel ih =>
      rcases code with _ | ⟨line, rest⟩
      · cases taken
      · cases line with
        | label name =>
            unfold Known.check at needs
            split at needs
            · cases needs
            · rw [Bool.and_eq_true] at needs
              exact ih needs.2 (shares.mono needs.1) taken
        | op op =>
            unfold Known.check at needs
            split at needs
            · cases needs
            · rename_i next after
              exact ih needs (shares.exec after) taken
        | branch cond target =>
            unfold Known.check at needs
            split at needs
            · cases needs
            · rename_i entry found
              simp only [Bool.and_eq_true] at needs
              obtain ⟨⟨flags, within⟩, goes⟩ := needs
              have same := shares.holds flags cond
              unfold Assembly.run at taken ⊢
              rw [← same]
              by_cases holds : isa.holds cond s = true
              · rw [if_pos holds] at taken ⊢
                exact ih (checked _ _ found) (shares.mono within) taken
              · rw [if_neg holds] at taken ⊢
                exact ih goes shares taken
        | ret =>
            cases taken
            exact ⟨t, rfl, shares.mem, shares.trace⟩

/-- A checked code returns with the same memory and the same accesses in both states. -/
theorem returns (needs : known.check entries code = true) (shares : Shares known s t) {final : Cpu}
    (taken : Returns isa text code s final) :
    ∃ other, Returns isa text code t other ∧ final.mem = other.mem ∧ final.trace = other.trace := by
  obtain ⟨fuel, run⟩ := taken
  obtain ⟨other, again, same⟩ := shares.run checked needs run
  exact ⟨other, ⟨fuel, again⟩, same⟩

end Runs

end Shares

end VisionServer.Library.Aarch64
