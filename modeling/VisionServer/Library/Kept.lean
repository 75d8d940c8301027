/-
This file gives the registers that the runs of an assembly text keep because none of its instructions writes them.
-/

import VisionServer.Library.Aarch32Vectors

namespace VisionServer.Library

namespace Assembly

variable {State Op Cond Label : Type}

/-- The instructions of a text in order. -/
def ops : List (Line Op Cond Label) → List Op
  | [] => []
  | .op op :: rest => op :: ops rest
  | _ :: rest => ops rest

theorem mem_ops {op : Op} {text : List (Line Op Cond Label)} (member : Line.op op ∈ text) : op ∈ ops text := by
  induction text with
  | nil => cases member
  | cons line rest ih =>
      rcases List.mem_cons.mp member with rfl | later
      · exact List.mem_cons_self
      · cases line with
        | op other => exact List.mem_cons_of_mem _ (ih later)
        | label | branch | ret => exact ih later

variable [DecidableEq Label] {isa : InstructionSet State Op Cond} {text : List (Line Op Cond Label)}

/-- The code at a label is a part of the text. -/
theorem codeAt_subset (name : Label) (text : List (Line Op Cond Label)) : codeAt name text ⊆ text := by
  induction text with
  | nil => exact List.Subset.refl _
  | cons line rest ih =>
      cases line with
      | label other =>
          rw [codeAt]
          split
          · exact List.subset_cons_self _ _
          · exact List.subset_cons_of_subset _ ih
      | op | branch | ret => exact List.subset_cons_of_subset _ ih

/-- What every instruction of the text keeps is kept by every run of its code. -/
theorem Returns.keeps_of_text (property : State → Prop)
    (keep : ∀ op ∈ ops text, ∀ s, property s → property (isa.exec op s))
    {code : List (Line Op Cond Label)} (inside : code ⊆ text) {s final : State}
    (returns : Returns isa text code s final) (start : property s) : property final := by
  obtain ⟨fuel, taken⟩ := returns
  induction fuel generalizing code s with
  | zero => cases taken
  | succ fuel ih =>
      rcases code with _ | ⟨line, rest⟩
      · cases taken
      · have later : rest ⊆ text := fun _ member => inside (List.mem_cons_of_mem _ member)
        cases line with
        | label name => exact ih later start taken
        | op op => exact ih later (keep op (mem_ops (inside List.mem_cons_self)) s start) taken
        | branch cond target =>
            rw [run] at taken
            split at taken
            · exact ih (codeAt_subset target text) start taken
            · exact ih later start taken
        | ret => exact Option.some.inj taken ▸ start

end Assembly

namespace Aarch64

/-- The general registers that an instruction writes. -/
def Op.writesX : Op → List (Fin 31)
  | .lsr _ d _ _ => [d]
  | .subs d _ _ => [d]
  | .ldr _ n _ => [n]
  | .str _ n _ => [n]
  | .ld3 _ n _ => [n]
  | .st3 _ n _ => [n]
  | .ld3Lane _ _ n _ => [n]
  | .st1Lane _ _ n _ => [n]
  | _ => []

/-- The vector registers that an instruction writes. -/
def Op.writesV : Op → List (Fin 32)
  | .dup _ d _ => [d]
  | .ldr t _ _ => [t]
  | .ld3 t _ _ => [t, t + 1, t + 2]
  | .ld3Lane t _ _ _ => [t, t + 1, t + 2]
  | .clz d _ => [d]
  | .neg d _ => [d]
  | .ushrImm d _ _ => [d]
  | .uqshlImm d _ _ => [d]
  | .cmhi d _ _ => [d]
  | .and d _ _ => [d]
  | .orr d _ _ => [d]
  | .ushl d _ _ => [d]
  | .uqshl d _ _ => [d]
  | .uqadd d _ _ => [d]
  | .uqsub d _ _ => [d]
  | _ => []

theorem exec_x_of_notMem {op : Op} {r : Fin 31} (outside : r ∉ op.writesX) (s : Cpu) :
    (isa.exec op s).x r = s.x r := by
  cases op with
  | lsr width => cases width <;> exact Function.update_of_ne (List.ne_of_not_mem_cons outside) _ _
  | dup arrangement => cases arrangement <;> rfl
  | subs | ldr | str | ld3 | st3 | ld3Lane | st1Lane =>
      exact Function.update_of_ne (List.ne_of_not_mem_cons outside) _ _
  | cmp | clz | neg | ushrImm | uqshlImm | cmhi | and | orr | ushl | uqshl | uqadd | uqsub => rfl

theorem exec_v_of_notMem {op : Op} {r : Fin 32} (outside : r ∉ op.writesV) (s : Cpu) :
    (isa.exec op s).v r = s.v r := by
  have three {t : Fin 32} (outside : r ∉ [t, t + 1, t + 2]) (first second third : Lanes) (s : Cpu) :
      (((s.setV t first).setV (t + 1) second).setV (t + 2) third).v r = s.v r := by
    simp only [List.mem_cons, List.not_mem_nil, or_false, not_or] at outside
    obtain ⟨one, two, last⟩ := outside
    simp only [Cpu.setV, Function.update_of_ne last, Function.update_of_ne two, Function.update_of_ne one]
  cases op with
  | lsr width => cases width <;> rfl
  | dup arrangement => cases arrangement <;> exact Function.update_of_ne (List.ne_of_not_mem_cons outside) _ _
  | ld3 t n post => exact three outside _ _ _ (s.access .load n 48 post)
  | ld3Lane t lane n post => exact three outside _ _ _ (s.access .load n 3 post)
  | subs | cmp | str | st3 | st1Lane => rfl
  | ldr | clz | neg | ushrImm | uqshlImm | cmhi | and | orr | ushl | uqshl | uqadd | uqsub =>
      exact Function.update_of_ne (List.ne_of_not_mem_cons outside) _ _

variable {Label : Type} [DecidableEq Label] {text : List (Line Op Cond Label)} {name : Label} {s final : Cpu}

/-- A run keeps the general registers that the text never writes. -/
theorem returns_x {r : Fin 31} (outside : ∀ op ∈ Assembly.ops text, r ∉ op.writesX)
    (returns : Assembly.Returns isa text (Assembly.codeAt name text) s final) : final.x r = s.x r :=
  returns.keeps_of_text (fun t => t.x r = s.x r)
    (fun op member t kept => (exec_x_of_notMem (outside op member) t).trans kept) (Assembly.codeAt_subset name text) rfl

/-- A run keeps the vector registers that the text never writes. -/
theorem returns_v {r : Fin 32} (outside : ∀ op ∈ Assembly.ops text, r ∉ op.writesV)
    (returns : Assembly.Returns isa text (Assembly.codeAt name text) s final) : final.v r = s.v r :=
  returns.keeps_of_text (fun t => t.v r = s.v r)
    (fun op member t kept => (exec_v_of_notMem (outside op member) t).trans kept) (Assembly.codeAt_subset name text) rfl

end Aarch64

namespace Aarch32.Vector

/-- A run keeps the quadword registers that the text never writes. -/
theorem returns_q {Label : Type} [DecidableEq Label] {text : List (Line Op Cond Label)} {name : Label}
    {s final : Cpu} {k : Fin 16} (outside : ∀ op ∈ Assembly.ops text, k ∉ op.quads)
    (returns : Assembly.Returns isa text (Assembly.codeAt name text) s final) : final.q k = s.q k :=
  returns.keeps_of_text (fun t => t.q k = s.q k) (fun op member t kept => (exec_q (outside op member) t).trans kept)
    (Assembly.codeAt_subset name text) rfl

end Aarch32.Vector

end VisionServer.Library
