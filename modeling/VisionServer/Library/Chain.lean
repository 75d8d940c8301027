/-
This file follows the links of a graph in which each node has at most one link, to another node or
to an end.
-/

import Mathlib.Logic.Function.Basic

namespace VisionServer.Library

variable {Node End : Type}

/-- The links from a node lead to an end after some nodes. -/
inductive Ends (link : Node → Option (Node ⊕ End)) : Nat → Node → End → Prop where
  | here {node : Node} {target : End} (last : link node = some (.inr target)) :
      Ends link 0 node target
  | next {node other : Node} {target : End} {length : Nat} (first : link node = some (.inl other))
      (rest : Ends link length other target) : Ends link (length + 1) node target

/-- The links from a node lead to another node, which they enter once. -/
inductive Feeds (link : Node → Option (Node ⊕ End)) (into : Node) : Node → Prop where
  | direct {node : Node} (different : node ≠ into) (first : link node = some (.inl into)) :
      Feeds link into node
  | through {node other : Node} (different : node ≠ into)
      (first : link node = some (.inl other)) (rest : Feeds link into other) : Feeds link into node

variable {link : Node → Option (Node ⊕ End)}

/-- A node has one end at most. -/
theorem Ends.unique {node : Node} {first second : End} {short long : Nat}
    (one : Ends link short node first) (two : Ends link long node second) :
    short = long ∧ first = second := by
  induction one generalizing long with
  | here last =>
      cases two with
      | here last' =>
          rw [last, Option.some.injEq, Sum.inr.injEq] at last'
          exact ⟨rfl, last'⟩
      | next first' _ =>
          rw [last] at first'
          cases first'
  | next first' rest ih =>
      cases two with
      | here last' =>
          rw [first'] at last'
          cases last'
      | next second' rest' =>
          rw [first', Option.some.injEq, Sum.inl.injEq] at second'
          subst second'
          obtain ⟨lengths, ends⟩ := ih rest'
          exact ⟨congrArg (· + 1) lengths, ends⟩

theorem Feeds.ne {into node : Node} (feeds : Feeds link into node) : node ≠ into := by
  cases feeds <;> assumption

variable [DecidableEq Node] {changed : Node} {new : Option (Node ⊕ End)}

/-- A node that feeds a changed node takes over its new end. -/
theorem Feeds.ends {node : Node} {target : End} {length : Nat} (feeds : Feeds link changed node)
    (ends : Ends (Function.update link changed new) length changed target) :
    ∃ total, Ends (Function.update link changed new) total node target := by
  induction feeds with
  | direct different first =>
      refine ⟨length + 1, Ends.next ?_ ends⟩
      rw [Function.update_of_ne different]
      exact first
  | through different first _ ih =>
      obtain ⟨total, rest⟩ := ih
      refine ⟨total + 1, Ends.next ?_ rest⟩
      rw [Function.update_of_ne different]
      exact first

/-- After a change at one node, another node keeps its end or feeds the changed node. -/
theorem Ends.of_update {node : Node} {target : End} {length : Nat} (different : node ≠ changed)
    (ends : Ends (Function.update link changed new) length node target) :
    Ends link length node target ∨ Feeds link changed node ∧
      ∃ shorter < length, Ends (Function.update link changed new) shorter changed target := by
  induction ends with
  | here last =>
      rw [Function.update_of_ne different] at last
      exact Or.inl (Ends.here last)
  | @next node other target length first rest ih =>
      rw [Function.update_of_ne different] at first
      by_cases entered : other = changed
      · subst entered
        exact Or.inr ⟨Feeds.direct different first, length, Nat.lt_succ_self _, rest⟩
      · rcases ih entered with kept | ⟨feeds, shorter, less, tail⟩
        · exact Or.inl (Ends.next first kept)
        · exact Or.inr ⟨Feeds.through different first feeds, shorter, by omega, tail⟩

/-- The end that a changed node takes from another node was already the end of that node. -/
theorem Ends.of_update_next {other : Node} {target : End} {length : Nat}
    (ends : Ends (Function.update link changed (some (.inl other))) length changed target) :
    ∃ shorter, Ends link shorter other target := by
  have step : Function.update link changed (some (.inl other)) changed = some (.inl other) :=
    Function.update_self ..
  cases ends with
  | here last =>
      rw [step] at last
      cases last
  | @next _ reached _ shorter first rest =>
      rw [step, Option.some.injEq, Sum.inl.injEq] at first
      subst first
      by_cases loop : other = changed
      · subst loop
        have again := Ends.next step rest
        exact absurd (again.unique rest).1 (Nat.succ_ne_self _)
      · rcases rest.of_update loop with kept | ⟨_, least, less, tail⟩
        · exact ⟨shorter, kept⟩
        · have again := (tail.unique (Ends.next step rest)).1
          omega

end VisionServer.Library
