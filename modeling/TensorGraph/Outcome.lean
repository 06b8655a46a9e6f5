/-
# Outcomes

A step writes its output block and may stop half way.  What it wrote until then
stays written, so an outcome always carries the block and, when the step stopped,
the error as well.  How much of a block is written by then is nothing to rely on:
it depends on the order in which a kernel visits the elements.
-/
import TensorGraph.Error

namespace TensorGraph

/-- What a step leaves in its output block, and the error that stopped it. -/
structure Outcome (α : Type) where
  block : Array α
  failure : Option Error

namespace Outcome

variable {α : Type}

/-- The block, written to its end. -/
def complete (block : Array α) : Outcome α := ⟨block, none⟩

/-- The block as it is, and the error. -/
def stopped (block : Array α) (error : Error) : Outcome α := ⟨block, some error⟩

/-- Goes on with the result of a fallible preparation; its error stops the step
before anything is written. -/
def after {β : Type} (prepared : Except Error β) (block : Array α)
    (next : β → Outcome α) : Outcome α :=
  match prepared with
  | .ok value => next value
  | .error error => stopped block error

end Outcome
end TensorGraph
