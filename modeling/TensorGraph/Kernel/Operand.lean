/-
# Operands

Where a step that works element by element finds an operand: in another
buffer, through a view, or in its own output block, where the element that
is about to be overwritten is the operand.
-/
import TensorGraph.Outcome
import TensorGraph.View

namespace TensorGraph

/-- Where a step finds an operand. -/
inductive Operand (α : Type) where
  /-- In the output block itself, position by position. -/
  | inPlace
  | view (v : View α)

namespace Operand

variable {α : Type} [Element α]

/-- The `i`-th element of the operand, where the output block holds `current`. -/
def read : Operand α → Nat → α → α
  | inPlace, _, current => current
  | view v, i, _ => v.get i

end Operand
end TensorGraph
