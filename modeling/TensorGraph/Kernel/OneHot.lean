/-
# One-hot encoding

A tensor of category numbers is spread over a new axis: of the elements
along it, the one at the category is one and the others are zero.  The first
input element that is not a category stops the step.
-/
import TensorGraph.Outcome
import TensorGraph.View

namespace TensorGraph.Kernel

variable {α : Type}

/-- A whole number from zero up to, but without, `depth`.  To be cut off to a whole number
leaves what is one already as it is. -/
def isCategory (depth : Nat) (x : Float) : Bool :=
  x.toUInt64.toFloat == x && 0 ≤ x && x < depth.toFloat

/-- The position of category `c` for the `i`-th input element, where `inner`
elements lie behind the new axis. -/
def hotPosition (depth inner i c : Nat) : Nat := (i / inner * depth + c) * inner + i % inner

/-- Marks the categories of the listed input elements. -/
def markCategories [Element α] (depth inner : Nat) (input : View α) :
    List Nat → Array α → Outcome α
  | [], block => .complete block
  | i :: rest, block =>
    let x := Element.toFloat (input.get i)
    if isCategory depth x then
      markCategories depth inner input rest
        (block.setIfInBounds (hotPosition depth inner i x.toUInt64.toNat) Element.one)
    else .stopped block (.plain (.notCategory x depth))

/-- Spreads categories over a new axis of size `depth` at `axis`. -/
def oneHot [Element α] (depth axis : Nat) (input : View α) (block : Array α) : Outcome α :=
  let inner := RowMajor.count (input.layout.shape.dims.drop axis)
  markCategories depth inner input (List.range input.size)
    (Array.replicate block.size Element.zero)

end TensorGraph.Kernel
