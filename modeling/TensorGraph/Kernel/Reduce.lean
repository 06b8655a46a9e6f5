/-
# Reduction

The listed axes of a tensor are folded away.  The elements of the input are
visited in row-major order, and each is folded into the output element that
has its coordinates along the other axes.
-/
import TensorGraph.Outcome
import TensorGraph.View

namespace TensorGraph.Kernel

variable {α : Type}

/-- The position, in the output, of the `i`-th element of a tensor with the given
sizes, of which only the axes `kept` remain. -/
def keptPosition (dims kept : List Nat) (i : Nat) : Nat :=
  let coordinates := RowMajor.coordinates dims i
  RowMajor.position (kept.map fun a => coordinates.getD a 0)
    (RowMajor.strides (kept.map fun a => dims.getD a 0))

/-- Folds the listed axes of the input away. -/
def reduce [Element α] (reduction : Reduction) (axes : List Nat) (input : View α)
    (block : Array α) : Outcome α :=
  let dims := input.layout.shape.dims
  let kept := Shape.keptAxes dims.length axes
  let start := Array.replicate block.size reduction.identity
  .complete <| (List.range input.size).foldl
    (fun out i => out.modify (keptPosition dims kept i) fun acc =>
      reduction.combine acc (input.get i))
    start

end TensorGraph.Kernel
