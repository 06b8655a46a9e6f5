/-
# Contraction

The last axes of one tensor are summed against the first axes of another.
With each group of axes read as one, this is the product of two matrices:
element `(i, j)` is the sum over `k` of `lhs (i, k) · rhs (k, j)`, taken
from zero in the order of `k`.
-/
import TensorGraph.Outcome
import TensorGraph.View

namespace TensorGraph.Kernel

variable {α : Type}

/-- The sum of products of row `i` of `lhs` and column `j` of `rhs`, both of
length `common`; a row of `rhs` has `columns` elements. -/
def innerProduct [Element α] (lhs rhs : View α) (common columns i j : Nat) : α :=
  (List.range common).foldl
    (fun acc k => Element.add acc
      (Element.mul (lhs.get (i * common + k)) (rhs.get (k * columns + j))))
    Element.zero

/-- Contracts the last `contracted` axes of `lhs` with the first of `rhs`. -/
def contract [Element α] (contracted : Nat) (lhs rhs : View α) (block : Array α) : Outcome α :=
  let leftDims := lhs.layout.shape.dims
  let rightDims := rhs.layout.shape.dims
  let common := RowMajor.count (leftDims.drop (leftDims.length - contracted))
  let columns := RowMajor.count (rightDims.drop contracted)
  .complete <| block.mapIdx fun o _ =>
    innerProduct lhs rhs common columns (o / columns) (o % columns)

end TensorGraph.Kernel
