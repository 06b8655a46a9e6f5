/-
# Max pooling

Each output element is the maximum of one window of the input.  Windows
extend along the axes after batch and channel and start at a multiple of the
stride; the maximum is taken in row-major order of the window, from the
least value.
-/
import TensorGraph.Outcome
import TensorGraph.View

namespace TensorGraph.Kernel

variable {α : Type}

/-- Coordinates inside the input: those of the window, each `stride` times the
output coordinate, plus those inside the window. -/
def windowCoordinates : List Nat → List Nat → List Nat → List Nat
  | o :: os, s :: ss, w :: ws => (o * s + w) :: windowCoordinates os ss ws
  | _, _, _ => []

/-- The number, in the input, of the `w`-th element of the window of the output
element with the given coordinates. -/
def windowElement (inputDims window strides outer : List Nat) (w : Nat) : Nat :=
  RowMajor.position
    (outer.take 2 ++ windowCoordinates (outer.drop 2) strides (RowMajor.coordinates window w))
    (RowMajor.strides inputDims)

/-- The maximum of each window. -/
def maxPool [Element α] (window strides : List Nat) (input : View α) (output : Layout)
    (block : Array α) : Outcome α :=
  let dims := input.layout.shape.dims
  .complete <| block.mapIdx fun o _ =>
    let outer := RowMajor.coordinates output.shape.dims o
    Reduction.max.fold ((List.range (RowMajor.count window)).map fun w =>
      input.get (windowElement dims window strides outer w))

end TensorGraph.Kernel
