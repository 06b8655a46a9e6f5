/-
# Layouts in machine words

A `Layout` is a description with exact numbers.  What a machine holds of one are
64-bit words, and what it computes with them wraps around: `WordLayout` has the
same questions, asked of words.  It counts the elements forwards and takes a
number apart from the last axis on, one remainder at a time.

    size, isPacked, locate, extent      computed in words, wrapping around
    exact                               the layout whose numbers the words are

As long as nothing wraps around the two give the same answers.
-/
import TensorGraph.Layout

namespace TensorGraph

/-- How a tensor lies in a buffer, in machine words. -/
structure WordLayout where
  kind : ElementKind
  /-- One size per axis, outermost first. -/
  dims : List UInt64
  /-- Distance in elements between neighbours, one per axis. -/
  strides : List UInt64
  /-- Distance in bytes from the beginning of the buffer. -/
  byteOffset : UInt64
deriving DecidableEq, Inhabited

/-- The words that a machine keeps of a layout. -/
def Layout.words (l : Layout) : WordLayout where
  kind := l.kind
  dims := l.shape.dims.map UInt64.ofNat
  strides := l.strides.map UInt64.ofNat
  byteOffset := UInt64.ofNat l.byteOffset

namespace WordLayout

/-- The number of elements of a tensor with the given sizes. -/
def count (dims : List UInt64) : UInt64 := dims.foldl (· * ·) 1

/-- The weight of each axis when elements lie densely, and the weight of an axis
before them all: from the last axis on, each one is multiplied by its size. -/
def weights (dims : List UInt64) : UInt64 × List UInt64 :=
  dims.foldr (fun d acc => (acc.1 * d, acc.1 :: acc.2)) (1, [])

/-- Elements side by side in row-major order from the beginning of the buffer. -/
def packed (kind : ElementKind) (dims : List UInt64) : WordLayout :=
  ⟨kind, dims, (weights dims).2, 0⟩

variable (w : WordLayout)

/-- The layout whose numbers the words are. -/
def exact : Layout where
  kind := w.kind
  shape := ⟨w.dims.map UInt64.toNat⟩
  strides := w.strides.map UInt64.toNat
  byteOffset := w.byteOffset.toNat

/-- The number of axes. -/
def rank : Nat := w.dims.length

/-- The number of elements. -/
def size : UInt64 := count w.dims

/-- Where the first element lies, counted in elements. -/
def start : UInt64 := w.byteOffset / UInt64.ofNat w.kind.bytes

/-- The axes that have a stride: size and stride. -/
def axes : List (UInt64 × UInt64) := w.dims.zip w.strides

/-- One more axis of a test for dense strides, of which `dense` is the stride that the
axis should have. -/
def compare (axis : UInt64 × UInt64) (dense : UInt64 × Bool) : UInt64 × Bool :=
  (dense.1 * axis.1, (axis.1 == 1 || axis.2 == dense.1) && dense.2)

/-- The elements lie side by side in row-major order. -/
def isPacked : Bool := (w.axes.foldr compare (1, true)).2

/-- Takes the coordinate along an axis off a number, and goes so many strides on. -/
def advance (axis rest : UInt64 × UInt64) : UInt64 × UInt64 :=
  (rest.1 / axis.1, rest.2 + rest.1 % axis.1 * axis.2)

/-- Where in the buffer the `i`-th element of the tensor lies. -/
def locate (i : UInt64) : UInt64 := (w.axes.foldr advance (i, w.start)).2

/-- How many elements a buffer needs for this layout to fit. -/
def extent : UInt64 :=
  if w.size = 0 then w.start
  else w.start + (w.axes.map fun a => (a.1 - 1) * a.2).foldl (· + ·) 0 + 1

end WordLayout
end TensorGraph
