/-
# Layouts

A layout says how a tensor lies in a buffer that it does not own: its shape,
the distance between neighbours along each axis, and where it begins.
Strides count elements, the offset counts bytes.

The three operations on layouts (`reshape`, `transpose`, `broadcast`) read
the same buffer in another way; none of them moves an element.

All numbers here are exact.  A machine has words for them, and what it computes
with those wraps around (`WordLayout`): sizes and places are the same as long as
the number of elements and the extent are below `UInt64.size`.
-/
import TensorGraph.Shape
import TensorGraph.RowMajor
import TensorGraph.Element.Kind

namespace TensorGraph

/-- How a tensor lies in a buffer. -/
structure Layout where
  kind : ElementKind
  shape : Shape
  /-- Distance in elements between neighbours, one per axis. -/
  strides : List Nat
  /-- Distance in bytes from the beginning of the buffer. -/
  byteOffset : Nat
deriving DecidableEq, Inhabited

namespace Layout

/-- Elements side by side in row-major order from the beginning of the buffer. -/
def packed (kind : ElementKind) (shape : Shape) : Layout :=
  ⟨kind, shape, RowMajor.strides shape.dims, 0⟩

/-- The number of axes. -/
def rank (l : Layout) : Nat := l.shape.rank

/-- The number of elements; in words, only if it is below `UInt64.size`. -/
def size (l : Layout) : Nat := l.shape.size

/-- Where the first element lies, counted in elements. -/
def start (l : Layout) : Nat := l.byteOffset / l.kind.bytes

/-- The sizes of the axes that have a stride. -/
def strided (l : Layout) : List Nat := l.shape.dims.take l.strides.length

/-- The elements lie side by side in row-major order. -/
def isPacked (l : Layout) : Bool := RowMajor.dense l.strided l.strides

/-- Where in the buffer the `i`-th element of the tensor lies; in words, only if
that place is below `UInt64.size`, as every place below the extent of a layout is
whose extent is a word. -/
def locate (l : Layout) (i : Nat) : Nat :=
  l.start + RowMajor.position (RowMajor.coordinates l.strided i) l.strides

/-- How many elements a buffer needs for this layout to fit; in words, only if
that is below `UInt64.size`. -/
def extent (l : Layout) : Nat :=
  if l.size = 0 then l.start
  else l.start + RowMajor.position (l.strided.map (· - 1)) l.strides + 1

/-- The same place read in another shape, side by side. -/
def reshape (l : Layout) (shape : Shape) : Layout :=
  { l with shape, strides := RowMajor.strides shape.dims }

/-- The same place with its axes permuted: axis `k` of the result is axis `order[k]`. -/
def transpose (l : Layout) (order : List Nat) : Layout :=
  { l with
    shape := l.shape.select order
    strides := order.map fun a => l.strides.getD a 0 }

/-- The strides of `rank` axes from `axis` on, of which the listed ones repeat
their content and the others take over the given strides in order. -/
def repeatedStrides (axes : List Nat) : Nat → Nat → List Nat → List Nat
  | 0, _, _ => []
  | rank + 1, axis, given =>
    if axes.contains axis then 0 :: repeatedStrides axes rank (axis + 1) given
    else given.headD 0 :: repeatedStrides axes rank (axis + 1) given.tail

/-- The same place repeated along the listed axes of `shape`. -/
def broadcast (l : Layout) (shape : Shape) (axes : List Nat) : Layout :=
  { l with shape, strides := repeatedStrides axes shape.rank 0 l.strides }

@[simp] theorem start_packed (k : ElementKind) (s : Shape) : (packed k s).start = 0 := by
  simp [packed, start]

@[simp] theorem size_packed (k : ElementKind) (s : Shape) : (packed k s).size = s.size := rfl

theorem strided_packed (k : ElementKind) (s : Shape) : (packed k s).strided = s.dims := by
  simp [packed, strided]

theorem isPacked_packed (k : ElementKind) (s : Shape) : (packed k s).isPacked = true := by
  simp only [isPacked, strided_packed]
  exact RowMajor.dense_strides s.dims

theorem isPacked_reshape (l : Layout) (s : Shape) : (l.reshape s).isPacked = true := by
  have : (l.reshape s).strided = s.dims := by simp [reshape, strided]
  simp only [isPacked, this]
  exact RowMajor.dense_strides s.dims

end Layout
end TensorGraph
