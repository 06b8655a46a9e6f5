/-
# Shapes

The sizes of a tensor along its axes, outermost axis first.  The shape
without axes belongs to a scalar, which has one element; a shape with an
axis of size zero has none.
-/
import TensorGraph.RowMajor
import TensorGraph.Text.Sequence

namespace TensorGraph

/-- The sizes of a tensor along its axes. -/
structure Shape where
  /-- One size per axis, outermost first. -/
  dims : List Nat
deriving DecidableEq, Inhabited

namespace Shape

/-- The shape of a scalar: no axes, one element. -/
def scalar : Shape := ⟨[]⟩

/-- The number of axes. -/
def rank (s : Shape) : Nat := s.dims.length

/-- The number of elements.  This is an exact number; a product of words has it
only if it is below `UInt64.size`, and is the remainder otherwise. -/
def size (s : Shape) : Nat := RowMajor.count s.dims

/-- The shape as messages show it: `(2, 3)`. -/
def text (s : Shape) : String := Text.parenthesized s.dims

/-- The sizes along the named axes, in the order in which they are named. -/
def select (s : Shape) (axes : List Nat) : Shape :=
  ⟨axes.map fun a => s.dims.getD a 0⟩

/-- The axes of a tensor with `rank` axes that `axes` does not list, ascending. -/
def keptAxes (rank : Nat) (axes : List Nat) : List Nat :=
  (List.range rank).filter fun a => !axes.contains a

/-- The shape that is left when the listed axes are removed. -/
def without (s : Shape) (axes : List Nat) : Shape :=
  s.select (keptAxes s.rank axes)

/-- Every listed axis exists in a tensor with `rank` axes, and none is listed twice. -/
def distinctAxes (rank : Nat) (axes : List Nat) : Bool :=
  axes.all (· < rank) && decide axes.Nodup

@[simp] theorem size_scalar : scalar.size = 1 := rfl

@[simp] theorem rank_scalar : scalar.rank = 0 := rfl

@[simp] theorem rank_select (s : Shape) (axes : List Nat) :
    (s.select axes).rank = axes.length := by
  simp [rank, select]

end Shape
end TensorGraph
