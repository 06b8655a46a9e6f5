/-
# Views

A view reads a tensor out of a buffer through a layout.  Elements are named
by their row-major number in the tensor, wherever the layout puts them.
-/
import TensorGraph.Element
import TensorGraph.Layout

namespace TensorGraph

/-- A buffer's elements, read through a layout. -/
structure View (α : Type) where
  data : Array α
  layout : Layout

namespace View

variable {α : Type}

/-- The number of elements of the tensor. -/
def size (v : View α) : Nat := v.layout.size

/-- The `i`-th element of the tensor; zero where the buffer ends before it. -/
def get [Element α] (v : View α) (i : Nat) : α := v.data.getD (v.layout.locate i) Element.zero

/-- The elements of the tensor in row-major order, one by one. -/
def gather [Element α] (v : View α) : Array α :=
  Array.ofFn fun i : Fin v.size => v.get i

/-- The elements of the tensor in row-major order.  Elements that lie side by
side are taken as one block. -/
def elements [Element α] (v : View α) : Array α :=
  if v.layout.isPacked then v.data.extract v.layout.start (v.layout.start + v.size)
  else v.gather

@[simp] theorem size_gather [Element α] (v : View α) : v.gather.size = v.size := by
  simp [gather]

end View
end TensorGraph
