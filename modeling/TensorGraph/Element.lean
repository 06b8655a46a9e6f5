/-
# Elements

What a tensor program needs to know of its elements: three constants, the
wrapping or rounding arithmetic, an order test, and the way to a 64-bit
float and back.  Division is the only operation that may have no result.
-/
import TensorGraph.Element.Kind

namespace TensorGraph

/-- A type of tensor elements. -/
class Element (α : Type) where
  /-- The tag of the type. -/
  kind : ElementKind
  zero : α
  one : α
  /-- The least value, from which a maximum starts. -/
  lowest : α
  add : α → α → α
  sub : α → α → α
  mul : α → α → α
  neg : α → α
  /-- The quotient, unless the type has no value for it. -/
  div? : α → α → Option α
  /-- Strictly less; never holds of an incomparable pair. -/
  lt : α → α → Bool
  /-- The value as a 64-bit float, rounded to nearest. -/
  toFloat : α → Float
  /-- The value of this type for a 64-bit float.  Whole-number types drop the
  fraction, stop at their bounds and take zero for a NaN. -/
  ofFloat : Float → α

end TensorGraph
