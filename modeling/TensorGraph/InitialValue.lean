/-
# Initial values

How a variable is populated when its computation is initialized: with one
value, with an arithmetic progression, or with samples of a distribution.
-/
import TensorGraph.Error

namespace TensorGraph

/-- How a variable is populated. -/
inductive InitialValue (α : Type) where
  /-- One value everywhere. -/
  | fill (value : α)
  /-- The `i`-th element in row-major order is `start + i · step`. -/
  | arange (start step : α)
  /-- Independent samples from `low` up to, but without, `high`, each converted to the
  element type.  Whole numbers are cut off, and may end up below `low`. -/
  | uniform (low high : Float)
  /-- Independent samples of the normal distribution, each converted to the element type. -/
  | normal (mean deviation : Float)
deriving DecidableEq

namespace InitialValue

variable {α : Type}

/-- The fault in the parameters of a distribution, if there is one. -/
def fault? : InitialValue α → Option ShapeFault
  | fill _ => none
  | arange _ _ => none
  | uniform low high =>
    if low < high && (high - low).isFinite then none else some (.uniformBounds low high)
  | normal mean deviation =>
    if deviation.isFinite && 0 ≤ deviation && mean.isFinite then none
    else some (.normalParameters mean deviation)

end InitialValue
end TensorGraph
