/-
# Node numbers

Nodes are numbered in the order in which they join their graph.
-/
namespace TensorGraph

/-- The number of a node in its graph. -/
structure NodeId where
  index : Nat
deriving DecidableEq, Inhabited

namespace NodeId

/-- The number as messages show it: `%3`. -/
def text (id : NodeId) : String := "%" ++ toString id.index

end NodeId
end TensorGraph
