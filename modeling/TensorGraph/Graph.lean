/-
# Graphs

A graph is a growing sequence of nodes.  A node joins it only if every node
that it reads is already there and its shape can be told, so numbers grow
along every edge and a graph never has a cycle.
-/
import TensorGraph.Operation.OutputShape

namespace TensorGraph

/-- An operation in a graph, with the layout of its result. -/
structure Node (α : Type) where
  id : NodeId
  op : Operation α
  layout : Layout

/-- The stem of the operation and the number of the node: `add_3`. -/
def Node.name {α : Type} (n : Node α) : String := n.op.stem ++ "_" ++ toString n.id.index

/-- Nodes in the order in which they joined. -/
structure Graph (α : Type) where
  nodes : Array (Node α)

namespace Graph

variable {α : Type}

/-- The graph without nodes. -/
def empty : Graph α := ⟨#[]⟩

instance : Inhabited (Graph α) := ⟨empty⟩

/-- The number of nodes. -/
def size (g : Graph α) : Nat := g.nodes.size

/-- The node with the given number. -/
def node? (g : Graph α) (id : NodeId) : Option (Node α) := g.nodes[id.index]?

/-- The node with the given number, which may be unknown. -/
def node (g : Graph α) (id : NodeId) : Except Error (Node α) :=
  match g.node? id with
  | some n => .ok n
  | none => .error (.unknownNode id)

/-- The shape of a node's result; a scalar's for an unknown node. -/
def shapeOf (g : Graph α) (id : NodeId) : Shape :=
  (g.node? id).elim .scalar (·.layout.shape)

/-- The numbers of the nodes that a node reads; none for an unknown node. -/
def inputsOf (g : Graph α) (id : NodeId) : List NodeId :=
  (g.node? id).elim [] (·.op.inputs)

/-- Every listed node is in the graph; otherwise the first that is not is the error. -/
def known (g : Graph α) : List NodeId → Except Error Unit
  | [] => .ok ()
  | id :: rest =>
    match g.node? id with
    | some _ => g.known rest
    | none => .error (.unknownNode id)

/-- An assignment has a variable for its target. -/
def checkTarget (g : Graph α) (op : Operation α) : Except Error Unit :=
  match op.target? with
  | none => .ok ()
  | some target =>
    if (g.node? target).any (·.op.isPersistent) then .ok ()
    else .error (.shape op.kind (.notVariable target))

/-- The node that an operation becomes when it joins the graph: its inputs must
be there, its target a variable, its attributes sound, in this order. -/
def nodeFor? [Element α] (g : Graph α) (op : Operation α) : Except Error (Node α) := do
  g.known op.inputs
  g.checkTarget op
  let shape ← op.outputShape g.shapeOf
  .ok ⟨⟨g.size⟩, op, .packed (Element.kind α) shape⟩

/-- The graph with a node at its end. -/
def push (g : Graph α) (n : Node α) : Graph α := ⟨g.nodes.push n⟩

/-- The graph grown by an operation, and the node that it became. -/
def add [Element α] (g : Graph α) (op : Operation α) : Except Error (Graph α × Node α) := do
  let n ← g.nodeFor? op
  .ok (g.push n, n)

end Graph
end TensorGraph
