/-
# Drawings

The nodes and edges of a graph as a drawing program reads them.  A label is
the name of a node followed by its shape, quoted, and then escaped once more
because the format puts quotes around it again.
-/
import TensorGraph.Graph

namespace TensorGraph.Graph

variable {α : Type}

/-- The labels of the nodes, in order. -/
def labels (g : Graph α) : List String :=
  g.nodes.toList.map fun n => n.name ++ n.layout.shape.text

/-- The edges, from a node that is read to the one that reads it. -/
def edges (g : Graph α) : List (Nat × Nat) :=
  g.nodes.toList.flatMap fun n => n.op.inputs.map fun input => (input.index, n.id.index)

/-- A text with a backslash before its quotes and backslashes. -/
def escaped (s : String) : String :=
  String.ofList (s.toList.flatMap fun c => if c = '"' ∨ c = '\\' then ['\\', c] else [c])

/-- The graph in the drawing format, one line per node and per edge. -/
def dotText (g : Graph α) : String :=
  let nodeLine := fun (i : Nat) (label : String) =>
    s!"    {i} [ label = \"{escaped (Text.quoted label)}\" ]\n"
  let edgeLine := fun (e : Nat × Nat) => s!"    {e.1} -> {e.2} [ ]\n"
  "digraph \x7b\n" ++ String.join (g.labels.zipIdx.map fun (label, i) => nodeLine i label) ++
    String.join (g.edges.map edgeLine) ++ "\x7d\n"

end TensorGraph.Graph
