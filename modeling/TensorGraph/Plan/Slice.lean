/-
# Slices

The part of a graph that a computation is made of: an order of nodes, the
nodes whose values are asked for, and the placeholders that the caller
supplies.  `check` says which slices may be planned, and which fault is
reported of several.
-/
import TensorGraph.Graph.Order
import TensorGraph.Plan

namespace TensorGraph

/-- A part of a graph to be computed. -/
structure Slice (α : Type) where
  graph : Graph α
  /-- Everything to be computed; a node comes after what it reads. -/
  order : List NodeId
  outputs : List NodeId
  parameters : List NodeId

namespace Slice

variable {α : Type}

/-- The slice of everything that outputs and parameters depend on. -/
def ofRoots (graph : Graph α) (outputs parameters : List NodeId) : Except Error (Slice α) := do
  .ok ⟨graph, ← graph.dependencies (outputs ++ parameters), outputs, parameters⟩

/-- A slice is refused. -/
def refuse {β : Type} (fault : CompilationFault) : Except Error β := .error (.compilation fault)

/-- Something is asked for. -/
def checkOutputs (s : Slice α) : Except Error Unit :=
  if s.outputs.isEmpty then refuse .noOutputs else .ok ()

/-- Outputs and parameters are in the order. -/
def checkPresence (s : Slice α) : Except Error Unit :=
  match (s.outputs ++ s.parameters).find? (!s.order.contains ·) with
  | some id => refuse (.notInOrder id)
  | none => .ok ()

/-- No parameter is bound twice. -/
def checkDistinct (s : Slice α) : Except Error Unit :=
  if s.parameters.Nodup then .ok () else refuse .parameterRepeated

/-- A node is a placeholder exactly if it is a parameter. -/
def checkBinding (s : Slice α) (id : NodeId) : Except Error Unit := do
  let n ← s.graph.node id
  match n.op.isPlaceholder, s.parameters.contains id with
  | true, false => refuse (.unboundPlaceholder n.name)
  | false, true => refuse (.notPlaceholder n.name)
  | _, _ => .ok ()

/-- A node reads no assignment. -/
def checkReads (s : Slice α) (n : Node α) : Except Error Unit :=
  n.op.inputs.forM fun input => do
    let read ← s.graph.node input
    if read.op.isAssignment then refuse (.readsAssignment n.name input)

/-- Along the order, no variable is assigned twice and no assignment is read;
`assigned` are the variables assigned so far. -/
def checkAssignments (s : Slice α) : List NodeId → List NodeId → Except Error Unit
  | [], _ => .ok ()
  | id :: rest, assigned => do
    let n ← s.graph.node id
    match n.op.target? with
    | none =>
      s.checkReads n
      s.checkAssignments rest assigned
    | some target =>
      if assigned.contains target then refuse (.assignedTwice target)
      s.checkReads n
      s.checkAssignments rest (target :: assigned)

/-- The slice may be planned. -/
def check (s : Slice α) : Except Error Unit := do
  s.checkOutputs
  s.checkPresence
  s.checkDistinct
  s.order.forM s.checkBinding
  s.checkAssignments s.order []

/-- A node reads another one. -/
def reads (s : Slice α) (reader read : NodeId) : Bool :=
  (s.graph.inputsOf reader).contains read

/-- A node is an assignment, which runs after everything else. -/
def runsLast (s : Slice α) (id : NodeId) : Bool :=
  (s.graph.node? id).any (·.op.isAssignment)

/-- The value of a node is still needed once the step at `position` of the order
has run: it is asked for, or a later step or an assignment reads it. -/
def neededAfter (s : Slice α) (position : Nat) (id : NodeId) : Bool :=
  s.outputs.contains id ||
    s.order.zipIdx.any fun (reader, q) => s.reads reader id && (s.runsLast reader || position < q)

end Slice
end TensorGraph
