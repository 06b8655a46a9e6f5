/-
# Workspaces

Several graphs are built side by side.  A handle names a node of one of
them and remembers its layout; a request combines handles into a new node.
Operands of one request must live in one graph.
-/
import TensorGraph.Graph

namespace TensorGraph

/-- A node of one of the graphs of a workspace. -/
structure Handle where
  graph : Nat
  node : NodeId
  layout : Layout
deriving DecidableEq, Inhabited

/-- The shape of the node's result. -/
def Handle.shape (h : Handle) : Shape := h.layout.shape

/-- A call that asks for a new node. -/
inductive Request (α : Type) where
  /-- Any operation, its inputs given by number. -/
  | node (graph : Nat) (op : Operation α)
  | binary (operator : BinaryOperator) (lhs rhs : Handle)
  | unary (operator : UnaryOperator) (input : Handle)
  | broadcast (input : Handle) (shape : Shape) (axes : List Nat)
  | reorder (input : Handle) (order : List Nat)
  | reshape (input : Handle) (shape : Shape)
  | reduce (reduction : Reduction) (input : Handle) (axes : List Nat)
  | dot (lhs rhs : Handle) (contracted : Nat)
  /-- The contraction of one axis, for matrices only. -/
  | matmul (lhs rhs : Handle)
  | oneHot (input : Handle) (depth axis : Nat)
  | maxPool (input : Handle) (window : Shape) (strides : List Nat)
  | custom (operator : CustomOperator α) (inputs : List Handle)
  | assign (target value : Handle)

namespace Request

variable {α : Type}

/-! ## Requests for sources -/

/-- A value that the caller supplies for every run. -/
def placeholder (graph : Nat) (shape : Shape) : Request α := .node graph (.placeholder shape)

/-- A literal. -/
def constant (graph : Nat) (shape : Shape) (values : Array α) : Request α :=
  .node graph (.constant shape values)

/-- One value repeated over a shape. -/
def fill (graph : Nat) (shape : Shape) (value : α) : Request α :=
  constant graph shape #[value]

/-- A literal scalar. -/
def scalar (graph : Nat) (value : α) : Request α := fill graph .scalar value

/-- Zeros everywhere. -/
def zeros [Element α] (graph : Nat) (shape : Shape) : Request α := fill graph shape Element.zero

/-- Ones everywhere. -/
def ones [Element α] (graph : Nat) (shape : Shape) : Request α := fill graph shape Element.one

/-- A value that persists between runs. -/
def persistent (graph : Nat) (shape : Shape) (init : InitialValue α) : Request α :=
  .node graph (.persistent shape init)

/-- Windows that move by one element along every axis. -/
def maxPoolUnit (input : Handle) (window : Shape) : Request α :=
  .maxPool input window (List.replicate window.rank 1)

/-! ## What a request asks for -/

/-- Two operands live in one graph; otherwise the second is the error. -/
def together (first other : Handle) : Except Error Unit :=
  if first.graph = other.graph then .ok () else .error (.unknownNode other.node)

/-- The graph that a request adds to and the operation that it adds, once its
operands are known to fit. -/
def resolve : Request α → Except Error (Nat × Operation α)
  | node graph op => .ok (graph, op)
  | binary operator lhs rhs => do
    together lhs rhs
    .ok (lhs.graph, .binary operator lhs.node rhs.node)
  | unary operator input => .ok (input.graph, .unary operator input.node)
  | broadcast input shape axes => .ok (input.graph, .broadcast input.node shape axes)
  | reorder input order => .ok (input.graph, .reorder input.node order)
  | reshape input shape => .ok (input.graph, .reshape input.node shape)
  | reduce reduction input axes => .ok (input.graph, .reduce reduction input.node axes)
  | dot lhs rhs contracted => do
    together lhs rhs
    .ok (lhs.graph, .dot lhs.node rhs.node contracted)
  | matmul lhs rhs => do
    if lhs.shape.rank ≠ 2 ∨ rhs.shape.rank ≠ 2 then
      .error (.shape "dot" (.notMatrices lhs.shape rhs.shape))
    together lhs rhs
    .ok (lhs.graph, .dot lhs.node rhs.node 1)
  | oneHot input depth axis => .ok (input.graph, .oneHot input.node depth axis)
  | maxPool input window strides => .ok (input.graph, .maxPool input.node window strides)
  | custom operator [] => .error (.plain (.noCustomInputs operator.name))
  | custom operator (first :: rest) => do
    rest.forM (together first)
    .ok (first.graph, .custom operator ((first :: rest).map (·.node)))
  | assign target value => do
    together target value
    .ok (target.graph, .assign target.node value.node)

end Request

/-- Graphs that are built side by side. -/
structure Workspace (α : Type) where
  graphs : Array (Graph α)

namespace Workspace

variable {α : Type}

/-- A workspace without graphs. -/
def empty : Workspace α := ⟨#[]⟩

/-- The graph with the given number; an empty one when there is none. -/
def graph (w : Workspace α) (i : Nat) : Graph α := w.graphs.getD i .empty

/-- The workspace with one more graph, and its number. -/
def addGraph (w : Workspace α) : Workspace α × Nat := (⟨w.graphs.push .empty⟩, w.graphs.size)

/-- The workspace in which one graph has grown by an operation, and a handle to
the new node. -/
def add [Element α] (w : Workspace α) (i : Nat) (op : Operation α) :
    Except Error (Workspace α × Handle) := do
  let n ← (w.graph i).nodeFor? op
  .ok (⟨w.graphs.modify i (·.push n)⟩, ⟨i, n.id, n.layout⟩)

/-- The workspace after a request, and a handle to the new node. -/
def build [Element α] (w : Workspace α) (request : Request α) :
    Except Error (Workspace α × Handle) := do
  let (i, op) ← request.resolve
  w.add i op

end Workspace
end TensorGraph
