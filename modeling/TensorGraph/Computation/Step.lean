/-
# Steps

One step computes one node: it reads its inputs where the plan put them and
writes its output block.  An input in the output's own buffer is read in
place by steps that work element by element; an assignment of a variable to
itself leaves it alone; any other step refuses to read what it is writing.
-/
import TensorGraph.Graph
import TensorGraph.Kernel.Contract
import TensorGraph.Kernel.Elementwise
import TensorGraph.Kernel.MaxPool
import TensorGraph.Kernel.OneHot
import TensorGraph.Kernel.Reduce
import TensorGraph.Plan
import TensorGraph.Storage

namespace TensorGraph

/-- The storage of all buffers of a plan, in their order.  All of it is in its place: a step
makes a new block out of what it reads, and nothing sees the memory meanwhile. -/
abbrev Memory (α : Type) := Array (Storage α)

namespace Memory

variable {α : Type}

/-- The storage of one buffer. -/
def storage (m : Memory α) (buffer : Nat) : Storage α := m.getD buffer ⟨#[], 0⟩

/-- The value that lies at a place. -/
def view (m : Memory α) (place : Placement) : View α :=
  ⟨(m.storage place.buffer).data, place.layout⟩

/-- The block that holds the value at a place. -/
def block (m : Memory α) (place : Placement) : Array α :=
  (m.storage place.buffer).block place.layout.start place.layout.size

/-- The memory with a block written to a place. -/
def write (m : Memory α) (place : Placement) (block : Array α) : Memory α :=
  m.setIfInBounds place.buffer ((m.storage place.buffer).write place.layout.start block)

end Memory

/-- The computation of one node. -/
structure Step (α : Type) where
  name : String
  node : NodeId
  op : Operation α
  inputs : List Placement
  output : Placement

namespace Step

variable {α : Type}

/-- An operand of a step that works element by element. -/
def operand (s : Step α) (m : Memory α) (place : Placement) : Operand α :=
  if place.buffer = s.output.buffer then .inPlace else .view (m.view place)

/-- An input of a step that must not write over it. -/
def input (s : Step α) (m : Memory α) (place : Placement) : Except Error (View α) :=
  if place.buffer = s.output.buffer then .error (.compilation (.readsOwnOutput s.name))
  else .ok (m.view place)

/-- What the step makes of its output block. -/
def outcome [Element α] (s : Step α) (m : Memory α) (block : Array α) : Outcome α :=
  match s.op, s.inputs with
  | .binary operator _ _, [lhs, rhs] =>
    Kernel.binary operator (s.operand m lhs) (s.operand m rhs) block
  | .unary operator _, [v] => Kernel.unary operator (s.operand m v) block
  | .reshape _ _, [v] => .after (s.input m v) block fun v => .complete v.elements
  | .reduce reduction _ axes, [v] =>
    .after (s.input m v) block fun v => Kernel.reduce reduction axes v block
  | .dot _ _ contracted, [lhs, rhs] =>
    .after (s.input m lhs) block fun lhs =>
      .after (s.input m rhs) block fun rhs => Kernel.contract contracted lhs rhs block
  | .oneHot _ depth axis, [v] =>
    .after (s.input m v) block fun v => Kernel.oneHot depth axis v block
  | .maxPool _ window strides, [v] =>
    .after (s.input m v) block fun v =>
      Kernel.maxPool window.dims strides v s.output.layout block
  | .custom operator _, inputs =>
    .after (inputs.mapM (s.input m)) block fun views =>
      operator.compute views s.output.layout block
  | .assign _ _, [_, value] =>
    match s.operand m value with
    | .inPlace => .complete block
    | .view v => .complete v.elements
  | op, _ => .stopped block (.compilation (.noComputeStep op.kind))

/-- The memory after the step, and the error that stopped it. -/
def run [Element α] (s : Step α) (m : Memory α) : Memory α × Option Error :=
  let result := s.outcome m (m.block s.output)
  (m.write s.output result.block, result.failure)

/-- The memory after some steps in order; the first error stops them. -/
def runAll [Element α] : List (Step α) → Memory α → Memory α × Option Error
  | [], m => (m, none)
  | s :: rest, m =>
    match s.run m with
    | (m, none) => runAll rest m
    | (m, some error) => (m, some error)

end Step
end TensorGraph
