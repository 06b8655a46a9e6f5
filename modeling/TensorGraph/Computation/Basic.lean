/-
# Computations

A computation is a plan bound to the operations of its nodes, with the
storage that it holds between allocation and release.
-/
import TensorGraph.Computation.Listing

namespace TensorGraph

/-- How far a computation has come. -/
inductive Phase where
  | unallocated
  | allocated
  /-- Literals and initial values are in place. -/
  | populated
  /-- At least one run has succeeded. -/
  | ready
  | released
deriving DecidableEq, Inhabited

namespace Phase

/-- The phase as it is reported. -/
def name : Phase → String
  | unallocated => "Unallocated"
  | allocated => "Allocated"
  | populated => "Initialized"
  | ready => "Ready"
  | released => "Released"

/-- Phases in the order in which they are passed. -/
def rank : Phase → Nat
  | unallocated => 0
  | allocated => 1
  | populated => 2
  | ready => 3
  | released => 4

end Phase

/-- A value that is put in place before the first run. -/
structure Preset (α : Type) where
  node : NodeId
  op : Operation α
  output : Placement

/-- A plan with its operations, its storage and how far it has come. -/
structure Computation (α : Type) where
  plan : Plan
  steps : List (Step α)
  presets : List (Preset α)
  /-- Where all initial values take their samples from. -/
  seed : UInt64
  listing : String
  memory : Memory α
  phase : Phase

namespace Computation

variable {α : Type}

/-- The step of a node. -/
def bindStep (g : Graph α) (p : Plan) (id : NodeId) : Except Error (Step α) := do
  let n ← g.node id
  let inputs ← n.op.inputs.mapM p.placement
  .ok ⟨"compute_" ++ n.name, id, n.op, inputs, ← p.placement id⟩

/-- The preset of a buffer. -/
def bindPreset (g : Graph α) (p : Plan) (b : Buffer) : Except Error (Preset α) := do
  let n ← g.node b.node
  .ok ⟨b.node, n.op, ← p.placement b.node⟩

/-- A plan bound to the graph that it was made from. -/
def bind (g : Graph α) (p : Plan) (seed : UInt64) : Except Error (Computation α) := do
  let steps ← p.steps.mapM (bindStep g p)
  let presets ← (p.buffers.toList.filter (·.role.populated)).mapM (bindPreset g p)
  .ok ⟨p, steps, presets, seed, Listing.render p steps g, #[], .unallocated⟩

end Computation
end TensorGraph
