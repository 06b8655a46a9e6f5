/-
# Engines

An engine compiles slices of graphs into computations on one device and
owns them until it is closed.  A computation is named by its number; it can
still be asked about after it was released.
-/
import TensorGraph.Computation.Lifecycle
import TensorGraph.Plan.Draft
import TensorGraph.Workspace

namespace TensorGraph

/-- How an engine compiles. -/
structure EngineConfig where
  /-- Nodes that work element by element may write over inputs nothing else needs. -/
  overwriting : Bool
  /-- Returned memory is kept for later computations. -/
  pooling : Bool
  /-- Where initial values take their samples from. -/
  seed : UInt64
deriving DecidableEq

/-- Overwriting, without a pool, seed zero. -/
instance : Inhabited EngineConfig := ⟨⟨true, false, 0⟩⟩

/-- The values that a run gives. -/
inductive Outputs (α : Type) where
  | one (value : Tensor α)
  | many (values : List (Tensor α))
deriving DecidableEq

namespace Outputs

variable {α : Type}

/-- One value stands alone; none or several are a list. -/
def ofList : List (Tensor α) → Outputs α
  | [value] => one value
  | values => many values

/-- The values as a list. -/
def toList : Outputs α → List (Tensor α)
  | one value => [value]
  | many values => values

/-- The value, if it stands alone. -/
def single : Outputs α → Except Error (Tensor α)
  | one value => .ok value
  | many values => .error (.plain (.notSingle values.length))

end Outputs

/-- Computations that were compiled for one device. -/
structure Engine (α : Type) where
  config : EngineConfig
  computations : Array (Computation α)
  closed : Bool

namespace Engine

variable {α δ : Type}

/-- An engine that has compiled nothing. -/
def new (config : EngineConfig) : Engine α := ⟨config, #[], false⟩

/-- Handles of one slice live in the graph of its first output. -/
def sliceOf (w : Workspace α) (outputs parameters : List Handle) : Except Error (Slice α) :=
  match outputs with
  | [] => .error (.compilation .noOutputs)
  | first :: _ =>
    if (outputs ++ parameters).all (·.graph = first.graph) then
      Slice.ofRoots (w.graph first.graph) (outputs.map (·.node)) (parameters.map (·.node))
    else .error (.compilation .differentGraphs)

/-- The computation of a slice, without storage. -/
def prepare (config : EngineConfig) (w : Workspace α) (outputs parameters : List Handle) :
    Except Error (Computation α) := do
  let slice ← sliceOf w outputs parameters
  let plan ← slice.plan config.overwriting
  Computation.bind slice.graph plan config.seed

/-- Compiles, allocates and populates a computation.  Its number is the answer; a
failure leaves nothing allocated. -/
def compile [Element α] [Device δ α] (e : Engine α) (device : δ) (w : Workspace α)
    (outputs parameters : List Handle) : Engine α × δ × Except Error Nat :=
  if e.closed then (e, device, .error (.released "transformer"))
  else
    match prepare e.config w outputs parameters with
    | .error error => (e, device, .error error)
    | .ok c =>
      match c.allocate device with
      | (_, device, .error error) => (e, device, .error error)
      | (c, device, .ok ()) =>
        match c.populate with
        | (c, .error error) => (e, (c.release device).2, .error error)
        | (c, .ok ()) =>
          ({ e with computations := e.computations.push c }, device, .ok e.computations.size)

/-- The computation with the given number, if there is one. -/
def computation? (e : Engine α) (i : Nat) : Option (Computation α) := e.computations[i]?

/-- The engine in which one computation is another. -/
def update (e : Engine α) (i : Nat) (c : Computation α) : Engine α :=
  { e with computations := e.computations.setIfInBounds i c }

/-- Runs a computation on one tensor per parameter. -/
def call [Element α] [Device δ α] (e : Engine α) (device : δ) (i : Nat)
    (inputs : List (Tensor α)) : Engine α × δ × Except Error (Outputs α) :=
  match e.computation? i with
  | none => (e, device, .error Computation.releasedError)
  | some c =>
    let (c, device, result) := c.run device inputs
    (e.update i c, device, result.map Outputs.ofList)

/-- Replaces the storage behind a buffer of a computation. -/
def replace (e : Engine α) (i : Nat) (name : String) (s : Storage α) :
    Engine α × Except Error (Storage α) :=
  match e.computation? i with
  | none => (e, .error Computation.releasedError)
  | some c =>
    let (c, result) := c.replace name s
    (e.update i c, result)

/-- Releases a computation. -/
def release [Device δ α] (e : Engine α) (device : δ) (i : Nat) : Engine α × δ :=
  match e.computation? i with
  | none => (e, device)
  | some c =>
    let (c, device) := c.release device
    (e.update i c, device)

/-- Releases all computations, in the order in which they were compiled. -/
def releaseAll [Device δ α] (device : δ) :
    List (Computation α) → List (Computation α) × δ
  | [] => ([], device)
  | c :: rest =>
    let (c, device) := c.release device
    let (rest, device) := releaseAll device rest
    (c :: rest, device)

/-- Releases all computations and compiles no more. -/
def close [Device δ α] (e : Engine α) (device : δ) : Engine α × δ :=
  let (computations, device) := releaseAll device e.computations.toList
  ({ e with computations := computations.toArray, closed := true }, device)

end Engine
end TensorGraph
