/-
# Planning

The plan of a slice is drafted node by node along the order.

| node | where its value lies |
| :-- | :-- |
| reshape of a value that lies side by side | where that value lies |
| other order of axes, repetition along axes | where the input lies |
| assignment | where its variable lies |
| element by element, over an input that nothing else needs | where that input lies |
| anything else | in a buffer of its own |

Assignments get their steps after all others, so that every other step sees
each variable as it was when the run began.  Once all values are placed,
each buffer is made just large enough for what lies in it.
-/
import TensorGraph.Plan.Slice

namespace TensorGraph

/-- A plan in the making. -/
structure Draft where
  buffers : Array Buffer
  placements : NodeMap Placement
  /-- Steps other than assignments, in order. -/
  steps : List NodeId
  /-- Steps of assignments, in order. -/
  updates : List NodeId
  overwrites : List Overwrite
  /-- Which nodes have been placed in which buffer, latest first. -/
  occupants : List (Nat × NodeId)
deriving DecidableEq

namespace Draft

variable {α : Type}

/-- Nothing is placed yet. -/
def empty : Draft := ⟨#[], .empty, [], [], [], []⟩

/-- Where the value of a node lies. -/
def placement (d : Draft) (id : NodeId) : Except Error Placement :=
  match d.placements.get? id with
  | some place => .ok place
  | none => .error (.compilation (.noPlacement id))

/-- The buffer holds scratch. -/
def isScratch (d : Draft) (buffer : Nat) : Bool :=
  (d.buffers[buffer]?).any (·.role = .intermediate)

/-- Nothing that was placed in the buffer is needed after the step at `position`. -/
def isFree (d : Draft) (s : Slice α) (position buffer : Nat) : Bool :=
  d.occupants.all fun (b, id) => b != buffer || !s.neededAfter position id

/-! ## Overwriting an input -/

/-- The node at `position` may write over the value at `place`, as far as that
value and its buffer are concerned. -/
def mayOverwrite (d : Draft) (s : Slice α) (position : Nat) (n : Node α) (place : Placement) :
    Bool :=
  place.layout.shape = n.layout.shape && place.layout.isPacked &&
    d.isScratch place.buffer && d.isFree s position place.buffer

/-- Every operand that lies in the buffer of `place` is read at the same position
as it is written. -/
def aligned (place : Placement) (operands : List Placement) : Bool :=
  operands.all fun other => other.buffer != place.buffer || other.layout = place.layout

/-- The first of the given inputs that the node may write over. -/
def overwritten? (d : Draft) (s : Slice α) (position : Nat) (n : Node α) :
    List NodeId → Except Error (Option NodeId)
  | [] => .ok none
  | input :: rest => do
    let place ← d.placement input
    if d.mayOverwrite s position n place then
      let operands ← n.op.inputs.mapM d.placement
      if aligned place operands then .ok (some input)
      else d.overwritten? s position n rest
    else d.overwritten? s position n rest

/-! ## Placing a node -/

/-- What a new buffer of a node is for. -/
def roleOf : Operation α → BufferRole
  | .placeholder _ => .parameter
  | .constant _ _ => .constant
  | .persistent _ _ => .persistent
  | _ => .intermediate

/-- How a node comes by its place. -/
inductive Origin where
  /-- Its value needs a new buffer. -/
  | fresh
  /-- It reads the value of another node in a new way. -/
  | shared (place : Placement)
  /-- It is computed over the value of an input. -/
  | over (input : NodeId) (place : Placement)
deriving DecidableEq

/-- How the node at `position` comes by its place. -/
def originOf (d : Draft) (s : Slice α) (overwriting : Bool) (position : Nat) (n : Node α) :
    Except Error Origin :=
  match n.op with
  | .reshape input shape => do
    let place ← d.placement input
    .ok (if place.layout.isPacked then
      .shared { place with layout := place.layout.reshape shape } else .fresh)
  | .reorder input order => do
    let place ← d.placement input
    .ok (.shared { place with layout := place.layout.transpose order })
  | .broadcast input shape axes => do
    let place ← d.placement input
    .ok (.shared { place with layout := place.layout.broadcast shape axes })
  | .assign target value => do
    let target ← d.placement target
    let value ← d.placement value
    if value.buffer = target.buffer ∧ value.layout ≠ target.layout then
      Slice.refuse (.overlapsTarget n.name)
    .ok (.shared target)
  | op =>
    if op.isElementwise && overwriting then do
      match ← d.overwritten? s position n op.inputs with
      | none => .ok .fresh
      | some input => .ok (.over input (← d.placement input))
    else .ok .fresh

/-- The draft with one more buffer, for a node with a value of at least one element. -/
def open? (d : Draft) (n : Node α) : Except Error (Draft × Placement) :=
  if n.layout.size = 0 then .error (.allocation n.name (.noElements n.layout.shape))
  else
    let buffer : Buffer := ⟨n.name, n.id, roleOf n.op, n.layout.kind, 0, 0⟩
    .ok ({ d with buffers := d.buffers.push buffer }, ⟨d.buffers.size, n.layout⟩)

/-- The draft in which the node lies at `place`. -/
def settle (d : Draft) (id : NodeId) (place : Placement) : Draft :=
  { d with
    placements := d.placements.insert id place
    occupants := (place.buffer, id) :: d.occupants }

/-- The draft in which the node has the step that it needs. -/
def schedule (d : Draft) (id : NodeId) (op : Operation α) (origin : Origin) : Draft :=
  match op.isAssignment, origin with
  | true, _ => { d with updates := d.updates ++ [id] }
  | false, .shared _ => d
  | false, .over input _ =>
    { d with steps := d.steps ++ [id], overwrites := d.overwrites ++ [⟨id, input⟩] }
  | false, .fresh => if op.isSource then d else { d with steps := d.steps ++ [id] }

/-- The draft after the node at `position` of the order. -/
def place (s : Slice α) (overwriting : Bool) (d : Draft) (entry : NodeId × Nat) :
    Except Error Draft := do
  let (id, position) := entry
  let n ← s.graph.node id
  let origin ← d.originOf s overwriting position n
  let (d, place) ← match origin with
    | .fresh => d.open? n
    | .shared place => .ok (d, place)
    | .over _ place => .ok (d, place)
  .ok ((d.schedule id n.op origin).settle id place)

/-! ## Sizing the buffers -/

/-- How many elements the values in a buffer need. -/
def needed (d : Draft) (buffer : Nat) : Nat :=
  (d.placements.values.filter (·.buffer = buffer)).foldl (fun n p => max n p.layout.extent) 0

/-- A buffer made just large enough. -/
def sized (d : Draft) (entry : Buffer × Nat) : Except Error Buffer :=
  let (b, i) := entry
  let elements := d.needed i
  let bytes := elements * b.kind.bytes
  if elements = 0 then .error (.allocation b.name .zeroSized)
  else if Plan.byteLimit ≤ bytes then .error (.allocation b.name .sizeOverflow)
  else .ok { b with elements, bytes }

end Draft

/-- The plan of a slice.  With `overwriting`, nodes that work element by element
may write over an input that nothing else needs. -/
def Slice.plan {α : Type} (s : Slice α) (overwriting : Bool) : Except Error Plan := do
  s.check
  let d ← s.order.zipIdx.foldlM (Draft.place s overwriting) .empty
  let buffers ← d.buffers.toList.zipIdx.mapM d.sized
  .ok {
    buffers := buffers.toArray
    placements := d.placements
    steps := d.steps ++ d.updates
    overwrites := d.overwrites
    parameters := s.parameters
    outputs := s.outputs }

end TensorGraph
