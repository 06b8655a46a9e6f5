/-
# Listings

A computation can be read as text: one entry per buffer to allocate and to
update it, one per step, and three that put these together.  The text is
made from the plan alone.

| entry | what it shows |
| :-- | :-- |
| `alloc_{buffer}` | role, kind and bytes of the buffer |
| `update_{buffer}` | that other storage may be put behind it |
| the name of a step | where the step writes and what it reads |
| `allocate` | all buffers, in order |
| `init` | the buffers that are populated, in order |
| `compute` | inputs, steps and outputs of a run |
-/
import TensorGraph.Computation.Step

namespace TensorGraph.Listing

variable {α : Type}

/-- One entry of a listing. -/
structure Entry where
  name : String
  arguments : List String
  /-- What the entry does, line by line. -/
  body : List String
deriving DecidableEq

/-- The entry as text: a line that names it, and its body indented. -/
def Entry.text (e : Entry) : String :=
  s!"def {e.name}({Text.commaSeparated e.arguments}):\n" ++
    String.join (e.body.map fun line => s!"    {line}\n")

/-! ## Places and nodes -/

/-- A place: its buffer by name and number, and its layout. -/
def placeText (p : Plan) (place : Placement) : String :=
  s!"{(p.buffer place.buffer).name}[{place.buffer}] {place.layout.shape.text} " ++
    s!"strides {Text.bracketed place.layout.strides} +{place.layout.byteOffset}"

/-- A node by name, or by number when it is unknown. -/
def nodeText (g : Graph α) (id : NodeId) : String := (g.node? id).elim id.text Node.name

/-- The places that a plan has for the listed nodes, without those that have none. -/
def places (p : Plan) (ids : List NodeId) : List (NodeId × Placement) :=
  ids.filterMap fun id => (p.placements.get? id).map (id, ·)

/-! ## Entries -/

/-- The entry that allocates the `i`-th buffer. -/
def allocateBuffer (b : Buffer) (i : Nat) : Entry :=
  ⟨s!"alloc_{b.name}", [],
    [s!"buffer[{i}] = alloc({b.role.name}, {b.kind.name}, {b.bytes})"]⟩

/-- The entry that replaces the storage of the `i`-th buffer. -/
def updateBuffer (b : Buffer) (i : Nat) : Entry :=
  ⟨s!"update_{b.name}", ["storage"], [s!"buffer[{i}] = storage"]⟩

/-- The entry of a step. -/
def stepEntry (p : Plan) (s : Step α) : Entry :=
  ⟨s.name, [],
    [s!"{placeText p s.output} <- {s.op.kind}" ++
      s!"({Text.commaSeparated (s.inputs.map (placeText p))})"]⟩

/-- The entry that allocates all buffers. -/
def allocateAll (p : Plan) : Entry :=
  ⟨"allocate", [], p.buffers.toList.map fun b => s!"alloc_{b.name}()"⟩

/-- The line that populates a buffer. -/
def populateLine (b : Buffer) : String :=
  let action := if b.role = .constant then "copy_literal" else "run_initializer"
  s!"{action}(buffer[{b.name}])"

/-- The entry that populates buffers. -/
def populateAll (p : Plan) : Entry :=
  let populated := p.buffers.toList.filter (·.role.populated)
  ⟨"init", [], if populated.isEmpty then ["pass"] else populated.map populateLine⟩

/-- The entry that runs the computation. -/
def computeAll (p : Plan) (steps : List (Step α)) (g : Graph α) : Entry :=
  let inputs := (places p p.parameters).map fun (id, place) =>
    s!"{placeText p place} <- {nodeText g id}"
  let calls := steps.map fun s => s!"{s.name}()"
  let outputs := (places p p.outputs).map fun (_, place) => placeText p place
  ⟨"compute", p.parameters.map (nodeText g),
    inputs ++ calls ++ [s!"return ({Text.commaSeparated outputs})"]⟩

/-- All entries, in the order in which they are listed. -/
def entries (p : Plan) (steps : List (Step α)) (g : Graph α) : List Entry :=
  p.buffers.toList.zipIdx.flatMap (fun (b, i) => [allocateBuffer b i, updateBuffer b i]) ++
    steps.map (stepEntry p) ++ [allocateAll p, populateAll p, computeAll p steps g]

/-- The whole listing: a line of totals and the entries, all set apart by an
empty line. -/
def render (p : Plan) (steps : List (Step α)) (g : Graph α) : String :=
  let totals := s!"# {p.buffers.size} buffers, {p.totalBytes} bytes, {steps.length} steps\n"
  "\n".intercalate (totals :: (entries p steps g).map Entry.text)

end TensorGraph.Listing
