/-
# The strict program

The same program once more, such that whatever ought not to happen has no
result.  The kernels, steps and calls of the library are total: a place past the
end of a buffer reads as zero and a write there is lost.  Here each of these is
`none`:

| what | where |
| :-- | :-- |
| an element or a block outside its buffer | `View.get?`, `View.take?`, `block?`, `Slots.write?` |
| counting along an axis of size zero, rows of no columns | `RowMajor.coordinates?`, `Kernel.contract?` |
| a block of another length than the one that it replaces | `Kernel.literal?`, `Step.run?` |
| an axis, a coordinate or a stride that is not there | `Kernel.keptPosition?`, `Kernel.windowElement?` |
| a node without a place, a storage that is lent out | `Slots.storage?`, `Computation.execute?` |
| a step that reads what it writes, a node that is no step | `Step.input?`, `Step.outcome?` |
| samples of a distribution with faulty parameters | `Computation.preset?` |

An error that the caller may see is a result.  A step takes the storage that it
writes out of its place for as long as it runs, so that nothing else can reach it,
and puts it back when it ends, with or without an error.
-/
import TensorGraph.Computation.Lifecycle

namespace TensorGraph

variable {α δ : Type}

/-- The block of `count` elements from `start` on. -/
def block? (xs : Array α) (start count : Nat) : Option (Array α) :=
  if start + count ≤ xs.size then some (xs.extract start (start + count)) else none

/-- The coordinates of the `i`-th element, found by division by the sizes. -/
def RowMajor.coordinates? (dims : List Nat) (i : Nat) : Option (List Nat) :=
  if 0 ∈ dims then none else some (coordinates dims i)

namespace View

def get? (v : View α) (i : Nat) : Option α := do
  let coordinates ← RowMajor.coordinates? v.layout.strided i
  v.data[v.layout.start + RowMajor.position coordinates v.layout.strides]?

/-- The first `count` elements. -/
def take? (v : View α) (count : Nat) : Option (Array α) :=
  if v.layout.isPacked then block? v.data v.layout.start count
  else Array.ofFnM fun i : Fin count => v.get? i

end View

def Operand.read? : Operand α → Nat → α → Option α
  | inPlace, _, current => some current
  | view v, i, _ => v.get? i

/-! ## Kernels -/

namespace Kernel

def replaceAt? (f : Nat → α → Option (Option α)) : List Nat → Array α → Option (Array α × Bool)
  | [], block => some (block, true)
  | i :: rest, block => do
    match ← f i (← block[i]?) with
    | some x => replaceAt? f rest (block.setIfInBounds i x)
    | none => some (block, false)

def binary? [Element α] (operator : BinaryOperator) (lhs rhs : Operand α) (block : Array α) :
    Option (Outcome α) := do
  let result := fun i current => do
    let x ← lhs.read? i current
    let y ← rhs.read? i current
    some (operator.value? x y)
  match ← replaceAt? result (List.range block.size) block with
  | (written, true) => some (.complete written)
  | (written, false) => some (.stopped written (.plain (.noResult operator (Element.kind α))))

def unary? [Element α] (operator : UnaryOperator) (operand : Operand α) (block : Array α) :
    Option (Outcome α) := do
  let written ← Array.ofFnM fun i : Fin block.size => do
    let x ← operand.read? i block[i]
    some (operator.value x)
  some (.complete written)

def keptPosition? (dims kept : List Nat) (i : Nat) : Option Nat := do
  let coordinates ← RowMajor.coordinates? dims i
  let own ← kept.mapM fun a => coordinates[a]?
  let sizes ← kept.mapM fun a => dims[a]?
  some (RowMajor.position own (RowMajor.strides sizes))

def reduce? [Element α] (reduction : Reduction) (axes : List Nat) (input : View α)
    (block : Array α) : Option (Outcome α) := do
  let dims := input.layout.shape.dims
  let kept := Shape.keptAxes dims.length axes
  let written ← (List.range input.size).foldlM
    (fun out i => do
      let o ← keptPosition? dims kept i
      let acc ← out[o]?
      let x ← input.get? i
      some (out.setIfInBounds o (reduction.combine acc x)))
    (Array.replicate block.size reduction.identity)
  some (.complete written)

def innerProduct? [Element α] (lhs rhs : View α) (common columns i j : Nat) : Option α :=
  (List.range common).foldlM
    (fun acc k => do
      let x ← lhs.get? (i * common + k)
      let y ← rhs.get? (k * columns + j)
      some (Element.add acc (Element.mul x y)))
    Element.zero

def contract? [Element α] (contracted : Nat) (lhs rhs : View α) (block : Array α) :
    Option (Outcome α) := do
  let leftDims := lhs.layout.shape.dims
  let rightDims := rhs.layout.shape.dims
  guard (contracted ≤ leftDims.length ∧ contracted ≤ rightDims.length)
  let common := RowMajor.count (leftDims.drop (leftDims.length - contracted))
  let columns := RowMajor.count (rightDims.drop contracted)
  guard (columns ≠ 0)
  let written ← Array.ofFnM fun o : Fin block.size =>
    innerProduct? lhs rhs common columns (o / columns) (o % columns)
  some (.complete written)

def markCategories? [Element α] (depth inner : Nat) (input : View α) :
    List Nat → Array α → Option (Outcome α)
  | [], block => some (.complete block)
  | i :: rest, block => do
    let x := Element.toFloat (← input.get? i)
    if isCategory depth x then
      guard (inner ≠ 0)
      let o := hotPosition depth inner i x.toUInt64.toNat
      guard (o < block.size)
      markCategories? depth inner input rest (block.setIfInBounds o Element.one)
    else some (.stopped block (.plain (.notCategory x depth)))

def oneHot? [Element α] (depth axis : Nat) (input : View α) (block : Array α) :
    Option (Outcome α) := do
  let dims := input.layout.shape.dims
  guard (axis ≤ dims.length)
  markCategories? depth (RowMajor.count (dims.drop axis)) input (List.range input.size)
    (Array.replicate block.size Element.zero)

def windowElement? (inputDims window strides outer : List Nat) (w : Nat) : Option Nat := do
  let inner ← RowMajor.coordinates? window w
  guard (inner.length ≤ strides.length ∧ inner.length + 2 ≤ outer.length ∧
    inner.length + 2 ≤ inputDims.length)
  some (RowMajor.position (outer.take 2 ++ windowCoordinates (outer.drop 2) strides inner)
    (RowMajor.strides inputDims))

def maxPool? [Element α] (window strides : List Nat) (input : View α) (output : Layout)
    (block : Array α) : Option (Outcome α) := do
  let dims := input.layout.shape.dims
  let written ← Array.ofFnM fun o : Fin block.size => do
    let outer ← RowMajor.coordinates? output.shape.dims o
    guard (2 ≤ outer.length ∧ 2 ≤ dims.length)
    let elements ← (List.range (RowMajor.count window)).mapM fun w => do
      input.get? (← windowElement? dims window strides outer w)
    some (Reduction.max.fold elements)
  some (.complete written)

def literal? (values : Array α) (block : Array α) : Option (Array α) :=
  match values.toList with
  | [value] => some (Array.replicate block.size value)
  | _ => if values.size = block.size then some values else none

end Kernel

/-! ## Steps -/

/-- The storage of all buffers; the one that a step writes is lent to it. -/
abbrev Slots (α : Type) := Array (Option (Storage α))

/-- All storage is in its place. -/
def Memory.slots (m : Memory α) : Slots α := m.map some

namespace Slots

def storage? (slots : Slots α) (buffer : Nat) : Option (Storage α) := slots[buffer]?.join

/-- One storage is lent out. -/
def lend (slots : Slots α) (buffer : Nat) : Slots α := slots.setIfInBounds buffer none

/-- The storage is put back in its place. -/
def restore (slots : Slots α) (buffer : Nat) (storage : Storage α) : Slots α :=
  slots.setIfInBounds buffer (some storage)

/-- The storage with the elements from `start` on overwritten by a block. -/
def write? (slots : Slots α) (buffer start : Nat) (block : Array α) : Option (Slots α) := do
  let storage ← slots.storage? buffer
  guard (start + block.size ≤ storage.size)
  some (slots.restore buffer (storage.write start block))

end Slots

namespace Step

def operand? (s : Step α) (slots : Slots α) (place : Placement) : Option (Operand α) :=
  if place.buffer = s.output.buffer then some .inPlace
  else (slots.storage? place.buffer).map fun storage => .view ⟨storage.data, place.layout⟩

def input? (s : Step α) (slots : Slots α) (place : Placement) : Option (View α) := do
  match ← s.operand? slots place with
  | .inPlace => none
  | .view v => some v

/-- What the step makes of its output block. -/
def outcome? [Element α] (s : Step α) (slots : Slots α) (block : Array α) : Option (Outcome α) :=
  match s.op, s.inputs with
  | .binary operator _ _, [lhs, rhs] => do
    Kernel.binary? operator (← s.operand? slots lhs) (← s.operand? slots rhs) block
  | .unary operator _, [v] => do Kernel.unary? operator (← s.operand? slots v) block
  | .reshape _ _, [v] => do
    let v ← s.input? slots v
    some (.complete (← v.take? block.size))
  | .reduce reduction _ axes, [v] => do Kernel.reduce? reduction axes (← s.input? slots v) block
  | .dot _ _ contracted, [lhs, rhs] => do
    Kernel.contract? contracted (← s.input? slots lhs) (← s.input? slots rhs) block
  | .oneHot _ depth axis, [v] => do Kernel.oneHot? depth axis (← s.input? slots v) block
  | .maxPool _ window strides, [v] => do
    Kernel.maxPool? window.dims strides (← s.input? slots v) s.output.layout block
  | .custom operator _, inputs => do
    some (operator.compute (← inputs.mapM (s.input? slots)) s.output.layout block)
  | .assign _ _, [_, value] => do
    match ← s.operand? slots value with
    | .inPlace => some (.complete block)
    | .view v => some (.complete (← v.take? block.size))
  | _, _ => none

/-- The storage after the step, and the error that stopped it. -/
def run? [Element α] (s : Step α) (slots : Slots α) : Option (Slots α × Option Error) := do
  let storage ← slots.storage? s.output.buffer
  let others := slots.lend s.output.buffer
  let block ← block? storage.data s.output.layout.start s.output.layout.size
  let result ← s.outcome? others block
  guard (result.block.size = block.size)
  some (others.restore s.output.buffer (storage.write s.output.layout.start result.block),
    result.failure)

/-- The storage after some steps in order; the first error stops them. -/
def runAll? [Element α] : List (Step α) → Slots α → Option (Slots α × Option Error)
  | [], slots => some (slots, none)
  | s :: rest, slots => do
    match ← s.run? slots with
    | (slots, none) => runAll? rest slots
    | (slots, some error) => some (slots, some error)

end Step

/-! ## Calls -/

namespace Computation

/-- Puts a literal or an initial value in its place. -/
def preset? [Element α] (seed : UInt64) (slots : Slots α) (p : Preset α) : Option (Slots α) := do
  let storage ← slots.storage? p.output.buffer
  let block ← block? storage.data p.output.layout.start p.output.layout.size
  match p.op with
  | .constant _ values =>
    slots.write? p.output.buffer p.output.layout.start (← Kernel.literal? values block)
  | .persistent _ init =>
    guard (init.fault? = none)
    slots.write? p.output.buffer p.output.layout.start
      (Kernel.populate init (Kernel.streamSeed seed p.node) block)
  | _ => some slots

/-- Puts an input in the place of its parameter. -/
def load? (p : Plan) (slots : Slots α) (entry : NodeId × Tensor α) : Option (Slots α) := do
  let place ← p.placements.get? entry.1
  slots.write? place.buffer place.layout.start entry.2.data

/-- The value of an output. -/
def readOutput? [Element α] (p : Plan) (slots : Slots α) (id : NodeId) : Option (Tensor α) := do
  let place ← p.placements.get? id
  let storage ← slots.storage? place.buffer
  let data ← View.take? ⟨storage.data, place.layout⟩ place.layout.size
  (Tensor.ofData? place.layout.shape data).toOption

/-- Literals and initial values in place. -/
def populate? [Element α] (c : Computation α) : Option (Slots α) :=
  c.presets.foldlM (preset? c.seed) c.memory.slots

/-- A run: the storage and the device that it leaves, and its answer. -/
def execute? [Element α] [Device δ α] (c : Computation α) (device : δ) (inputs : List (Tensor α)) :
    Option (Slots α × δ × Except Error (List (Tensor α))) := do
  guard (∀ id ∈ c.plan.parameters, c.plan.placements.get? id ≠ none)
  match c.checkInputs inputs with
  | .error error => some (c.memory.slots, device, .error error)
  | .ok () =>
    let loaded ← (c.plan.parameters.zip inputs).foldlM (load? c.plan) c.memory.slots
    match ← Step.runAll? c.steps loaded with
    | (slots, some error) => some (slots, device, .error error)
    | (slots, none) =>
      match Device.synchronize device with
      | (device, .error error) => some (slots, device, .error error)
      | (device, .ok ()) =>
        some (slots, device, .ok (← c.plan.outputs.mapM (readOutput? c.plan slots)))

end Computation

end TensorGraph
