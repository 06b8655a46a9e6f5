/-
# Errors

An error is a cause, not a text: each case names what went wrong and keeps
the values that the message shows.  The wording is in one place, the
`message` function at the end, which follows these forms:

| error | message |
| :-- | :-- |
| `shape` | `shape error in {operation}: {fault}` |
| `unknownNode` | `unknown node {id}` |
| `allocation` | ``allocation error for buffer `{buffer}`: {fault}`` |
| `notReady` | `computation not ready: {fault}` |
| `released` | `{what} was already released` |
| `compilation` | `compilation error: {fault}` |
| `plain` | `Message: {note}` |
| `io` | `IO error: {text}` |
| `wrapped` | the message of what it wraps |
| `inContext` | the structure of what it wraps, a line break, the quoted context |
-/
import TensorGraph.Decimal.Positional
import TensorGraph.NodeId
import TensorGraph.Operator
import TensorGraph.Shape
import TensorGraph.Text.Quoted

namespace TensorGraph

/-! ## Causes -/

/-- Why ranks, sizes or attributes do not fit together. -/
inductive ShapeFault where
  /-- A constant has neither one value nor one per element. -/
  | valueCount (given : Nat) (shape : Shape)
  /-- The bounds of a uniform distribution are not finite and ascending. -/
  | uniformBounds (low high : Float)
  /-- The parameters of a normal distribution are not finite, or its deviation is negative. -/
  | normalParameters (mean deviation : Float)
  | operandsDiffer (lhs rhs : Shape)
  /-- Negation of a kind without negative values. -/
  | unsigned (kind : ElementKind)
  | repeatedAxes (axes : List Nat) (output : Shape)
  | repeatedSizes (input output : Shape) (axes : List Nat)
  | notPermutation (order : List Nat) (input : Shape)
  | sizeChanged (input output : Shape)
  | reducedAxes (axes : List Nat) (input : Shape)
  | contractedRank (count : Nat) (lhs rhs : Shape)
  | contractedSizes (lhs rhs : Shape)
  | insertedAxis (axis : Nat) (input : Shape)
  | pooledRank (input : Shape)
  | windowRank (window input : Shape)
  | windowStridesRank (strides : List Nat) (input : Shape)
  | windowFit (window : Shape) (strides : List Nat) (input : Shape)
  /-- Assignment to a node that is not a variable. -/
  | notVariable (target : NodeId)
  | assignedShape (value target : Shape)
  | notMatrices (lhs rhs : Shape)
  | inputCount (expected given : Nat)
  | inputShape (id : NodeId) (given expected : Shape)
  | dataSize (shape : Shape) (given : Nat)
  | notScalar (shape : Shape)
  | other (text : String)
deriving DecidableEq

/-- Why a buffer cannot be had or replaced. -/
inductive AllocationFault where
  | zeroSized
  /-- The node that needs the buffer has a shape without elements. -/
  | noElements (shape : Shape)
  /-- The size in bytes does not fit in 64 bits. -/
  | sizeOverflow
  /-- The device handed out too little. -/
  | shortStorage (given needed : Nat)
  | noSuchBuffer
  /-- The caller's replacement is too small. -/
  | shortReplacement (given needed : Nat)
  | other (text : String)
deriving DecidableEq

/-- Why a computation is not ready for a call. -/
inductive ReadinessFault where
  | initBeforeAllocate
  | computeBeforeInit
  | updateBeforeAllocate (buffer : String)
  | other (text : String)
deriving DecidableEq

/-- Why a slice of a graph cannot be compiled, or a plan not carried out. -/
inductive CompilationFault where
  | noOutputs
  | notInOrder (id : NodeId)
  | parameterRepeated
  | unboundPlaceholder (name : String)
  | notPlaceholder (name : String)
  | assignedTwice (target : NodeId)
  | readsAssignment (name : String) (input : NodeId)
  | overlapsTarget (name : String)
  | noPlacement (id : NodeId)
  | differentGraphs
  | readsOwnOutput (step : String)
  | noComputeStep (kind : String)
  | other (text : String)
deriving DecidableEq

/-- Failures without a class of their own. -/
inductive Note where
  /-- A quotient that the element type has no value for. -/
  | noResult (operator : BinaryOperator) (kind : ElementKind)
  /-- A one-hot input that is not a whole number below the depth. -/
  | notCategory (value : Float) (depth : Nat)
  | noCustomInputs (name : String)
  /-- One output was asked of a computation with another number of them. -/
  | notSingle (count : Nat)
  | outOfMemory (buffer : String)
  | other (text : String)
deriving DecidableEq

/-- What can go wrong in building, planning and running a graph. -/
inductive Error where
  | shape (operation : String) (fault : ShapeFault)
  | unknownNode (id : NodeId)
  | allocation (buffer : String) (fault : AllocationFault)
  | notReady (fault : ReadinessFault)
  | released (what : String)
  | compilation (fault : CompilationFault)
  | plain (note : Note)
  | io (text : String)
  | wrapped (cause : Error)
  | inContext (cause : Error) (context : String)
deriving DecidableEq

/-! ## Wording of the causes -/

/-- The part of a message that describes a shape fault. -/
def ShapeFault.text : ShapeFault → String
  | valueCount given shape =>
    s!"{given} values given for shape {shape.text} with {shape.size} elements"
  | uniformBounds low high =>
    s!"uniform initializer needs finite low < high, got [{Decimal.text low}, {Decimal.text high})"
  | normalParameters mean deviation =>
    "normal initializer needs finite mean and std >= 0, got " ++
      s!"N({Decimal.text mean}, {Decimal.text deviation})"
  | operandsDiffer lhs rhs => s!"lhs {lhs.text} and rhs {rhs.text} differ"
  | unsigned kind => s!"not supported for unsigned dtype {kind.name}"
  | repeatedAxes axes output =>
    s!"axes {Text.bracketed axes} invalid for output {output.text}"
  | repeatedSizes input output axes =>
    s!"input {input.text} does not match {output.text} without axes {Text.bracketed axes}"
  | notPermutation order input =>
    s!"{Text.bracketed order} is not a permutation of the axes of {input.text}"
  | sizeChanged input output => s!"cannot reshape {input.text} into {output.text}"
  | reducedAxes axes input =>
    s!"reduction axes {Text.bracketed axes} invalid for input {input.text}"
  | contractedRank count lhs rhs => s!"cannot contract {count} axes of {lhs.text} and {rhs.text}"
  | contractedSizes lhs rhs => s!"contracted axes of {lhs.text} and {rhs.text} differ"
  | insertedAxis axis input => s!"axis {axis} out of range for input {input.text}"
  | pooledRank input => s!"input {input.text} needs a batch, a channel and spatial axes"
  | windowRank window input =>
    s!"window {window.text} has rank {window.rank}, input {input.text} has " ++
      s!"{input.rank - 2} spatial axes"
  | windowStridesRank strides input =>
    s!"strides {Text.bracketed strides} have rank {strides.length}, input {input.text} has " ++
      s!"{input.rank - 2} spatial axes"
  | windowFit window strides input =>
    s!"window {window.text} with strides {Text.bracketed strides} does not fit input {input.text}"
  | notVariable target => s!"target {target.text} is not a variable"
  | assignedShape value target => s!"value {value.text} does not fit variable {target.text}"
  | notMatrices lhs rhs => s!"matmul needs matrices, got {lhs.text} and {rhs.text}"
  | inputCount expected given => s!"expected {expected} inputs, got {given}"
  | inputShape id given expected =>
    s!"input for {id.text} has shape {given.text}, expected {expected.text}"
  | dataSize shape given => s!"shape {shape.text} needs {shape.size} elements, got {given}"
  | notScalar shape => s!"{shape.text} is not a scalar"
  | other text => text

/-- The part of a message that describes an allocation fault. -/
def AllocationFault.text : AllocationFault → String
  | zeroSized => "zero-sized buffer"
  | noElements shape => s!"shape {shape.text} has no elements"
  | sizeOverflow => "size overflows usize"
  | shortStorage given needed => s!"device returned {given} elements, {needed} needed"
  | noSuchBuffer => "no such buffer"
  | shortReplacement given needed => s!"storage has {given} elements, {needed} needed"
  | other text => text

/-- The part of a message that describes a call made too early. -/
def ReadinessFault.text : ReadinessFault → String
  | initBeforeAllocate => "init called before allocate"
  | computeBeforeInit => "compute called before init"
  | updateBeforeAllocate buffer => s!"buffer `{buffer}` updated before allocate"
  | other text => text

/-- The part of a message that describes a compilation fault. -/
def CompilationFault.text : CompilationFault → String
  | noOutputs => "no outputs requested"
  | notInOrder id => s!"{id.text} is missing from the order"
  | parameterRepeated => "a parameter is bound more than once"
  | unboundPlaceholder name => s!"placeholder {name} is not bound to a parameter"
  | notPlaceholder name => s!"parameter {name} is not a placeholder"
  | assignedTwice target => s!"{target.text} is assigned more than once"
  | readsAssignment name input => s!"{name} reads the assignment {input.text}"
  | overlapsTarget name => s!"{name} overlaps the variable it updates"
  | noPlacement id => s!"{id.text} has no planned view"
  | differentGraphs => "outputs and parameters belong to different graphs"
  | readsOwnOutput step => s!"{step} reads its own output buffer"
  | noComputeStep kind => s!"{kind} has no compute step"
  | other text => text

/-- The text of a note. -/
def Note.text : Note → String
  | noResult operator kind =>
    s!"{operator.name} of {kind.name} has no result (division by zero or overflow)"
  | notCategory value depth =>
    s!"one_hot value {Decimal.text value} is not a category below depth {depth}"
  | noCustomInputs name => s!"custom op {name} needs at least one input"
  | notSingle count => s!"expected a single output, got {count}"
  | outOfMemory buffer => s!"out of memory for {buffer}"
  | other text => text

/-! ## Wording of the errors -/

namespace Error

/-- The class of the error. -/
def className : Error → String
  | shape .. => "Shape"
  | unknownNode .. => "UnknownNode"
  | allocation .. => "Allocation"
  | notReady .. => "NotReady"
  | released .. => "Released"
  | compilation .. => "Compilation"
  | plain .. => "Msg"
  | io .. => "IoError"
  | wrapped .. => "Wrapped"
  | inContext .. => "WrappedContext"

/-- The structure of the error: its class with every field, texts in quotes. -/
def structureText : Error → String
  | shape operation fault =>
    s!"Shape \x7b op: {Text.quoted operation}, msg: {Text.quoted fault.text} \x7d"
  | unknownNode id => s!"UnknownNode(NodeId({id.index}))"
  | allocation buffer fault =>
    s!"Allocation \x7b buffer: {Text.quoted buffer}, msg: {Text.quoted fault.text} \x7d"
  | notReady fault => s!"NotReady({Text.quoted fault.text})"
  | released what => s!"Released({Text.quoted what})"
  | compilation fault => s!"Compilation({Text.quoted fault.text})"
  | plain note => s!"Msg({Text.quoted note.text})"
  | io text => s!"IoError({Text.quoted text})"
  | wrapped cause => s!"Wrapped({cause.structureText})"
  | inContext cause context =>
    s!"WrappedContext \x7b wrapped: {cause.structureText}, context: {Text.quoted context} \x7d"

/-- The message of the error. -/
def message : Error → String
  | shape operation fault => s!"shape error in {operation}: {fault.text}"
  | unknownNode id => s!"unknown node {id.text}"
  | allocation buffer fault => s!"allocation error for buffer `{buffer}`: {fault.text}"
  | notReady fault => s!"computation not ready: {fault.text}"
  | released what => s!"{what} was already released"
  | compilation fault => s!"compilation error: {fault.text}"
  | plain note => s!"Message: {note.text}"
  | io text => s!"IO error: {text}"
  | wrapped cause => cause.message
  | inContext cause context => cause.structureText ++ "\n" ++ Text.quoted context

end Error

/-- Adds a context to the error of a failed result. -/
def Error.addContext {β : Type} (context : String) : Except Error β → Except Error β
  | .ok value => .ok value
  | .error cause => .error (.inContext cause context)

/-- The value that is there; otherwise the context is the whole error. -/
def Error.ofMissing {β : Type} (context : String) : Option β → Except Error β
  | some value => .ok value
  | none => .error (.plain (.other context))

end TensorGraph
