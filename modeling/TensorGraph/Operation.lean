/-
# Operations of a graph

What a node computes, with the nodes that it reads.  Sources read nothing;
`broadcast`, `reorder` and `reshape` only look at their input in another
way; `assign` overwrites a variable at the end of a run.

A custom operation brings its own shape rule and its own computation.
-/
import TensorGraph.InitialValue
import TensorGraph.Outcome
import TensorGraph.View

namespace TensorGraph

/-- An operation defined outside this library. -/
structure CustomOperator (α : Type) where
  name : String
  /-- The shape of the result, from the shapes of the inputs. -/
  outputShape : List Shape → Except Error Shape
  /-- The elements of the result, from the inputs, the layout of the output and
  what the output block holds. -/
  compute : List (View α) → Layout → Array α → Outcome α

/-- What a node computes. -/
inductive Operation (α : Type) where
  /-- A value that the caller supplies for every run. -/
  | placeholder (shape : Shape)
  /-- A literal: one value per element, or one for all. -/
  | constant (shape : Shape) (values : Array α)
  /-- A value that persists between runs. -/
  | persistent (shape : Shape) (init : InitialValue α)
  | binary (operator : BinaryOperator) (lhs rhs : NodeId)
  | unary (operator : UnaryOperator) (input : NodeId)
  /-- The input repeated along the listed axes of `shape`. -/
  | broadcast (input : NodeId) (shape : Shape) (axes : List Nat)
  /-- Axis `k` of the result is axis `order[k]` of the input. -/
  | reorder (input : NodeId) (order : List Nat)
  /-- The same elements in row-major order under another shape. -/
  | reshape (input : NodeId) (shape : Shape)
  /-- The listed axes folded away. -/
  | reduce (reduction : Reduction) (input : NodeId) (axes : List Nat)
  /-- The last `contracted` axes of `lhs` summed against the first of `rhs`. -/
  | dot (lhs rhs : NodeId) (contracted : Nat)
  /-- Category numbers spread over a new axis of size `depth` at `axis`. -/
  | oneHot (input : NodeId) (depth axis : Nat)
  /-- The maximum of each window over the axes after the first two. -/
  | maxPool (input : NodeId) (window : Shape) (strides : List Nat)
  | custom (operator : CustomOperator α) (inputs : List NodeId)
  /-- Overwrites the variable `target` with `value`; the result is the updated variable. -/
  | assign (target value : NodeId)

namespace Operation

variable {α : Type}

/-- The kind of operation as messages and listings show it. -/
def kind : Operation α → String
  | placeholder _ => "placeholder"
  | constant _ _ => "constant"
  | persistent _ _ => "variable"
  | binary operator _ _ => operator.name
  | unary operator _ => operator.name
  | broadcast _ _ _ => "broadcast"
  | reorder _ _ => "reorder_axes"
  | reshape _ _ => "reshape"
  | reduce reduction _ _ => reduction.name
  | dot _ _ _ => "dot"
  | oneHot _ _ _ => "one_hot"
  | maxPool _ _ _ => "max_pool"
  | custom _ _ => "custom"
  | assign _ _ => "assign"

/-- The stem of node names: the kind, or a custom operation's own name. -/
def stem : Operation α → String
  | custom operator _ => operator.name
  | op => op.kind

/-- The nodes that the operation reads, in order. -/
def inputs : Operation α → List NodeId
  | placeholder _ => []
  | constant _ _ => []
  | persistent _ _ => []
  | binary _ lhs rhs => [lhs, rhs]
  | unary _ input => [input]
  | broadcast input _ _ => [input]
  | reorder input _ => [input]
  | reshape input _ => [input]
  | reduce _ input _ => [input]
  | dot lhs rhs _ => [lhs, rhs]
  | oneHot input _ _ => [input]
  | maxPool input _ _ => [input]
  | custom _ inputs => inputs
  | assign target value => [target, value]

/-- Reads nothing and keeps a buffer of its own for the whole computation. -/
def isSource : Operation α → Bool
  | placeholder _ => true
  | constant _ _ => true
  | persistent _ _ => true
  | _ => false

/-- Works element by element, so that it may write over an input with the same layout. -/
def isElementwise : Operation α → Bool
  | binary _ _ _ => true
  | unary _ _ => true
  | _ => false

/-- Only looks at its input in another way. -/
def isReading : Operation α → Bool
  | broadcast _ _ _ => true
  | reorder _ _ => true
  | reshape _ _ => true
  | _ => false

/-- Waits for a value from the caller. -/
def isPlaceholder : Operation α → Bool
  | placeholder _ => true
  | _ => false

/-- Persists between runs. -/
def isPersistent : Operation α → Bool
  | persistent _ _ => true
  | _ => false

/-- The variable that the operation overwrites, if it is an assignment. -/
def target? : Operation α → Option NodeId
  | assign target _ => some target
  | _ => none

/-- Overwrites a variable. -/
def isAssignment (op : Operation α) : Bool := op.target?.isSome

end Operation
end TensorGraph
