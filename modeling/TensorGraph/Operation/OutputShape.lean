/-
# Output shapes

The shape of an operation's result, from the shapes of its inputs, or the
fault that keeps it from having one.  Attributes are checked here and
nowhere else, so a node that is in a graph has sound attributes.
-/
import TensorGraph.Operation

namespace TensorGraph.Operation

variable {α : Type}

/-- How many windows of a given size and distance fit along an axis. -/
def placements (size window stride : Nat) : Nat := (size - window) / stride + 1

/-- A window fits along an axis and moves along it. -/
def windowFits (size window stride : Nat) : Bool :=
  window != 0 && window ≤ size && stride != 0

/-- Every window fits along its axis. -/
def windowsFit : List Nat → List Nat → List Nat → Bool
  | size :: sizes, window :: windows, stride :: strides =>
    windowFits size window stride && windowsFit sizes windows strides
  | _, _, _ => true

/-- The sizes of a pooled tensor along its spatial axes. -/
def pooledSizes : List Nat → List Nat → List Nat → List Nat
  | size :: sizes, window :: windows, stride :: strides =>
    placements size window stride :: pooledSizes sizes windows strides
  | _, _, _ => []

/-- The operation has no result: the fault, under the name of its kind. -/
def refuse (op : Operation α) (fault : ShapeFault) : Except Error Shape := .error (.shape op.kind fault)

/-- The shape of the result, given the shapes of the inputs.  A custom operation
answers for itself. -/
def outputShape [Element α] (shapeOf : NodeId → Shape) (op : Operation α) : Except Error Shape :=
  match op with
  | placeholder shape => .ok shape
  | constant shape values =>
    if values.size = shape.size ∨ values.size = 1 then .ok shape
    else op.refuse (.valueCount values.size shape)
  | persistent shape init => init.fault?.elim (.ok shape) op.refuse
  | binary _ lhs rhs =>
    if shapeOf lhs = shapeOf rhs then .ok (shapeOf lhs)
    else op.refuse (.operandsDiffer (shapeOf lhs) (shapeOf rhs))
  | unary operator input =>
    if operator = .negative ∧ (Element.kind α).signed = false then
      op.refuse (.unsigned (Element.kind α))
    else .ok (shapeOf input)
  | broadcast input shape axes =>
    if !Shape.distinctAxes shape.rank axes then op.refuse (.repeatedAxes axes shape)
    else if shape.without axes = shapeOf input then .ok shape
    else op.refuse (.repeatedSizes (shapeOf input) shape axes)
  | reorder input order =>
    if order.length = (shapeOf input).rank ∧ Shape.distinctAxes (shapeOf input).rank order then
      .ok ((shapeOf input).select order)
    else op.refuse (.notPermutation order (shapeOf input))
  | reshape input shape =>
    if (shapeOf input).size = shape.size then .ok shape
    else op.refuse (.sizeChanged (shapeOf input) shape)
  | reduce _ input axes =>
    if Shape.distinctAxes (shapeOf input).rank axes then .ok ((shapeOf input).without axes)
    else op.refuse (.reducedAxes axes (shapeOf input))
  | dot lhs rhs contracted =>
    let l := shapeOf lhs
    let r := shapeOf rhs
    if l.rank < contracted ∨ r.rank < contracted then op.refuse (.contractedRank contracted l r)
    else if l.dims.drop (l.rank - contracted) = r.dims.take contracted then
      .ok ⟨l.dims.take (l.rank - contracted) ++ r.dims.drop contracted⟩
    else op.refuse (.contractedSizes l r)
  | oneHot input depth axis =>
    if axis ≤ (shapeOf input).rank then .ok ⟨(shapeOf input).dims.insertIdx axis depth⟩
    else op.refuse (.insertedAxis axis (shapeOf input))
  | maxPool input window strides =>
    let shape := shapeOf input
    let spatial := shape.dims.drop 2
    if shape.rank < 3 then op.refuse (.pooledRank shape)
    else if window.rank ≠ spatial.length then op.refuse (.windowRank window shape)
    else if strides.length ≠ spatial.length then op.refuse (.windowStridesRank strides shape)
    else if windowsFit spatial window.dims strides then
      .ok ⟨shape.dims.take 2 ++ pooledSizes spatial window.dims strides⟩
    else op.refuse (.windowFit window strides shape)
  | custom operator inputs => operator.outputShape (inputs.map shapeOf)
  | assign target value =>
    if shapeOf target = shapeOf value then .ok (shapeOf target)
    else op.refuse (.assignedShape (shapeOf value) (shapeOf target))

end TensorGraph.Operation
