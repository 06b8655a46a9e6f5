/-
# Stock custom operators

Operators with rules of their own, for work that the built-in operations do
not cover: sums of any number of tensors, with or without a guard against
zeros, reversal, and two that write down what they see of their input.
-/
import TensorGraph.Operation

namespace TensorGraph.CustomOperator

variable {α : Type}

/-- A custom operator's own message. -/
def note (text : String) : Error := .plain (.other text)

/-- The shape that all inputs have. -/
def commonShape : List Shape → Except Error Shape
  | [] => .ok .scalar
  | first :: rest =>
    match rest.find? (· ≠ first) with
    | some other => .error (.shape "custom" (.other s!"{other.text} is not {first.text}"))
    | none => .ok first

/-- The sum of the inputs at one position, from zero, in order. -/
def sumAt [Element α] (inputs : List (View α)) (i : Nat) : α :=
  inputs.foldl (fun acc v => Element.add acc (v.get i)) Element.zero

/-- Writes the elements at the listed positions in order, up to the first for
which there is an error. -/
def writeAt (f : Nat → Except Error α) : List Nat → Array α → Outcome α
  | [], block => .complete block
  | i :: rest, block =>
    match f i with
    | .ok x => writeAt f rest (block.setIfInBounds i x)
    | .error error => .stopped block error

/-- Writes every element. -/
def writeAll (f : Nat → α) (block : Array α) : Outcome α :=
  .complete (block.mapIdx fun i _ => f i)

/-- The sum of inputs of one shape. -/
def sum [Element α] (name : String) : CustomOperator α where
  name := name
  outputShape := commonShape
  compute inputs _ block := writeAll (sumAt inputs) block

/-- The sum of inputs of one shape, which must not be zero anywhere. -/
def guarded [Element α] (name : String) : CustomOperator α where
  name := name
  outputShape := commonShape
  compute inputs _ block :=
    writeAt
      (fun i =>
        let x := sumAt inputs i
        if Element.toFloat x == 0 then .error (note s!"zero at {i}") else .ok x)
      (List.range block.size) block

/-- An operator that can be added but never computed. -/
def failing (name : String) : CustomOperator α where
  name := name
  outputShape := commonShape
  compute _ _ block := .stopped block (note s!"{name} failed")

/-- An operator that cannot be added. -/
def rejecting (name : String) : CustomOperator α where
  name := name
  outputShape shapes := .error (note s!"{name} rejected {shapes.length} inputs")
  compute _ _ block := .complete block

/-- The elements of the first input in a row, last one first. -/
def reversing [Element α] (name : String) : CustomOperator α where
  name := name
  outputShape shapes := .ok ⟨[(shapes.headD .scalar).size]⟩
  compute inputs _ block :=
    match inputs with
    | v :: _ => writeAll (fun i => v.get (v.size - 1 - i)) block
    | [] => .complete block

/-- The strides with which the first input is read. -/
def strideListing [Element α] (name : String) : CustomOperator α where
  name := name
  outputShape shapes := .ok ⟨[(shapes.headD .scalar).rank]⟩
  compute inputs _ block :=
    match inputs with
    | v :: _ => writeAll (fun i => Element.ofFloat (v.layout.strides.getD i 0).toFloat) block
    | [] => .complete block

/-- The positions of a shape. -/
def numbering [Element α] (name : String) (shape : Shape) : CustomOperator α where
  name := name
  outputShape _ := .ok shape
  compute _ _ block := writeAll (fun i => Element.ofFloat i.toFloat) block

end TensorGraph.CustomOperator
