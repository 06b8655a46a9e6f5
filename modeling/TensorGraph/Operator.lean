/-
# Element operators

The operators that work one element at a time, and the two reductions.  A
comparison answers with one or zero of the element type; the transcendental
functions go through a 64-bit float and back.
-/
import TensorGraph.Element

namespace TensorGraph

/-- Operators on two elements. -/
inductive BinaryOperator where
  | add | divide | subtract | multiply | maximum | minimum | greater | less
deriving DecidableEq

namespace BinaryOperator

/-- The operator as node names and messages show it. -/
def name : BinaryOperator → String
  | add => "add"
  | divide => "divide"
  | subtract => "subtract"
  | multiply => "multiply"
  | maximum => "maximum"
  | minimum => "minimum"
  | greater => "greater"
  | less => "less"

/-- One where the condition holds, zero elsewhere. -/
def indicator {α : Type} [Element α] (holds : Bool) : α :=
  if holds then Element.one else Element.zero

/-- The result on two elements.  Only a quotient may be missing.  Of two
incomparable elements the maximum and the minimum take the left one. -/
def value? {α : Type} [Element α] : BinaryOperator → α → α → Option α
  | add, x, y => some (Element.add x y)
  | divide, x, y => Element.div? x y
  | subtract, x, y => some (Element.sub x y)
  | multiply, x, y => some (Element.mul x y)
  | maximum, x, y => some (if Element.lt x y then y else x)
  | minimum, x, y => some (if Element.lt y x then y else x)
  | greater, x, y => some (indicator (Element.lt y x))
  | less, x, y => some (indicator (Element.lt x y))

/-- The operator with the given name. -/
def ofName? (name : String) : Option BinaryOperator :=
  [add, divide, subtract, multiply, maximum, minimum, greater, less].find? (·.name == name)

theorem isSome_value? {α : Type} [Element α] (f : BinaryOperator) (x y : α)
    (h : f ≠ divide) : (f.value? x y).isSome = true := by
  cases f <;> first | rfl | exact absurd rfl h

end BinaryOperator

/-- Operators on one element. -/
inductive UnaryOperator where
  | negative | sqrt | exp | log | reciprocal | relu
deriving DecidableEq

namespace UnaryOperator

/-- The operator as node names and messages show it. -/
def name : UnaryOperator → String
  | negative => "negative"
  | sqrt => "sqrt"
  | exp => "exp"
  | log => "log"
  | reciprocal => "reciprocal"
  | relu => "relu"

/-- A function of 64-bit floats, applied to an element. -/
def through {α : Type} [Element α] (f : Float → Float) (x : α) : α :=
  Element.ofFloat (f (Element.toFloat x))

/-- The result on one element. -/
def value {α : Type} [Element α] : UnaryOperator → α → α
  | negative, x => Element.neg x
  | sqrt, x => through Float.sqrt x
  | exp, x => through Float.exp x
  | log, x => through Float.log x
  | reciprocal, x => through (fun y => 1 / y) x
  | relu, x => if Element.lt Element.zero x then x else Element.zero

/-- The operator with the given name. -/
def ofName? (name : String) : Option UnaryOperator :=
  [negative, sqrt, exp, log, reciprocal, relu].find? (·.name == name)

end UnaryOperator

/-- Ways to fold many elements into one. -/
inductive Reduction where
  | sum | max
deriving DecidableEq

namespace Reduction

/-- The reduction as node names and messages show it. -/
def name : Reduction → String
  | sum => "sum"
  | max => "max"

/-- What the fold of no elements gives. -/
def identity {α : Type} [Element α] : Reduction → α
  | sum => Element.zero
  | max => Element.lowest

/-- One step of the fold.  A maximum keeps what it has unless the next element
is greater. -/
def combine {α : Type} [Element α] : Reduction → α → α → α
  | sum, acc, x => Element.add acc x
  | max, acc, x => if Element.lt acc x then x else acc

/-- The fold of a list of elements, in order. -/
def fold {α : Type} [Element α] (r : Reduction) (xs : List α) : α :=
  xs.foldl r.combine r.identity

/-- The reduction with the given name. -/
def ofName? (name : String) : Option Reduction :=
  [sum, max].find? (·.name == name)

end Reduction
end TensorGraph
