/-
# The dense evaluator

What a slice means, said without plans, layouts and memory.  Every node gets
an array of its own with its elements in row-major order; nodes are visited in
the order of the slice, and the first node without a value ends the visit with
its error.

| operation | value |
| :-- | :-- |
| placeholder, constant, variable | what is given for the node |
| reshape, assignment | the array of the input, of the assigned value |
| reorder, broadcast | the input's elements, picked by coordinates |
| element by element | the operator at every index, from the front |
| reduce, dot, max pooling | a fold per output cell, in row-major order |
| one-hot | one in the cells that have the category of an element put in, zero elsewhere |
| custom | the operator's own answer on dense inputs |

What is picked, folded or marked is said of the cells, by their coordinates; how a kernel
finds the numbers of these cells is not used here.

`given` supplies the sources: a slice has a value for every array that the
caller passes in and for every state of the constants and variables.
-/
import TensorGraph.Proofs.Cells
import TensorGraph.Computation.Step
import TensorGraph.Plan.Slice

namespace TensorGraph

/-- The block that a step wrote to its end, or the error that stopped it. -/
def Outcome.result {α : Type} (o : Outcome α) : Except Error (Array α) :=
  match o.failure with
  | none => .ok o.block
  | some error => .error error

theorem Outcome.result_eq_ok {α : Type} {o : Outcome α} {xs : Array α} :
    o.result = .ok xs ↔ o.failure = none ∧ o.block = xs := by
  rw [result]
  cases o.failure with
  | none => simp
  | some e => simp

theorem Outcome.result_eq_error {α : Type} {o : Outcome α} {e : Error} :
    o.result = .error e ↔ o.failure = some e := by
  rw [result]
  cases o.failure with
  | none => simp
  | some e => simp

/-- An array read as a tensor of the given shape, element after element. -/
def View.dense {α : Type} [Element α] (shape : Shape) (xs : Array α) : View α :=
  ⟨xs, .packed (Element.kind α) shape⟩

/-- The cell of the input at the place `w` of the window of the cell `o` of the result. -/
def Kernel.windowCell (strides o w : List Nat) : List Nat :=
  o.take 2 ++ List.zipWith (· + ·) (List.zipWith (· * ·) (o.drop 2) strides) w

namespace Evaluation

open RowMajor

variable {α : Type} [Element α]

/-- The `i`-th element; zero past the end. -/
def nth (xs : Array α) (i : Nat) : α := xs.getD i Element.zero

/-- The element in a cell of a tensor with the given sizes. -/
def entry (dims : List Nat) (xs : Array α) (c : List Nat) : α := nth xs (position c (strides dims))

/-- The array of `n` elements with `f i` for its `i`-th one. -/
def tabulate {β : Type} (n : Nat) (f : Nat → β) : Array β := Array.ofFn fun i : Fin n => f i

/-! ## One operation -/

/-- An operator on two arrays; it has no result if one pair of elements has none. -/
def binary (f : BinaryOperator) (size : Nat) (xs ys : Array α) : Except Error (Array α) :=
  let z := fun i => f.value? (nth xs i) (nth ys i)
  if (List.range size).all fun i => (z i).isSome then
    .ok (tabulate size fun i => (z i).getD Element.zero)
  else .error (.plain (.noResult f (Element.kind α)))

/-- An operator on one array. -/
def unary (f : UnaryOperator) (size : Nat) (xs : Array α) : Array α :=
  tabulate size fun i => f.value (nth xs i)

/-- The elements under permuted axes. -/
def reorder (dims order : List Nat) (xs : Array α) : Array α :=
  tabulate (count (order.map fun a => dims.getD a 0)) fun i => nth xs (reordered dims order i)

/-- The elements repeated along the listed axes of a tensor with the given sizes: each cell
shows what the input has in the cell with its other coordinates. -/
def broadcast (dims axes : List Nat) (xs : Array α) : Array α :=
  let kept := Shape.keptAxes dims.length axes
  tabulate (count dims) fun i =>
    entry (kept.map fun a => dims.getD a 0) xs (kept.map fun a => (coordinates dims i).getD a 0)

/-- The listed axes folded away: each cell of the result gets the fold, in row-major
order, over the cells of the input that have its coordinates along the other axes. -/
def reduce (r : Reduction) (dims axes : List Nat) (xs : Array α) : Array α :=
  let kept := Shape.keptAxes dims.length axes
  let sizes := kept.map fun a => dims.getD a 0
  tabulate (count sizes) fun o =>
    r.fold (((cells dims).filter fun c =>
      (kept.map fun a => c.getD a 0) = coordinates sizes o).map (entry dims xs))

/-- The product of two matrices, once the contracted axes and the others of each
operand are read as one axis. -/
def contract (contracted : Nat) (left right : List Nat) (xs ys : Array α) : Array α :=
  let rows := count (left.take (left.length - contracted))
  let common := count (left.drop (left.length - contracted))
  let columns := count (right.drop contracted)
  tabulate (rows * columns) fun o =>
    (List.range common).foldl
      (fun acc k => Element.add acc
        (Element.mul (nth xs (o / columns * common + k)) (nth ys (k * columns + o % columns))))
      Element.zero

/-- The maximum of each window. -/
def maxPool (window strides dims output : List Nat) (xs : Array α) : Array α :=
  tabulate (count output) fun o =>
    Reduction.max.fold ((cells window).map fun w =>
      entry dims xs (Kernel.windowCell strides (coordinates output o) w))

/-- The elements spread over a new axis: every element marks the cell that has its
coordinates and its category along that axis; marked cells hold one and the others zero.
The error is that of the first element that is no category. -/
def oneHot (depth axis : Nat) (dims : List Nat) (xs : Array α) : Except Error (Array α) :=
  let category := fun c => Element.toFloat (entry dims xs c)
  let output := dims.insertIdx axis depth
  match (cells dims).find? fun c => !Kernel.isCategory depth (category c) with
  | some c => .error (.plain (.notCategory (category c) depth))
  | none => .ok (tabulate (count output) fun o =>
      if (cells dims).any fun c =>
        position (c.insertIdx axis (category c).toUInt64.toNat) (strides output) = o
      then Element.one else Element.zero)

/-- Zeros, as many as a tensor of the given shape has elements. -/
def blank (shape : Shape) : Array α := Array.replicate shape.size Element.zero

/-- The value of a node, from what is `given` for it and the `values` of the nodes
that it reads. -/
def evaluateNode (g : Graph α) (given values : NodeId → Array α) (n : Node α) :
    Except Error (Array α) :=
  let operand id := View.dense (g.shapeOf id) (values id)
  match n.op with
  | .placeholder _ => .ok (given n.id)
  | .constant _ _ => .ok (given n.id)
  | .persistent _ _ => .ok (given n.id)
  | .binary f lhs rhs => binary f n.layout.size (values lhs) (values rhs)
  | .unary f input => .ok (unary f n.layout.size (values input))
  | .broadcast input shape axes => .ok (broadcast shape.dims axes (values input))
  | .reorder input order => .ok (reorder (g.shapeOf input).dims order (values input))
  | .reshape input _ => .ok (values input)
  | .reduce r input axes => .ok (reduce r (g.shapeOf input).dims axes (values input))
  | .dot lhs rhs contracted =>
    .ok (contract contracted (g.shapeOf lhs).dims (g.shapeOf rhs).dims (values lhs) (values rhs))
  | .oneHot input depth axis => oneHot depth axis (g.shapeOf input).dims (values input)
  | .maxPool input window strides =>
    .ok (maxPool window.dims strides (g.shapeOf input).dims n.layout.shape.dims (values input))
  | .custom operator inputs =>
    (operator.compute (inputs.map operand) n.layout (blank n.layout.shape)).result
  | .assign _ value => .ok (values value)

/-- The values in which one node has another value. -/
def record {β : Type} (values : NodeId → β) (id : NodeId) (xs : β) : NodeId → β :=
  fun other => if other = id then xs else values other

/-- The values after one more node. -/
def visit (g : Graph α) (given values : NodeId → Array α) (id : NodeId) :
    Except Error (NodeId → Array α) := do
  let n ← g.node id
  let xs ← evaluateNode g given values n
  .ok (record values id xs)

end Evaluation

/-- The value of every node of a slice, or the error of the first node without one. -/
def Slice.evaluate {α : Type} [Element α] (s : Slice α) (given : NodeId → Array α) :
    Except Error (NodeId → Array α) :=
  s.order.foldlM (Evaluation.visit s.graph given) fun _ => #[]

namespace Evaluation

variable {α : Type}

@[simp] theorem size_tabulate (n : Nat) (f : Nat → α) : (tabulate n f).size = n := by
  simp [tabulate]

@[simp] theorem getElem_tabulate {n : Nat} {f : Nat → α} {i : Nat}
    (h : i < (tabulate n f).size) : (tabulate n f)[i] = f i := by
  simp [tabulate]

/-- Arrays built from equal elements are equal. -/
theorem tabulate_congr {n : Nat} {f g : Nat → α} (h : ∀ i < n, f i = g i) :
    tabulate n f = tabulate n g :=
  congrArg Array.ofFn (funext fun i => h i.val i.isLt)

@[simp] theorem record_self (values : NodeId → Array α) (id : NodeId) (xs : Array α) :
    record values id xs id = xs := by
  simp [record]

theorem record_of_ne (values : NodeId → Array α) {id other : NodeId} (xs : Array α)
    (h : other ≠ id) : record values id xs other = values other := by
  simp [record, h]

@[simp] theorem size_blank [Element α] (shape : Shape) :
    (blank shape : Array α).size = shape.size := by
  simp [blank]

theorem nth_of_lt [Element α] {xs : Array α} {i : Nat} (h : i < xs.size) :
    nth xs i = xs[i] := by
  simp [nth, h]

end Evaluation
end TensorGraph
