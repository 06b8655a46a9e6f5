/-
# Plans

A plan says in which buffer every value of a computation lies and which
nodes need a step of their own.  Several nodes may share a buffer: those
that only read another in a new way, those that overwrite an input, and
assignments, which lie where their variable lies.
-/
import TensorGraph.Error
import TensorGraph.Layout
import TensorGraph.NodeMap

namespace TensorGraph

/-- What a buffer is for. -/
inductive BufferRole where
  /-- Receives a value from the caller on every run. -/
  | parameter
  /-- Holds a literal. -/
  | constant
  /-- Holds a value that persists between runs. -/
  | persistent
  /-- Scratch space, written by steps. -/
  | intermediate
deriving DecidableEq, Inhabited

namespace BufferRole

/-- The role as listings show it. -/
def name : BufferRole → String
  | parameter => "Parameter"
  | constant => "Constant"
  | persistent => "Variable"
  | intermediate => "Intermediate"

/-- The buffer is populated before the first run. -/
def populated : BufferRole → Bool
  | constant => true
  | persistent => true
  | parameter => false
  | intermediate => false

end BufferRole

/-- A buffer of a plan, named after the node that first lies in it. -/
structure Buffer where
  name : String
  node : NodeId
  role : BufferRole
  kind : ElementKind
  /-- Length in elements, enough for everything that lies in the buffer. -/
  elements : Nat
  bytes : Nat
deriving DecidableEq, Inhabited

/-- Where a value lies: a buffer and a layout in it. -/
structure Placement where
  buffer : Nat
  layout : Layout
deriving DecidableEq, Inhabited

/-- A node that writes its result over one of its inputs. -/
structure Overwrite where
  node : NodeId
  input : NodeId
deriving DecidableEq, Inhabited

/-- Where the values of a computation lie and what has to be computed. -/
structure Plan where
  buffers : Array Buffer
  placements : NodeMap Placement
  /-- The nodes that need a step, in order of execution. -/
  steps : List NodeId
  overwrites : List Overwrite
  parameters : List NodeId
  outputs : List NodeId
deriving DecidableEq, Inhabited

namespace Plan

/-- No buffer has as many bytes: sizes in bytes fit in 64 bits. -/
def byteLimit : Nat := 0x10000000000000000

/-- Where the value of a node lies. -/
def placement (p : Plan) (id : NodeId) : Except Error Placement :=
  match p.placements.get? id with
  | some place => .ok place
  | none => .error (.compilation (.noPlacement id))

/-- The buffer with the given number. -/
def buffer (p : Plan) (i : Nat) : Buffer := p.buffers.getD i default

/-- The buffer in which the value of a node lies. -/
def bufferOf (p : Plan) (id : NodeId) : Except Error Buffer := do
  .ok (p.buffer (← p.placement id).buffer)

/-- Bytes of all buffers together. -/
def totalBytes (p : Plan) : Nat := p.buffers.foldl (fun total b => total + b.bytes) 0

end Plan

/-! ## Totals -/

/-- The sum of a quantity over a list. -/
def total {β : Type} (quantity : β → Nat) (xs : List β) : Nat :=
  xs.foldr (fun x rest => quantity x + rest) 0

variable {β : Type} (quantity : β → Nat)

@[simp] theorem total_nil : total quantity [] = 0 := rfl

@[simp] theorem total_cons (x : β) (xs : List β) :
    total quantity (x :: xs) = quantity x + total quantity xs := rfl

@[simp] theorem total_append (xs ys : List β) :
    total quantity (xs ++ ys) = total quantity xs + total quantity ys := by
  induction xs with
  | nil => simp
  | cons x rest ih =>
      rw [List.cons_append, total_cons, total_cons, ih, Nat.add_assoc]

variable {quantity} in
/-- The order of a list does not matter to its total. -/
theorem total_perm {xs ys : List β} (h : xs.Perm ys) : total quantity xs = total quantity ys := by
  induction h with
  | nil => rfl
  | cons x _ ih => rw [total_cons, total_cons, ih]
  | swap x y rest => simp only [total_cons, Nat.add_left_comm]
  | trans _ _ ih ih' => exact ih.trans ih'

/-- The total is that of the quantities themselves. -/
theorem total_id_map (xs : List β) : total id (xs.map quantity) = total quantity xs := by
  induction xs with
  | nil => rfl
  | cons x rest ih => rw [List.map_cons, total_cons, total_cons, ih, id]

/-- A list falls into the part that is kept and the part that is not. -/
theorem total_filter (keeps : β → Bool) (xs : List β) :
    total quantity xs
      = total quantity (xs.filter keeps) + total quantity (xs.filter fun x => !keeps x) := by
  induction xs with
  | nil => rfl
  | cons x rest ih =>
      cases h : keeps x with
      | true =>
          simp only [List.filter_cons, h, Bool.not_true, if_true, total_cons, ih]
          simp [Nat.add_assoc]
      | false =>
          simp only [List.filter_cons, h, Bool.not_false, if_true, total_cons, ih]
          simp [Nat.add_left_comm]

theorem Plan.totalBytes_eq (p : Plan) : p.totalBytes = total Buffer.bytes p.buffers.toList := by
  have fold : ∀ (xs : List Buffer) (n : Nat),
      xs.foldl (fun sum b => sum + b.bytes) n = n + total Buffer.bytes xs := by
    intro xs
    induction xs with
    | nil => intro n; rfl
    | cons x rest ih =>
        intro n
        rw [List.foldl_cons, ih, total_cons, Nat.add_assoc]
  rw [Plan.totalBytes, ← Array.foldl_toList, fold, Nat.zero_add]

end TensorGraph
