/-
# Order and consumers

The part of a graph that given nodes depend on, in the order in which its
nodes joined, which is an order of computation; and, for the nodes of an
order, which others read them.
-/
import TensorGraph.Graph
import TensorGraph.NodeMap

namespace TensorGraph.Graph

variable {α : Type}

/-- Marks everything that the nodes on the worklist depend on, themselves
included.  A node is expanded when it is met for the first time. -/
def reach (g : Graph α) (reached : Array Bool) (worklist : List NodeId) : Array Bool :=
  match worklist with
  | [] => reached
  | id :: rest =>
    if h : ∃ inside : id.index < reached.size, reached[id.index] = false then
      g.reach (reached.set id.index true h.1) (g.inputsOf id ++ rest)
    else g.reach reached rest
termination_by (reached.count false, worklist.length)
decreasing_by
  · obtain ⟨inside, fresh⟩ := h
    have member : 0 < reached.count false :=
      Array.count_pos_iff.2 (fresh ▸ Array.getElem_mem inside)
    have lower : (reached.set id.index true inside).count false < reached.count false := by
      rw [Array.count_set]
      simp only [fresh, beq_self_eq_true, if_true, Bool.true_eq_false, beq_iff_eq, if_false]
      omega
    exact Prod.Lex.left _ _ lower
  · exact Prod.Lex.right _ (by simp)

/-- The nodes that `outputs` depend on, themselves included, ascending.  Every
node comes after the nodes that it reads. -/
def dependencies (g : Graph α) (outputs : List NodeId) : Except Error (List NodeId) := do
  g.known outputs
  let reached := g.reach (Array.replicate g.size false) outputs
  .ok (((List.range g.size).filter fun i => reached.getD i false).map NodeId.mk)

/-- Notes that `user` reads `input`, unless that is known or `input` is not of interest. -/
def addUser (users : NodeMap (List NodeId)) (user input : NodeId) : NodeMap (List NodeId) :=
  users.modify input fun known => if known.contains user then known else known ++ [user]

/-- For every node of `order`, the nodes of `order` that read it, each once. -/
def consumers (g : Graph α) (order : List NodeId) : Except Error (NodeMap (List NodeId)) :=
  order.foldlM
    (fun users id => do
      let n ← g.node id
      .ok (n.op.inputs.foldl (addUser · id) users))
    (order.foldl (fun users id => users.insert id []) .empty)

end TensorGraph.Graph
