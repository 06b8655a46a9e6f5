/-
# Building graphs

A caller opens graphs and asks for nodes, by number or through the handles that
earlier requests have answered with; requests are accepted and refused in any order.
A `Session` is what there is at one time: the graphs and all handles issued so far.

    every node is sound, and every handle shows the node that it names   (`Session.Lawful`)
    graphs, nodes and handles stay                                       (`Session.Grows`)

Both are invariants of a single move (`Lawful.step`, `Session.grows_step`).  Which
requests are refused for an unknown node does not depend on the session
(`Workspace.build_unknown`, `Workspace.astray_of_unknown`).
-/
import TensorGraph.Element.Integer
import TensorGraph.Proofs.Graphs

namespace TensorGraph

variable {α : Type}

/-! ## What a request reads -/

namespace Request

/-- The handles that a request is made with. -/
def operands : Request α → List Handle
  | node .. => []
  | binary _ lhs rhs | dot lhs rhs _ | matmul lhs rhs => [lhs, rhs]
  | unary _ input | broadcast input .. | reorder input _ | reshape input _ | reduce _ input _
  | oneHot input .. | maxPool input .. => [input]
  | custom _ inputs => inputs
  | assign target value => [target, value]

/-- The nodes that a request reads. -/
def inputs : Request α → List NodeId
  | node _ op => op.inputs
  | r => r.operands.map (·.node)

/-- The graph that a request adds to: the one it names, or that of its first operand. -/
def receiver? : Request α → Option Nat
  | node graph _ => some graph
  | r => r.operands.head?.map (·.graph)

/-- A product of what are not matrices. -/
def illRanked : Request α → Bool
  | matmul lhs rhs => lhs.shape.rank != 2 || rhs.shape.rank != 2
  | _ => false

/-- An operand lives in another graph than the one that the request adds to, or an
input is not there. -/
def Astray (w : Workspace α) (r : Request α) : Prop :=
  ∃ i, r.receiver? = some i ∧
    ((∃ h ∈ r.operands, h.graph ≠ i) ∨ ∃ x ∈ r.inputs, (w.graph i).size ≤ x.index)

/-- The error of the shape function of a custom operator that the request asks for. -/
def Disowned (w : Workspace α) (r : Request α) (e : Error) : Prop :=
  ∃ i f xs, r.resolve = .ok (i, .custom f xs) ∧
    f.outputShape (xs.map (w.graph i).shapeOf) = .error e

theorem together_eq_ok {first other : Handle} :
    together first other = .ok () ↔ other.graph = first.graph := by
  rw [together]
  split
  · rename_i h
    simp [h]
  · rename_i h
    simp [Ne.symm h]

theorem together_eq_error {first other : Handle} {e : Error}
    (h : together first other = .error e) :
    other.graph ≠ first.graph ∧ e = .unknownNode other.node := by
  rw [together] at h
  split at h
  · cases h
  · rename_i hne
    cases h
    exact ⟨Ne.symm hne, rfl⟩

/-- The operation that a request comes to reads what the request does, in the graph
that the request adds to. -/
structure Resolves (r : Request α) (i : Nat) (op : Operation α) : Prop where
  receiver : r.receiver? = some i
  inputs : op.inputs = r.inputs
  operands : ∀ h ∈ r.operands, h.graph = i

theorem resolve_eq_ok {r : Request α} {i : Nat} {op : Operation α} (h : r.resolve = .ok (i, op)) :
    r.Resolves i op := by
  have pair {first other : Handle} (hpair : together first other = .ok ()) :
      ∀ h ∈ [first, other], h.graph = first.graph := by
    intro h hmem
    rcases List.mem_pair.mp hmem with rfl | rfl
    · rfl
    · exact together_eq_ok.mp hpair
  cases r with
  | node graph op =>
      cases h
      exact ⟨rfl, rfl, nofun⟩
  | unary | broadcast | reorder | reshape | reduce | oneHot | maxPool =>
      cases h
      exact ⟨rfl, rfl, fun h hmem => congrArg Handle.graph (List.mem_singleton.mp hmem)⟩
  | binary | dot | assign =>
      obtain ⟨hpair, h⟩ := Except.then_eq_ok.mp h
      cases h
      exact ⟨rfl, rfl, pair hpair⟩
  | matmul lhs rhs =>
      rw [resolve] at h
      split at h
      · cases h
      · obtain ⟨hpair, h⟩ := Except.then_eq_ok.mp h
        cases h
        exact ⟨rfl, rfl, pair hpair⟩
  | custom operator inputs =>
      cases inputs with
      | nil => cases h
      | cons first rest =>
          obtain ⟨hall, h⟩ := Except.then_eq_ok.mp h
          cases h
          refine ⟨rfl, rfl, List.forall_mem_cons.mpr ⟨rfl, fun h hmem => ?_⟩⟩
          exact together_eq_ok.mp (Except.forM_eq_ok.mp hall h hmem)

/-- An operand of the request lives in another graph than its first. -/
def Scattered (r : Request α) : Prop :=
  ∃ i, r.receiver? = some i ∧ ∃ h ∈ r.operands, h.graph ≠ i

/-- Why the operands of a request do not fit: one of them lives elsewhere, or there are
none, or they are not the matrices that they should be. -/
theorem resolve_eq_error {r : Request α} {e : Error} (h : r.resolve = .error e) :
    (r.Scattered ∧ r.illRanked = false ∧ ∃ id, e = .unknownNode id) ∨
      ((r.illRanked = true ∨ r.receiver? = none) ∧ ∀ id, e ≠ .unknownNode id) := by
  have apart {first other : Handle} (hpair : together first other = .error e)
      (hfirst : r.receiver? = some first.graph) (hother : other ∈ r.operands)
      (hill : r.illRanked = false) :
      r.Scattered ∧ r.illRanked = false ∧ ∃ id, e = .unknownNode id := by
    obtain ⟨hne, he⟩ := together_eq_error hpair
    exact ⟨⟨_, hfirst, other, hother, hne⟩, hill, _, he⟩
  cases r with
  | node | unary | broadcast | reorder | reshape | reduce | oneHot | maxPool => cases h
  | binary | dot | assign =>
      rcases Except.bind_eq_error.mp h with hpair | ⟨_, _, h⟩
      · exact .inl (apart hpair rfl (List.mem_pair.mpr (.inr rfl)) rfl)
      · cases h
  | matmul lhs rhs =>
      rw [resolve] at h
      split at h
      · rename_i hill
        cases h
        exact .inr ⟨.inl (by simpa [illRanked] using hill), nofun⟩
      · rename_i hfit
        rcases Except.bind_eq_error.mp h with hpair | ⟨_, _, h⟩
        · refine .inl (apart hpair rfl (List.mem_pair.mpr (.inr rfl)) ?_)
          simpa [illRanked] using hfit
        · cases h
  | custom operator inputs =>
      cases inputs with
      | nil =>
          cases h
          exact .inr ⟨.inr rfl, nofun⟩
      | cons first rest =>
          rcases Except.bind_eq_error.mp h with hall | ⟨_, _, h⟩
          · obtain ⟨other, hmem, hpair⟩ := Except.exists_of_forM_eq_error hall
            exact .inl (apart hpair rfl (List.mem_cons_of_mem _ hmem) rfl)
          · cases h

/-- Operands that fit live where the request adds to, and none of them are ill-ranked. -/
theorem illRanked_of_resolve {r : Request α} {i : Nat} {op : Operation α}
    (h : r.resolve = .ok (i, op)) : r.illRanked = false := by
  cases r with
  | matmul lhs rhs =>
      rw [resolve] at h
      split at h
      · cases h
      · rename_i hfit
        simpa [illRanked] using hfit
  | node | binary | unary | broadcast | reorder | reshape | reduce | dot | oneHot | maxPool
  | custom | assign => rfl

end Request

/-! ## Refused operations -/

/-- A faulty attribute is a shape error, unless the operator is the caller's. -/
theorem Operation.outputShape_eq_error [Element α] {shapeOf : NodeId → Shape} {op : Operation α}
    {e : Error} (h : op.outputShape shapeOf = .error e) :
    (∃ kind fault, e = .shape kind fault) ∨
      ∃ f xs, op = .custom f xs ∧ f.outputShape (xs.map shapeOf) = .error e := by
  have refused {fault : ShapeFault} (h : op.refuse fault = .error e) :
      (∃ kind fault, e = .shape kind fault) := ⟨_, _, (Except.error.inj h).symm⟩
  cases op with
  | placeholder shape => cases h
  | custom f xs => exact .inr ⟨f, xs, rfl, h⟩
  | persistent shape init =>
      rw [outputShape] at h
      cases hfault : init.fault? with
      | none =>
          rw [hfault] at h
          cases h
      | some fault =>
          rw [hfault] at h
          exact .inl (refused h)
  | unary =>
      simp only [outputShape] at h
      split at h
      · exact .inl (refused h)
      · cases h
  | constant | binary | reorder | reshape | reduce | oneHot | assign =>
      simp only [outputShape] at h
      split at h
      · cases h
      · exact .inl (refused h)
  | broadcast | dot =>
      simp only [outputShape] at h
      split at h
      · exact .inl (refused h)
      · split at h
        · cases h
        · exact .inl (refused h)
  | maxPool =>
      simp only [outputShape] at h
      split at h
      · exact .inl (refused h)
      · split at h
        · exact .inl (refused h)
        · split at h
          · exact .inl (refused h)
          · split at h
            · cases h
            · exact .inl (refused h)

namespace Graph

/-- An operation is refused for an unknown node when one of its inputs is not there, and
otherwise only by the shape function of a custom operator. -/
theorem nodeFor?_eq_error [Element α] {g : Graph α} {op : Operation α} {e : Error}
    (h : g.nodeFor? op = .error e) :
    (∃ x ∈ op.inputs, g.size ≤ x.index ∧ e = .unknownNode x) ∨
      (∀ x ∈ op.inputs, x.index < g.size) ∧ ((∃ kind fault, e = .shape kind fault) ∨
        ∃ f xs, op = .custom f xs ∧ f.outputShape (xs.map g.shapeOf) = .error e) := by
  rcases Except.bind_eq_error.mp h with hknown | ⟨_, hknown, h⟩
  · obtain ⟨before, x, after, hsplit, _, hx, he⟩ := known_eq_error.mp hknown
    exact .inl ⟨x, by simp [hsplit], hx, he⟩
  · refine .inr ⟨known_iff.mp hknown, ?_⟩
    rcases Except.bind_eq_error.mp h with htarget | ⟨_, _, h⟩
    · rw [checkTarget] at htarget
      split at htarget
      · cases htarget
      · split at htarget
        · cases htarget
        · cases htarget
          exact .inl ⟨_, _, rfl⟩
    · rcases Except.bind_eq_error.mp h with hshape | ⟨_, _, h⟩
      · exact Operation.outputShape_eq_error hshape
      · cases h

end Graph

namespace Workspace

variable [Element α]

theorem build_eq_error {w : Workspace α} {r : Request α} {e : Error} :
    w.build r = .error e ↔ r.resolve = .error e ∨
      ∃ i op, r.resolve = .ok (i, op) ∧ (w.graph i).nodeFor? op = .error e := by
  rw [build, Except.bind_eq_error]
  refine or_congr_right ⟨?_, ?_⟩
  · rintro ⟨⟨i, op⟩, hresolve, h⟩
    rcases Except.bind_eq_error.mp h with h | ⟨_, _, h⟩
    · exact ⟨i, op, hresolve, h⟩
    · cases h
  · rintro ⟨i, op, hresolve, h⟩
    exact ⟨(i, op), hresolve, Except.bind_eq_error.mpr (.inl h)⟩

/-- A request that reads what is not in the graph it adds to is refused for it, unless
it is refused before as a product of what are not matrices. -/
theorem build_unknown {w : Workspace α} {r : Request α} (h : r.Astray w)
    (hwell : r.illRanked = false) : ∃ id, w.build r = .error (.unknownNode id) := by
  obtain ⟨i, hi, hastray⟩ := h
  cases hresolve : r.resolve with
  | error e =>
      rcases Request.resolve_eq_error hresolve with ⟨_, _, id, rfl⟩ | ⟨hill | hnone, _⟩
      · exact ⟨id, build_eq_error.mpr (.inl hresolve)⟩
      · cases hwell.symm.trans hill
      · cases hi.symm.trans hnone
  | ok result =>
      obtain ⟨j, op⟩ := result
      have hr := Request.resolve_eq_ok hresolve
      obtain rfl : i = j := Option.some.inj (hi.symm.trans hr.receiver)
      obtain ⟨x, hx, hsize⟩ := hastray.resolve_left fun ⟨h, hmem, hne⟩ => hne (hr.operands h hmem)
      rw [← hr.inputs] at hx
      -- the operands fit, so that the graph itself finds the input missing
      cases hnode : (w.graph i).nodeFor? op with
      | ok n => exact absurd ((Graph.nodeFor?_eq_ok hnode).1 x hx) (Nat.not_lt.mpr hsize)
      | error e =>
          rcases Graph.nodeFor?_eq_error hnode with ⟨y, _, _, rfl⟩ | ⟨hall, _⟩
          · exact ⟨y, build_eq_error.mpr (.inr ⟨i, op, hresolve, hnode⟩)⟩
          · exact absurd (hall x hx) (Nat.not_lt.mpr hsize)

/-- No other request is refused for an unknown node, unless a custom operator does so. -/
theorem astray_of_unknown {w : Workspace α} {r : Request α} {id : NodeId}
    (h : w.build r = .error (.unknownNode id)) :
    r.Astray w ∧ r.illRanked = false ∨ r.Disowned w (.unknownNode id) := by
  rcases build_eq_error.mp h with hresolve | ⟨i, op, hresolve, hnode⟩
  · rcases Request.resolve_eq_error hresolve with ⟨⟨i, hi, hscattered⟩, hwell, _⟩ | ⟨_, hno⟩
    · exact .inl ⟨⟨i, hi, .inl hscattered⟩, hwell⟩
    · exact absurd rfl (hno id)
  · have hr := Request.resolve_eq_ok hresolve
    rcases Graph.nodeFor?_eq_error hnode with ⟨x, hx, hsize, _⟩ | ⟨_, ⟨_, _, he⟩ | ⟨f, xs, rfl, hf⟩⟩
    · refine .inl ⟨⟨i, hr.receiver, .inr ⟨x, ?_, hsize⟩⟩, Request.illRanked_of_resolve hresolve⟩
      rw [← hr.inputs]
      exact hx
    · cases he
    · exact .inr ⟨i, f, xs, hresolve, hf⟩

end Workspace

/-! ## Sessions -/

/-- The graphs that a caller has opened, and the handles that were issued. -/
structure Session (α : Type) where
  workspace : Workspace α
  handles : List Handle

/-- What a caller may do next. -/
inductive Move (α : Type) where
  | graph
  | request (r : Request α)

namespace Session

/-- Nothing has been opened yet. -/
def start : Session α := ⟨.empty, []⟩

/-- A request is made with handles that were issued, or names a graph that was opened. -/
def permits (s : Session α) : Move α → Bool
  | .graph => true
  | .request (.node graph _) => graph < s.workspace.graphs.size
  | .request r => r.operands.all (s.handles.contains ·)

variable [Element α]

/-- The session after a move; a refused request leaves no trace. -/
def step (s : Session α) : Move α → Session α
  | .graph => { s with workspace := s.workspace.addGraph.1 }
  | .request r =>
    match s.workspace.build r with
    | .ok (workspace, handle) => ⟨workspace, s.handles ++ [handle]⟩
    | .error _ => s

/-- The session after some moves. -/
def after (s : Session α) (moves : List (Move α)) : Session α := moves.foldl step s

/-- Every move is permitted when it is made. -/
def permitsAll (s : Session α) : List (Move α) → Bool
  | [] => true
  | m :: rest => s.permits m && (s.step m).permitsAll rest

/-- The graphs have been built by accepted requests, and every handle shows the node that
it names. -/
structure Lawful (s : Session α) : Prop where
  built : s.workspace.Built
  handles : ∀ h ∈ s.handles, h.graph < s.workspace.graphs.size ∧
    ∃ n, (s.workspace.graph h.graph).node? h.node = some n ∧ n.id = h.node ∧ n.layout = h.layout

/-- Graphs, nodes and handles are there as before. -/
structure Grows (s s' : Session α) : Prop where
  graphs : s.workspace.graphs.size ≤ s'.workspace.graphs.size
  nodes : ∀ i id n, (s.workspace.graph i).node? id = some n →
    (s'.workspace.graph i).node? id = some n
  handles : ∀ h ∈ s.handles, h ∈ s'.handles

omit [Element α] in
theorem Grows.refl (s : Session α) : s.Grows s := ⟨Nat.le_refl _, fun _ _ _ h => h, fun _ h => h⟩

omit [Element α] in
theorem Grows.trans {s s' s'' : Session α} (h : s.Grows s') (h' : s'.Grows s'') : s.Grows s'' :=
  ⟨Nat.le_trans h.graphs h'.graphs, fun i id n hn => h'.nodes i id n (h.nodes i id n hn),
    fun x hx => h'.handles x (h.handles x hx)⟩

theorem grows_step (s : Session α) (m : Move α) : s.Grows (s.step m) := by
  cases m with
  | graph =>
      refine ⟨?_, fun i id n hn => ?_, fun _ h => h⟩
      · simp [step, Workspace.addGraph]
      · simp only [step, Workspace.graph_addGraph]
        exact hn
  | request r =>
      rw [step]
      split
      · rename_i w handle hb
        obtain ⟨i, op, n, _, _, rfl, _⟩ := Workspace.build_eq_ok hb
        refine ⟨?_, fun j id m hm => ?_, fun h hh => List.mem_append_left _ hh⟩
        · simp
        · rw [Workspace.graph_modify]
          split
          · rw [Graph.node?_push, if_neg (Nat.ne_of_lt (Graph.node?_lt hm))]
            exact hm
          · exact hm
      · exact .refl s

theorem grows_after (s : Session α) (moves : List (Move α)) : s.Grows (s.after moves) := by
  induction moves generalizing s with
  | nil => exact .refl s
  | cons m rest ih => exact (s.grows_step m).trans (ih _)

/-- A permitted request adds to a graph that is there. -/
theorem Lawful.receiver_lt {s : Session α} (h : s.Lawful) {r : Request α}
    (hpermits : s.permits (.request r) = true) {i : Nat} (hi : r.receiver? = some i) :
    i < s.workspace.graphs.size := by
  have of_operands (hfirst : r.receiver? = r.operands.head?.map (·.graph))
      (hall : r.operands.all (s.handles.contains ·) = true) : i < s.workspace.graphs.size := by
    obtain ⟨first, hhead, rfl⟩ := Option.map_eq_some_iff.mp (hfirst.symm.trans hi)
    have hissued := List.all_eq_true.mp hall first (List.mem_of_mem_head? hhead)
    exact (h.handles first (List.contains_iff_mem.mp hissued)).1
  cases r with
  | node graph op =>
      obtain rfl : graph = i := Option.some.inj hi
      exact of_decide_eq_true hpermits
  | binary | unary | broadcast | reorder | reshape | reduce | dot | matmul | oneHot | maxPool
  | custom | assign => exact of_operands rfl hpermits

theorem Lawful.step {s : Session α} (h : s.Lawful) {m : Move α} (hpermits : s.permits m = true) :
    (s.step m).Lawful := by
  have hgrows := s.grows_step m
  have old : ∀ x ∈ s.handles, x.graph < (s.step m).workspace.graphs.size ∧
      ∃ n, ((s.step m).workspace.graph x.graph).node? x.node = some n ∧ n.id = x.node ∧
        n.layout = x.layout := by
    intro x hx
    obtain ⟨hlt, n, hn, hshown⟩ := h.handles x hx
    exact ⟨Nat.lt_of_lt_of_le hlt hgrows.graphs, n, hgrows.nodes _ _ _ hn, hshown⟩
  revert old
  cases m with
  | graph => exact fun old => ⟨.graph h.built, old⟩
  | request r =>
      rw [Session.step]
      split
      · rename_i w handle hb
        intro old
        refine ⟨.request h.built hb, fun x hx => ?_⟩
        rcases List.mem_append.mp hx with hold | hnew
        · exact old x hold
        · obtain rfl := List.mem_singleton.mp hnew
          obtain ⟨i, op, n, hresolve, hnode, rfl, rfl⟩ := Workspace.build_eq_ok hb
          have hlt := h.receiver_lt hpermits (Request.resolve_eq_ok hresolve).receiver
          obtain ⟨_, _, shape, _, rfl⟩ := Graph.nodeFor?_eq_ok hnode
          refine ⟨by simpa using hlt, ⟨⟨_⟩, op, .packed _ shape⟩, ?_, rfl, rfl⟩
          rw [Workspace.graph_modify, if_pos ⟨rfl, hlt⟩, Graph.node?_push, if_pos rfl]
      · exact fun _ => h

theorem Lawful.after {s : Session α} (h : s.Lawful) {moves : List (Move α)}
    (hpermits : s.permitsAll moves = true) : (s.after moves).Lawful := by
  induction moves generalizing s with
  | nil => exact h
  | cons m rest ih =>
      obtain ⟨hm, hrest⟩ := Bool.and_eq_true_iff.mp hpermits
      exact ih (h.step hm) hrest

theorem lawful_start : (start : Session α).Lawful := ⟨.empty, nofun⟩

/-- What a request does to a session: it is accepted and adds one node to one graph, or
it is refused and changes nothing. -/
structure Requested (s : Session α) (r : Request α) : Prop where
  /-- An accepted request adds one sound node at the end of the graph that receives it,
  and answers with a handle to it. -/
  accepted : ∀ w handle, s.workspace.build r = .ok (w, handle) →
    s.step (.request r) = ⟨w, s.handles ++ [handle]⟩ ∧
    w.graphs.size = s.workspace.graphs.size ∧
    ∃ n : Node α, r.receiver? = some handle.graph ∧ r.resolve = .ok (handle.graph, n.op) ∧
      handle.node = n.id ∧ handle.layout = n.layout ∧
      ∀ i, w.graph i
        = if i = handle.graph then (s.workspace.graph i).push n else s.workspace.graph i
  /-- A refused request changes nothing. -/
  refused : ∀ e, s.workspace.build r = .error e → s.step (.request r) = s
  /-- A request that reads what is not in the graph it adds to is refused for it, unless
  it asks for a product of what are not matrices. -/
  unknown : r.Astray s.workspace → r.illRanked = false →
    ∃ id, s.workspace.build r = .error (.unknownNode id)
  /-- No other request is, unless a custom operator says so. -/
  astray : ∀ id, s.workspace.build r = .error (.unknownNode id) →
    r.Astray s.workspace ∧ r.illRanked = false ∨ r.Disowned s.workspace (.unknownNode id)

/-- Whatever is permitted in a session on which only permitted moves were made. -/
theorem Lawful.requested {s : Session α} (h : s.Lawful) {r : Request α}
    (hpermits : s.permits (.request r) = true) : Requested s r := by
  refine ⟨fun w handle hb => ?_, fun e he => ?_, Workspace.build_unknown,
    fun _ => Workspace.astray_of_unknown⟩
  · obtain ⟨i, op, n, hresolve, hnode, rfl, rfl⟩ := Workspace.build_eq_ok hb
    have hr := Request.resolve_eq_ok hresolve
    have hlt := h.receiver_lt hpermits hr.receiver
    refine ⟨by simp only [Session.step, hb], by simp, n, hr.receiver, ?_, rfl, rfl, fun j => ?_⟩
    · obtain ⟨_, _, shape, _, rfl⟩ := Graph.nodeFor?_eq_ok hnode
      exact hresolve
    · simp only [Workspace.graph_modify, hlt, and_true]
  · simp only [Session.step, he]

/-- Whatever is requested, by number or through the handles of earlier requests, over any
number of graphs and whether or not it is accepted:

* every node has the number of its place, reads smaller numbers only, and has the packed
  layout of the shape that its operation gives for its inputs as they are now;
* an assignment's target is a variable of the shape of the value;
* every handle shows the number and the layout of the node that it names;
* later moves change no node and no handle;
* a request adds one node, or changes nothing. -/
theorem graph_invariant (moves : List (Move α)) (h : start.permitsAll moves = true) :
    (∀ i id n, ((start.after moves).workspace.graph i).node? id = some n →
      n.Sound ((start.after moves).workspace.graph i) id ∧
      ∀ target value, n.op = .assign target value →
        ∃ v, ((start.after moves).workspace.graph i).node? target = some v ∧
          v.op.isPersistent = true ∧
          v.layout.shape = ((start.after moves).workspace.graph i).shapeOf value) ∧
    (∀ x ∈ (start.after moves).handles, x.graph < (start.after moves).workspace.graphs.size ∧
      ∃ n, ((start.after moves).workspace.graph x.graph).node? x.node = some n ∧
        n.id = x.node ∧ n.layout = x.layout) ∧
    (∀ later, (start.after moves).Grows ((start.after moves).after later)) ∧
    ∀ r, (start.after moves).permits (.request r) = true → Requested (start.after moves) r := by
  have hlawful := lawful_start.after h
  refine ⟨fun i id n hn => ?_, hlawful.handles, grows_after _, fun r => hlawful.requested⟩
  have hsound := (hlawful.built.built_graph i).sound hn
  refine ⟨hsound, fun target value hop => ?_⟩
  obtain ⟨v, hv, hpersistent⟩ := hsound.target_eq target (by rw [hop]; rfl)
  refine ⟨v, hv, hpersistent, ?_⟩
  have hshape := hsound.shape_eq
  rw [hop, Operation.outputShape] at hshape
  rw [← Graph.shapeOf_of_node? hv]
  exact (Except.ite_ok_eq_ok.mp hshape).1

/-- The only node of one of two graphs. -/
def source (graph : Nat) : Handle := ⟨graph, ⟨0⟩, .packed .u8 ⟨[2]⟩⟩

/-- Two graphs with a placeholder each.  One is doubled; its negation is refused. -/
def neighbours : List (Move UInt8) :=
  [.graph, .graph, .request (.placeholder 0 ⟨[2]⟩), .request (.placeholder 1 ⟨[2]⟩),
    .request (.binary .add (source 0) (source 0)), .request (.unary .negative (source 0))]

/-- Three handles show their nodes, and placeholders of two graphs are not added. -/
theorem neighbours_invariant :
    (start.after neighbours).handles.length = 3 ∧
    (∀ x ∈ (start.after neighbours).handles,
      ∃ n, ((start.after neighbours).workspace.graph x.graph).node? x.node = some n ∧
        n.id = x.node ∧ n.layout = x.layout) ∧
    ∃ id, (start.after neighbours).workspace.build (.binary .add (source 0) (source 1))
      = .error (.unknownNode id) := by
  obtain ⟨_, hhandles, _, hrequests⟩ := graph_invariant neighbours (by decide +kernel)
  refine ⟨by decide +kernel, fun x hx => (hhandles x hx).2, ?_⟩
  refine (hrequests (.binary .add (source 0) (source 1)) (by decide +kernel)).unknown ?_ rfl
  exact ⟨0, rfl, .inl ⟨source 1, List.mem_cons_of_mem _ List.mem_cons_self, by decide⟩⟩

end Session

end TensorGraph
