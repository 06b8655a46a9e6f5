/-
# What a slice is checked for, and what it still needs

`Slice.Checked` is what a slice with a plan has been checked for.  The part
about assignments is what the rest builds on: no node reads one, so a run may
leave all of them to its end, and no variable has two.

`NeededFrom k id` says that the value of `id` is asked for or read by a step
that has not run when the first `k` nodes have.  Assignments run last, so what
they read is needed throughout.
-/
import TensorGraph.Proofs.Dependencies

namespace TensorGraph.Slice

variable {α : Type}

/-- The variable that a node overwrites, if it is an assignment. -/
def targetOf (s : Slice α) (id : NodeId) : Option NodeId :=
  (s.graph.node? id).bind (·.op.target?)

/-- What a slice that may be planned has been checked for. -/
structure Checked (s : Slice α) : Prop where
  outputs_mem : ∀ id ∈ s.outputs, id ∈ s.order
  parameters_mem : ∀ id ∈ s.parameters, id ∈ s.order
  parameters_nodup : s.parameters.Nodup
  placeholder_iff : ∀ id ∈ s.order, ∀ n, s.graph.node? id = some n →
    (n.op.isPlaceholder = true ↔ id ∈ s.parameters)
  reads_value : ∀ id ∈ s.order, ∀ x ∈ s.graph.inputsOf id, s.runsLast x = false
  targets_distinct : s.order.Pairwise fun a b => ∀ t, s.targetOf a = some t → s.targetOf b ≠ some t

theorem runsLast_of_node? {s : Slice α} {id : NodeId} {n : Node α}
    (h : s.graph.node? id = some n) : s.runsLast id = n.op.isAssignment := by
  simp [runsLast, h]

theorem targetOf_of_node? {s : Slice α} {id : NodeId} {n : Node α}
    (h : s.graph.node? id = some n) : s.targetOf id = n.op.target? := by
  simp [targetOf, h]

theorem runsLast_of_targetOf {s : Slice α} {id target : NodeId} (h : s.targetOf id = some target) :
    s.runsLast id = true := by
  obtain ⟨n, hn, hop⟩ := Option.bind_eq_some_iff.mp h
  rw [runsLast_of_node? hn, Operation.isAssignment, hop]
  rfl

/-! ## Checks -/

theorem checkOutputs_eq_ok {s : Slice α} : s.checkOutputs = .ok () ↔ s.outputs ≠ [] := by
  rw [checkOutputs, refuse, Except.ite_error_eq_ok, List.isEmpty_iff]
  exact and_iff_left rfl

theorem checkPresence_eq_ok {s : Slice α} :
    s.checkPresence = .ok () ↔ ∀ id ∈ s.outputs ++ s.parameters, id ∈ s.order := by
  unfold checkPresence
  split
  · rename_i id hfound
    refine ⟨nofun, fun h => ?_⟩
    have hout := List.find?_some hfound
    simp [h id (List.mem_of_find?_eq_some hfound)] at hout
  · rename_i hnone
    exact ⟨fun _ id hid => by simpa using List.find?_eq_none.mp hnone id hid, fun _ => rfl⟩

theorem checkDistinct_eq_ok {s : Slice α} : s.checkDistinct = .ok () ↔ s.parameters.Nodup := by
  rw [checkDistinct, refuse, Except.ite_ok_eq_ok]
  exact and_iff_left rfl

theorem checkBinding_eq_ok {s : Slice α} {id : NodeId} {n : Node α}
    (hn : s.graph.node? id = some n) :
    s.checkBinding id = .ok () ↔ (n.op.isPlaceholder = true ↔ id ∈ s.parameters) := by
  rw [checkBinding, Graph.node_eq_ok_iff.mpr hn, Except.ok_bind, ← List.contains_iff_mem]
  cases n.op.isPlaceholder <;> cases s.parameters.contains id <;> simp [refuse]

theorem checkReads_eq_ok {s : Slice α} {n : Node α}
    (hknown : ∀ x ∈ n.op.inputs, ∃ m, s.graph.node? x = some m) :
    s.checkReads n = .ok () ↔ ∀ x ∈ n.op.inputs, s.runsLast x = false := by
  rw [checkReads, Except.forM_eq_ok]
  refine forall₂_congr fun x hx => ?_
  obtain ⟨m, hm⟩ := hknown x hx
  rw [Graph.node_eq_ok_iff.mpr hm, runsLast_of_node? hm]
  change (if m.op.isAssignment = true then _ else _) = _ ↔ _
  rw [refuse, Except.ite_error_eq_ok, Bool.not_eq_true]
  exact and_iff_left rfl

theorem checkAssignments_cons {s : Slice α} {id : NodeId} {rest assigned : List NodeId}
    {n : Node α} (hn : s.graph.node? id = some n) :
    s.checkAssignments (id :: rest) assigned = .ok () ↔
      (∀ t, n.op.target? = some t → t ∉ assigned) ∧ s.checkReads n = .ok () ∧
        s.checkAssignments rest (n.op.target?.toList ++ assigned) = .ok () := by
  rw [checkAssignments, Graph.node_eq_ok_iff.mpr hn, Except.ok_bind]
  cases n.op.target? with
  | none =>
      rw [Except.then_eq_ok]
      simp
  | some target =>
      by_cases hnew : target ∈ assigned
      · simp [hnew, refuse, bind, Except.bind]
      · simp [hnew, Except.then_eq_ok]

/-- The loop over the assignments: `assigned` are the targets met so far. -/
theorem checkAssignments_eq_ok {s : Slice α} {ids assigned : List NodeId}
    (hknown : ∀ id ∈ ids, ∃ n, s.graph.node? id = some n)
    (hinputs : ∀ id ∈ ids, ∀ x ∈ s.graph.inputsOf id, ∃ n, s.graph.node? x = some n) :
    s.checkAssignments ids assigned = .ok () ↔
      (∀ id ∈ ids, ∀ x ∈ s.graph.inputsOf id, s.runsLast x = false) ∧
      (∀ id ∈ ids, ∀ t, s.targetOf id = some t → t ∉ assigned) ∧
      ids.Pairwise fun a b => ∀ t, s.targetOf a = some t → s.targetOf b ≠ some t := by
  induction ids generalizing assigned with
  | nil => exact ⟨fun _ => ⟨nofun, nofun, .nil⟩, fun _ => rfl⟩
  | cons id rest ih =>
      obtain ⟨⟨n, hn⟩, hrest⟩ := List.forall_mem_cons.mp hknown
      obtain ⟨hin, hinrest⟩ := List.forall_mem_cons.mp hinputs
      have hreads := Graph.inputsOf_of_node? hn
      rw [hreads] at hin
      rw [checkAssignments_cons hn, checkReads_eq_ok hin, ih hrest hinrest, List.forall_mem_cons,
        List.forall_mem_cons, List.pairwise_cons, hreads, targetOf_of_node? hn]
      simp only [List.mem_append, Option.mem_toList, not_or]
      constructor
      · rintro ⟨hnew, hr, hrs, hnews, hpairs⟩
        exact ⟨⟨hr, hrs⟩, ⟨hnew, fun x hx t ht => (hnews x hx t ht).2⟩,
          fun x hx t ht ht' => (hnews x hx t ht').1 ht, hpairs⟩
      · rintro ⟨⟨hr, hrs⟩, ⟨hnew, hnews⟩, hpair, hpairs⟩
        exact ⟨hnew, hr, hrs, fun x hx t ht => ⟨fun ht' => hpair x hx t ht' ht, hnews x hx t ht⟩,
          hpairs⟩

/-- A slice whose nodes are known passes its checks exactly if something is asked for
and it is as it has been checked to be. -/
theorem check_eq_ok {s : Slice α} (hs : s.Ordered) :
    s.check = .ok () ↔ s.outputs ≠ [] ∧ s.Checked := by
  have hknown : ∀ id ∈ s.order, ∀ x ∈ s.graph.inputsOf id, ∃ n, s.graph.node? x = some n :=
    fun id hid x hx => hs.known x (hs.closed hid hx)
  have hbinding : s.order.forM s.checkBinding = .ok () ↔ ∀ id ∈ s.order, ∀ n,
      s.graph.node? id = some n → (n.op.isPlaceholder = true ↔ id ∈ s.parameters) := by
    rw [Except.forM_eq_ok]
    refine forall₂_congr fun id hid => ?_
    obtain ⟨n, hn⟩ := hs.known id hid
    rw [checkBinding_eq_ok hn]
    exact ⟨fun h m hm => Option.some.inj (hn.symm.trans hm) ▸ h, fun h => h n hn⟩
  rw [check, Except.then_eq_ok, Except.then_eq_ok, Except.then_eq_ok, Except.then_eq_ok,
    checkOutputs_eq_ok, checkPresence_eq_ok, checkDistinct_eq_ok, hbinding,
    checkAssignments_eq_ok hs.known hknown, List.forall_mem_append]
  constructor
  · rintro ⟨hasked, ⟨houtputs, hparameters⟩, hnodup, hbound, hreads, _, htargets⟩
    exact ⟨hasked, houtputs, hparameters, hnodup, hbound, hreads, htargets⟩
  · rintro ⟨hasked, houtputs, hparameters, hnodup, hbound, hreads, htargets⟩
    exact ⟨hasked, ⟨houtputs, hparameters⟩, hnodup, hbound, hreads,
      fun _ _ _ _ => List.not_mem_nil, htargets⟩

/-! ## What is still needed -/

/-- The value of a node is asked for or read once the first `k` nodes are done. -/
def NeededFrom (s : Slice α) (k : Nat) (id : NodeId) : Prop :=
  id ∈ s.outputs ∨ ∃ reader q, s.order[q]? = some reader ∧ id ∈ s.graph.inputsOf reader ∧
    (s.runsLast reader = true ∨ k ≤ q)

theorem neededAfter_iff {s : Slice α} {position : Nat} {id : NodeId} :
    s.neededAfter position id = true ↔ s.NeededFrom (position + 1) id := by
  simp only [neededAfter, NeededFrom, reads, Bool.or_eq_true, List.contains_iff_mem,
    List.any_eq_true, Bool.and_eq_true, decide_eq_true_eq]
  refine or_congr_right ⟨?_, ?_⟩
  · rintro ⟨⟨reader, q⟩, hmem, hreads, hlater⟩
    exact ⟨reader, q, List.mk_mem_zipIdx_iff_getElem?.mp hmem, hreads, hlater⟩
  · rintro ⟨reader, q, hget, hreads, hlater⟩
    exact ⟨⟨reader, q⟩, List.mk_mem_zipIdx_iff_getElem?.mpr hget, hreads, hlater⟩

theorem NeededFrom.anti {s : Slice α} {j k : Nat} {id : NodeId} (hjk : j ≤ k)
    (h : s.NeededFrom k id) : s.NeededFrom j id := by
  rcases h with h | ⟨reader, q, hget, hin, hlater⟩
  · exact .inl h
  · exact .inr ⟨reader, q, hget, hin, hlater.imp_right (Nat.le_trans hjk)⟩

/-- What the node at a position reads is needed from there on. -/
theorem neededFrom_input {s : Slice α} {before after : List NodeId} {id x : NodeId}
    (ho : s.order = before ++ id :: after) (hx : x ∈ s.graph.inputsOf id) :
    s.NeededFrom before.length x :=
  .inr ⟨id, before.length, by simp [ho], hx, .inr (Nat.le_refl _)⟩

/-- What an assignment reads is needed throughout. -/
theorem neededFrom_assigned {s : Slice α} {id x : NodeId} (k : Nat) (hid : id ∈ s.order)
    (hlast : s.runsLast id = true) (hx : x ∈ s.graph.inputsOf id) : s.NeededFrom k x := by
  obtain ⟨q, hq⟩ := List.mem_iff_getElem?.mp hid
  exact .inr ⟨id, q, hq, hx, .inl hlast⟩

end TensorGraph.Slice
