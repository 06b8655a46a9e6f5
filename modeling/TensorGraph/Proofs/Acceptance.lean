/-
# Which slices have a plan

`Slice.Plannable` says it in terms of the graph, without drafts or buffers.

| demand | about | otherwise |
| :-- | :-- | :-- |
| `Coherent` | outputs, parameters and assignments | a fault of the compilation |
| `in_step` | assigned values that the variable's own place shows | a fault of the compilation |
| `inhabited` | values with a place of their own | nothing to allocate |
| `bounded` | the same | too much to allocate |

No demand speaks of overwriting, so whether there is a plan does not depend on it.
What overwriting changes is in which scratch buffer a value lies; and a scratch
buffer that a second node writes has the size of that node as well.

Necessity is read off what is known of every plan (`Planned`).  Sufficiency is
progress: a sound draft of a plannable slice can always place the next node, and at
the end every buffer has a size.
-/
import Mathlib.Data.List.Pairwise
import TensorGraph.Proofs.Compilation
import TensorGraph.Proofs.Extents

namespace TensorGraph

variable {α : Type}

/-- Shows the elements of its input in another order or repeatedly, always in place. -/
def Operation.rearranges : Operation α → Bool
  | broadcast _ _ _ => true
  | reorder _ _ => true
  | _ => false

/-- Whatever needs a step if it is a reading does not merely rearrange elements. -/
theorem Sites.rearranges_eq_false {σ : Sites} {op : Operation α}
    (h : op.isReading = true → σ.computes op = true) : op.rearranges = false := by
  cases op with
  | broadcast | reorder => simp [Operation.isReading, Sites.computes] at h
  | _ => rfl

/-- The place of `source` shows the value of a node under the given layout: the node is
`source` itself or reads it without a step. -/
inductive Graph.Shows (g : Graph α) (source : NodeId) : NodeId → Layout → Prop
  | self {n : Node α} : g.node? source = some n → Shows g source source n.layout
  | reshaped {id input : NodeId} {shape : Shape} {l : Layout} {n : Node α} :
      Shows g source input l → l.isPacked = true → g.node? id = some n →
      n.op = .reshape input shape → Shows g source id (l.reshape shape)
  | reordered {id input : NodeId} {order : List Nat} {l : Layout} {n : Node α} :
      Shows g source input l → g.node? id = some n →
      n.op = .reorder input order → Shows g source id (l.transpose order)
  | repeated {id input : NodeId} {shape : Shape} {axes : List Nat} {l : Layout} {n : Node α} :
      Shows g source input l → g.node? id = some n →
      n.op = .broadcast input shape axes → Shows g source id (l.broadcast shape axes)

namespace Slice

/-- Outputs, parameters and assignments of the slice fit together. -/
structure Coherent (s : Slice α) : Prop where
  /-- Something is asked for. -/
  asked : s.outputs ≠ []
  parameters_nodup : s.parameters.Nodup
  parameter_placeholder : ∀ id ∈ s.parameters,
    ∃ n, s.graph.node? id = some n ∧ n.op.isPlaceholder = true
  placeholder_bound : ∀ id ∈ s.order, ∀ n, s.graph.node? id = some n →
    n.op.isPlaceholder = true → id ∈ s.parameters
  targets_distinct : ∀ a ∈ s.order, ∀ b ∈ s.order, a ≠ b →
    ∀ t, s.targetOf a = some t → s.targetOf b ≠ some t
  /-- No node reads an assignment. -/
  reads_value : ∀ id ∈ s.order, ∀ x ∈ s.graph.inputsOf id, s.runsLast x = false

/-- The slice has a plan. -/
structure Plannable (s : Slice α) : Prop extends s.Coherent where
  /-- An assigned value that lies in the place of its variable lies there just as the
  variable does. -/
  in_step : ∀ a ∈ s.order, ∀ n target value, s.graph.node? a = some n →
    n.op = .assign target value → ∀ m, s.graph.node? target = some m →
    ∀ l, s.graph.Shows target value l → l = m.layout
  inhabited : ∀ id ∈ s.order, ∀ n, s.graph.node? id = some n → n.op.rearranges = false →
    n.layout.size ≠ 0
  bounded : ∀ id ∈ s.order, ∀ n, s.graph.node? id = some n → n.op.rearranges = false →
    n.layout.size * n.layout.kind.bytes < Plan.byteLimit

/-! ## The checks -/

theorem coherent_iff {s : Slice α} (hs : s.Ordered)
    (hroots : ∀ id ∈ s.outputs ++ s.parameters, id ∈ s.order) :
    s.Coherent ↔ s.outputs ≠ [] ∧ s.Checked := by
  obtain ⟨houtputs, hparameters⟩ := List.forall_mem_append.mp hroots
  constructor
  · intro h
    refine ⟨h.asked, houtputs, hparameters, h.parameters_nodup, fun id hid n hn => ?_,
      h.reads_value, ?_⟩
    · refine ⟨h.placeholder_bound id hid n hn, fun hmem => ?_⟩
      obtain ⟨m, hm, hplaceholder⟩ := h.parameter_placeholder id hmem
      cases hn.symm.trans hm
      exact hplaceholder
    · exact hs.nodup.pairwise_of_forall_ne h.targets_distinct
  · rintro ⟨hasked, h⟩
    refine ⟨hasked, h.parameters_nodup, fun id hid => ?_, fun id hid n hn =>
      (h.placeholder_iff id hid n hn).mp, fun a ha b hb hne t hat hbt => ?_, h.reads_value⟩
    · obtain ⟨n, hn⟩ := hs.known id (hparameters id hid)
      exact ⟨n, hn, (h.placeholder_iff id (hparameters id hid) n hn).mpr hid⟩
    · have hsymm : Std.Symm fun a b => ∀ t, s.targetOf a = some t → s.targetOf b ≠ some t :=
        ⟨fun x y hxy t hy hx => hxy t hx hy⟩
      exact h.targets_distinct.forall ha hb hne t hat hbt

/-- The only errors are faults of the compilation. -/
def Faulted {β : Type} (x : Except Error β) : Prop :=
  ∀ e, x = .error e → ∃ fault, e = .compilation fault

theorem faulted_ok {β : Type} (b : β) : Faulted (.ok b) := nofun

theorem faulted_refuse {β : Type} (fault : CompilationFault) :
    Faulted (refuse fault : Except Error β) := by
  intro e he
  cases he
  exact ⟨fault, rfl⟩

theorem Faulted.bind {β γ : Type} {x : Except Error β} {f : β → Except Error γ} (hx : Faulted x)
    (hf : ∀ b, x = .ok b → Faulted (f b)) : Faulted (x >>= f) := by
  cases x with
  | error e => exact fun e' he => hx e' (Except.error.inj he ▸ rfl)
  | ok b => exact hf b rfl

theorem Faulted.forM {β : Type} {f : β → Except Error PUnit} {xs : List β}
    (h : ∀ x ∈ xs, Faulted (f x)) : Faulted (xs.forM f) := by
  induction xs with
  | nil => exact faulted_ok _
  | cons x rest ih =>
      obtain ⟨hx, hrest⟩ := List.forall_mem_cons.mp h
      exact hx.bind fun _ _ => ih hrest

theorem faulted_node {s : Slice α} {id : NodeId} (h : ∃ n, s.graph.node? id = some n) :
    Faulted (s.graph.node id) := by
  obtain ⟨n, hn⟩ := h
  rw [Graph.node_eq_ok_iff.mpr hn]
  exact faulted_ok n

theorem faulted_checkAssignments {s : Slice α} {ids assigned : List NodeId}
    (hknown : ∀ id ∈ ids, ∃ n, s.graph.node? id = some n)
    (hinputs : ∀ id ∈ ids, ∀ x ∈ s.graph.inputsOf id, ∃ n, s.graph.node? x = some n) :
    Faulted (s.checkAssignments ids assigned) := by
  induction ids generalizing assigned with
  | nil => exact faulted_ok _
  | cons id rest ih =>
      obtain ⟨hnode, hrest⟩ := List.forall_mem_cons.mp hknown
      obtain ⟨hin, hinrest⟩ := List.forall_mem_cons.mp hinputs
      refine (faulted_node hnode).bind fun n hn => ?_
      rw [Graph.inputsOf_of_node? (Graph.node_eq_ok_iff.mp hn)] at hin
      have hreads : Faulted (s.checkReads n) := Faulted.forM fun x hx => by
        refine (faulted_node (hin x hx)).bind fun m _ => ?_
        split
        · exact faulted_refuse _
        · exact faulted_ok _
      split
      · exact hreads.bind fun _ _ => ih hrest hinrest
      · split
        · exact (faulted_refuse _).bind fun _ _ => hreads.bind fun _ _ => ih hrest hinrest
        · exact hreads.bind fun _ _ => ih hrest hinrest

/-- Slices that fail a check have a fault. -/
theorem faulted_check {s : Slice α} (hs : s.Ordered) : Faulted s.check := by
  have houtputs : Faulted s.checkOutputs := by
    unfold checkOutputs
    split
    · exact faulted_refuse _
    · exact faulted_ok _
  have hpresence : Faulted s.checkPresence := by
    unfold checkPresence
    split
    · exact faulted_refuse _
    · exact faulted_ok _
  have hdistinct : Faulted s.checkDistinct := by
    unfold checkDistinct
    split
    · exact faulted_ok _
    · exact faulted_refuse _
  have hbinding : Faulted (s.order.forM s.checkBinding) := Faulted.forM fun id hid => by
    refine (faulted_node (hs.known id hid)).bind fun n _ => ?_
    split
    · exact faulted_refuse _
    · exact faulted_refuse _
    · exact faulted_ok _
  refine houtputs.bind fun _ _ => hpresence.bind fun _ _ => hdistinct.bind fun _ _ =>
    hbinding.bind fun _ _ => faulted_checkAssignments hs.known fun id hid x hx => ?_
  exact hs.known x (hs.closed hid hx)

/-! ## Where values lie -/

section Settled

variable {s : Slice α} {σ : Sites} {before : List NodeId} (hσ : s.Settled σ before)

include hσ

/-- Whatever the place of a source shows lies there. -/
theorem Settled.place_of_shows {source : NodeId} {q : Placement} {m : Node α}
    (hm : s.graph.node? source = some m) (hsource : m.op.isSource = true)
    (hq : σ.place source = some q) {id : NodeId} {l : Layout} (h : s.graph.Shows source id l)
    {r : Placement} (hr : σ.place id = some r) : r = ⟨q.buffer, l⟩ := by
  induction h generalizing r with
  | self hn =>
      cases hq.symm.trans hr
      obtain ⟨_, _, _, hhosted⟩ := hσ.hosted_of_node hm hq
      cases hm.symm.trans hn
      obtain ⟨_, _, _, hlayout⟩ := hhosted.source hsource
      rw [← hlayout]
  | reshaped _ hpacked hn hop ih =>
      obtain ⟨_, _, _, hhosted⟩ := hσ.hosted_of_node hn hr
      obtain ⟨v, hv, he⟩ := hhosted.of_reshape hop
      cases ih hv
      exact he hpacked
  | reordered _ hn hop ih =>
      obtain ⟨_, _, _, hhosted⟩ := hσ.hosted_of_node hn hr
      obtain ⟨v, hv, he⟩ := hhosted.of_reorder hop
      rw [he, ih hv]
  | repeated _ hn hop ih =>
      obtain ⟨_, _, _, hhosted⟩ := hσ.hosted_of_node hn hr
      obtain ⟨v, hv, he⟩ := hhosted.of_broadcast hop
      rw [he, ih hv]

/-- Whatever reads a source anew without a step is shown by its place. -/
theorem Settled.shows_of_rereads {source : NodeId} {m : Node α}
    (hm : s.graph.node? source = some m) (hsource : m.op.isSource = true) {id : NodeId}
    (h : s.Rereads σ source id) {r : Placement} (hr : σ.place id = some r) : s.graph.Shows source id r.layout := by
  induction h generalizing r with
  | self =>
      obtain ⟨_, _, _, hhosted⟩ := hσ.hosted_of_node hm hr
      obtain ⟨_, _, _, hlayout⟩ := hhosted.source hsource
      rw [hlayout]
      exact .self hm
  | @reading input id n _ hn hread hcomputes hin ih =>
      obtain ⟨_, _, _, hhosted⟩ := hσ.hosted_of_node hn hr
      cases hop : n.op with
      | reshape x shape =>
          obtain rfl : input = x := by simpa [hop, Operation.inputs] using hin
          obtain ⟨v, hv, he⟩ := hhosted.of_reshape hop
          have hp : v.layout.isPacked = true := by simpa [hop, Sites.computes, hv] using hcomputes
          rw [he hp]
          exact .reshaped (ih hv) hp hn hop
      | reorder x order =>
          obtain rfl : input = x := by simpa [hop, Operation.inputs] using hin
          obtain ⟨v, hv, he⟩ := hhosted.of_reorder hop
          rw [he]
          exact .reordered (ih hv) hn hop
      | broadcast x shape axes =>
          obtain rfl : input = x := by simpa [hop, Operation.inputs] using hin
          obtain ⟨v, hv, he⟩ := hhosted.of_broadcast hop
          rw [he]
          exact .repeated (ih hv) hn hop
      | _ => simp [hop, Operation.isReading] at hread

/-- The value of `h` is the first one in the buffer, and has elements. -/
structure Home (s : Slice α) (σ : Sites) (before : List NodeId) (b : Nat) (h : NodeId)
    (n : Node α) : Prop where
  node : s.graph.node? h = some n
  place : σ.place h = some ⟨b, n.layout⟩
  stored : n.op.rearranges = false
  size_ne_zero : n.layout.size ≠ 0
  first : ∃ done rest, before = done ++ h :: rest ∧
    ∀ x ∈ done, ∀ r, σ.place x = some r → r.buffer ≠ b

omit hσ in
theorem Home.eq_of_firstIn {b : Nat} {h id : NodeId} {n : Node α} {l : Layout}
    (hhome : Home s σ before b h n) (hfirst : σ.FirstIn before id b)
    (hid : id ∈ before) (hplace : σ.place id = some ⟨b, l⟩) : h = id := by
  obtain ⟨done, rest, hsplit, hnew⟩ := hhome.first
  obtain ⟨done', rest', hsplit'⟩ := List.append_of_mem hid
  by_contra hne
  rcases List.mem_before_or hsplit hsplit' hne with hmem | hmem
  · exact hfirst done' rest' hsplit' h hmem _ hhome.place rfl
  · exact hnew id hmem _ hplace rfl

variable [Element α] (hg : s.graph.Built)

include hg

/-- Every value lies inside the value of a node with a buffer of its own. -/
theorem Settled.exists_home {id : NodeId} {q : Placement} (hq : σ.place id = some q) :
    ∃ h n, Home s σ before q.buffer h n ∧ q.layout.Inside n.layout.size := by
  induction hk : id.index using Nat.strongRecOn generalizing id q with
  | ind k ih =>
      obtain ⟨done, rest, n, q', ho, hn, hq', hhosted⟩ := hσ.hosted_of_mem (hσ.placed id q hq)
      cases hq'.symm.trans hq
      have hsound := hg.sound hn
      have hrule := hsound.shape_eq
      have input : ∀ {x r}, x ∈ n.op.inputs → σ.place x = some r →
          r.layout.shape = s.graph.shapeOf x ∧
            ∃ h n, Home s σ before r.buffer h n ∧ r.layout.Inside n.layout.size :=
        fun hx hr => ⟨(hσ.shaped hg hr).1, ih _ (hk ▸ hsound.inputs_lt _ hx) hr rfl⟩
      cases hhosted with
      | fresh hassign hread hsize hrole hnew =>
          refine ⟨id, n, ⟨hn, hq, Sites.rearranges_eq_false hread, hsize, done, rest, ho, hnew⟩, ?_⟩
          have hinside := Layout.Inside.packed (Element.kind α) hsize
          rwa [← hsound.layout_eq] at hinside
      | reshaped hop hr hp =>
          obtain ⟨hshape, h, m, hhome, hinside⟩ := input (by simp [hop, Operation.inputs]) hr
          rw [hop, Operation.reshape_eq_ok, ← hshape] at hrule
          exact ⟨h, m, hhome, hinside.reshape hp hrule.1⟩
      | reordered hop hr =>
          obtain ⟨hshape, h, m, hhome, hinside⟩ := input (by simp [hop, Operation.inputs]) hr
          rw [hop, Operation.reorder_eq_ok, ← hshape] at hrule
          exact ⟨h, m, hhome, hinside.transpose hrule.1.1 hrule.1.2⟩
      | repeated hop hr =>
          obtain ⟨hshape, h, m, hhome, hinside⟩ := input (by simp [hop, Operation.inputs]) hr
          rw [hop, Operation.broadcast_eq_ok, ← hshape] at hrule
          exact ⟨h, m, hhome, hinside.broadcast hrule.2.1⟩
      | assigned hop hr => exact (input (by simp [hop, Operation.inputs]) hr).2
      | overwriting _ hmem hr => exact (input hmem hr).2

/-- Only readings that rearrange elements lie otherwise than side by side. -/
theorem Settled.isPacked_of_stored {id : NodeId} {n : Node α} {q : Placement}
    (hn : s.graph.node? id = some n) (hq : σ.place id = some q)
    (hstored : n.op.rearranges = false) : q.layout.isPacked = true := by
  obtain ⟨_, _, _, hhosted⟩ := hσ.hosted_of_node hn hq
  have hsound := hg.sound hn
  cases hhosted with
  | fresh => exact hsound.isPacked
  | reshaped => exact Layout.isPacked_reshape _ _
  | reordered hop | repeated hop => simp [hop, Operation.rearranges] at hstored
  | assigned hop hr =>
      obtain ⟨m, hm, hpersistent⟩ := hsound.target_eq _ (by rw [hop]; rfl)
      obtain ⟨_, _, _, htarget⟩ := hσ.hosted_of_node hm hr
      obtain ⟨_, _, _, hlayout⟩ := htarget.source (Operation.isSource_of_isPersistent hpersistent)
      rw [hlayout]
      exact (hg.sound hm).isPacked
  | overwriting _ _ _ _ hp => exact hp

end Settled

/-! ## A plannable slice has a plan -/

section Progress

variable {s : Slice α} {before after : List NodeId} {id : NodeId} {n : Node α} {d : Draft}

/-- The inputs of a node can be tried for overwriting once they are placed. -/
theorem exists_overwritten? {position : Nat} {inputs : List NodeId}
    (hplaced : ∀ x ∈ n.op.inputs, ∃ q, d.placement x = .ok q) (hin : inputs ⊆ n.op.inputs) :
    ∃ found, d.overwritten? s position n inputs = .ok found := by
  induction inputs with
  | nil => exact ⟨none, rfl⟩
  | cons x rest ih =>
      obtain ⟨hx, hrest⟩ := List.cons_subset.mp hin
      obtain ⟨q, hq⟩ := hplaced x hx
      refine Except.exists_bind_eq_ok hq ?_
      split
      · obtain ⟨operands, hoperands⟩ := Except.exists_mapM_eq_ok hplaced
        refine Except.exists_bind_eq_ok hoperands ?_
        split
        · exact ⟨_, rfl⟩
        · exact ih hrest
      · exact ih hrest

/-- A node has an origin once its inputs are placed, unless it is an assignment whose
value lies in the buffer of its variable under another layout. -/
theorem exists_originOf {overwriting : Bool} {position : Nat}
    (hplaced : ∀ x ∈ n.op.inputs, ∃ q, d.placement x = .ok q)
    (hassign : ∀ target value q v, n.op = .assign target value → d.placement target = .ok q →
      d.placement value = .ok v → v.buffer = q.buffer → v.layout = q.layout) :
    ∃ origin, d.originOf s overwriting position n = .ok origin := by
  have input : ∀ {x}, x ∈ n.op.inputs → ∃ q, d.placement x = .ok q := fun hx => hplaced _ hx
  unfold Draft.originOf
  split
  · rename_i hop
    obtain ⟨q, hq⟩ := input (by rw [hop]; exact List.mem_singleton.mpr rfl)
    exact Except.exists_bind_eq_ok hq ⟨_, rfl⟩
  · rename_i hop
    obtain ⟨q, hq⟩ := input (by rw [hop]; exact List.mem_singleton.mpr rfl)
    exact Except.exists_bind_eq_ok hq ⟨_, rfl⟩
  · rename_i hop
    obtain ⟨q, hq⟩ := input (by rw [hop]; exact List.mem_singleton.mpr rfl)
    exact Except.exists_bind_eq_ok hq ⟨_, rfl⟩
  · rename_i target value hop
    obtain ⟨q, hq⟩ := hplaced target (by simp [hop, Operation.inputs])
    obtain ⟨v, hv⟩ := hplaced value (by simp [hop, Operation.inputs])
    refine Except.exists_bind_eq_ok hq (Except.exists_bind_eq_ok hv ?_)
    have haligned := hassign target value q v hop hq hv
    rw [if_neg fun h => h.2 (haligned h.1)]
    exact ⟨_, rfl⟩
  · split
    · obtain ⟨found, hfound⟩ := exists_overwritten? hplaced (List.Subset.refl _)
      refine Except.exists_bind_eq_ok hfound ?_
      cases found with
      | none => exact ⟨_, rfl⟩
      | some input =>
          obtain ⟨hmem, _⟩ := Draft.overwritten?_eq_ok hfound
          obtain ⟨q, hq⟩ := hplaced input hmem
          exact Except.exists_bind_eq_ok hq ⟨_, rfl⟩
    · exact ⟨_, rfl⟩

variable [Element α] (hs : s.Ordered) (hg : s.graph.Built) (hplannable : s.Plannable)

include hs hg hplannable

omit hs in
/-- An assigned value in the buffer of its variable lies there as the variable does. -/
theorem Plannable.aligned (hd : d.Sound s before) (hbefore : before ⊆ s.order) (hid : id ∈ s.order)
    (hn : s.graph.node? id = some n) {target value : NodeId} (hop : n.op = .assign target value)
    {q v : Placement} (hq : d.sites.place target = some q) (hv : d.sites.place value = some v)
    (hb : v.buffer = q.buffer) : v.layout = q.layout := by
  obtain ⟨m, hm, hpersistent⟩ := (hg.sound hn).target_eq target (by rw [hop]; rfl)
  have hsource := Operation.isSource_of_isPersistent hpersistent
  have hreads : ∀ x ∈ before, ∀ y ∈ s.graph.inputsOf x, s.runsLast y = false :=
    fun x hx => hplannable.reads_value x (hbefore hx)
  have hvalue : s.runsLast value = false := by
    refine hplannable.reads_value id hid value ?_
    simp [Graph.inputsOf_of_node? hn, hop, Operation.inputs]
  have hrereads := hd.settled.rereads_of_buffer hg hreads hm hpersistent hq hvalue hv hb.symm
  have hshows := hd.settled.shows_of_rereads hm hsource hrereads hv
  obtain ⟨_, _, _, hhosted⟩ := hd.settled.hosted_of_node hm hq
  rw [hplannable.in_step id hid n target value hn hop m hm _ hshows]
  exact (hhosted.source hsource).2.2.2.symm

/-- A sound draft of a plannable slice can place the next node. -/
theorem Plannable.exists_place {overwriting : Bool} (ho : s.order = before ++ id :: after)
    (hd : d.Sound s before) : ∃ d', d.place s overwriting (id, before.length) = .ok d' := by
  have hid : id ∈ s.order := by simp [ho]
  obtain ⟨n, hn⟩ := hs.known id hid
  have hin : ∀ x ∈ n.op.inputs, x ∈ before := fun x hx =>
    hs.input_mem_before ho (Graph.inputsOf_of_node? hn ▸ hx)
  have hplaced : ∀ x ∈ n.op.inputs, ∃ q, d.placement x = .ok q := fun x hx =>
    (hd.settled.place_of_mem (hin x hx)).imp fun _ => Draft.placement_eq_ok.mpr
  have hassign : ∀ target value q v, n.op = .assign target value → d.placement target = .ok q →
      d.placement value = .ok v → v.buffer = q.buffer → v.layout = q.layout :=
    fun _ _ _ _ hop hq hv => hplannable.aligned hg hd (ho ▸ List.subset_append_left _ _) hid hn hop
      (Draft.placement_eq_ok.mp hq) (Draft.placement_eq_ok.mp hv)
  refine Except.exists_bind_eq_ok (Graph.node_eq_ok_iff.mpr hn) ?_
  obtain ⟨origin, horigin⟩ : ∃ origin, d.originOf s overwriting before.length n = .ok origin :=
    exists_originOf hplaced hassign
  refine Except.exists_bind_eq_ok horigin ?_
  cases origin with
  | fresh =>
      obtain ⟨_, hread⟩ := Draft.originOf_eq_ok horigin
      rw [Draft.open?,
        if_neg (hplannable.inhabited id hid n hn (Sites.rearranges_eq_false hread))]
      exact ⟨_, rfl⟩
  | shared place => exact ⟨_, rfl⟩
  | «over» input place => exact ⟨_, rfl⟩

/-- So all nodes can be placed in order. -/
theorem Plannable.exists_foldlM {overwriting : Bool} (ho : s.order = before ++ after)
    (hd : d.Sound s before) : ∃ d', d'.Sound s s.order ∧
      (after.zipIdx before.length).foldlM (Draft.place s overwriting) d = .ok d' := by
  induction after generalizing before d with
  | nil =>
      rw [List.append_nil] at ho
      exact ⟨d, ho ▸ hd, rfl⟩
  | cons id rest ih =>
      obtain ⟨d₁, hplace⟩ : ∃ d₁, d.place s overwriting (id, before.length) = .ok d₁ :=
        hplannable.exists_place hs hg ho hd
      obtain ⟨n, q, hn, hgrows⟩ := Draft.place_eq_ok hs ho hd hplace
      have ho' : s.order = (before ++ [id]) ++ rest := by
        rw [ho]
        simp
      obtain ⟨d', hd', hfold⟩ := ih ho' (hd.grows hs hg ho hn hgrows)
      refine ⟨d', hd', ?_⟩
      rw [List.zipIdx_cons, List.foldlM_cons]
      rw [List.length_append] at hfold
      exact Except.bind_eq_ok.mpr ⟨d₁, hplace, hfold⟩

omit hs in
/-- And then all buffers have a size. -/
theorem Plannable.exists_sized (hd : d.Sound s s.order) :
    ∃ buffers, d.buffers.toList.zipIdx.mapM d.sized = .ok buffers := by
  refine Except.exists_mapM_eq_ok fun ⟨buf, b⟩ hmem => ?_
  have hget : d.buffers[b]? = some buf := by
    simpa using List.mk_mem_zipIdx_iff_getElem?.mp hmem
  obtain ⟨n, hn, hplace, rfl⟩ := hd.home b buf hget
  have hsound := hg.sound hn
  have hpos : d.needed b ≠ 0 := by
    obtain ⟨_, _, _, hinside⟩ := hd.settled.exists_home hg hplace
    have hle : n.layout.extent ≤ d.needed b := Draft.extent_le_needed hplace
    have hsize : n.layout.size ≠ 0 := hinside.size_ne_zero hsound.isPacked
    have := hsound.size_le_extent
    omega
  refine ⟨_, Draft.sized_eq_ok.mpr ⟨hpos, ?_, rfl⟩⟩
  obtain ⟨id, q, hq, hb, hneeded⟩ := Draft.needed_eq_extent hd hpos
  obtain ⟨h, m, hhome, hinside⟩ := hd.settled.exists_home hg hq
  have hmem : h ∈ s.order := (hd.placed h _ hhome.place).1
  have hbound := hplannable.bounded h hmem m hhome.node hhome.stored
  have hkind : m.layout.kind = n.layout.kind := by
    rw [(hg.sound hhome.node).layout_eq, hsound.layout_eq]
    rfl
  rw [hneeded]
  refine Nat.lt_of_le_of_lt (Nat.mul_le_mul_right _ hinside.extent_le) ?_
  rw [hkind] at hbound
  exact hbound

theorem Plannable.exists_plan
    (hroots : ∀ id ∈ s.outputs ++ s.parameters, id ∈ s.order) (overwriting : Bool) :
    ∃ p, s.plan overwriting = .ok p := by
  have hcheck := (check_eq_ok hs).mpr ((coherent_iff hs hroots).mp hplannable.toCoherent)
  obtain ⟨d, hd, hfold⟩ : ∃ d : Draft, d.Sound s s.order ∧
      s.order.zipIdx.foldlM (Draft.place s overwriting) .empty = .ok d :=
    hplannable.exists_foldlM hs hg (List.nil_append s.order).symm (Draft.sound_empty s)
  obtain ⟨buffers, hsized⟩ := hplannable.exists_sized hg hd
  exact ⟨_, Except.bind_eq_ok.mpr ⟨(), hcheck, Except.bind_eq_ok.mpr ⟨d, hfold,
    Except.bind_eq_ok.mpr ⟨buffers, hsized, rfl⟩⟩⟩⟩

end Progress

/-! ## A slice with a plan is plannable -/

section Planned

variable [Element α] {s : Slice α} {p : Plan} (hp : s.Planned p)

include hp

/-- A buffer has as many elements as the value of its node, which has a place of its own. -/
theorem Planned.elements_eq {b : Nat} (hb : b < p.buffers.size) : ∃ n,
    s.graph.node? (p.buffer b).node = some n ∧ n.op.rearranges = false ∧
      (p.buffer b).elements = n.layout.size := by
  obtain ⟨n, hn, hplace, hfirst, _⟩ := hp.opened b hb
  obtain ⟨_, _, id, q, hq, rfl, helements⟩ := hp.sized b hb
  obtain ⟨h, m, hhome, hinside⟩ := hp.settled.exists_home hp.built hq
  obtain rfl := hhome.eq_of_firstIn hfirst (hp.inside _ _ hplace).1 hplace
  cases hn.symm.trans hhome.node
  refine ⟨n, hn, hhome.stored, Nat.le_antisymm (helements ▸ hinside.extent_le) ?_⟩
  exact Nat.le_trans (hp.built.sound hn).size_le_extent (hp.inside _ _ hplace).2.2

/-- Values that are not merely rearranged have elements, which fit in their buffer. -/
theorem Planned.stored_size {id : NodeId} {n : Node α} (hid : id ∈ s.order)
    (hn : s.graph.node? id = some n) (hstored : n.op.rearranges = false) :
    n.layout.size ≠ 0 ∧ n.layout.size * n.layout.kind.bytes < Plan.byteLimit := by
  obtain ⟨q, hq⟩ := hp.place_of_mem hid
  obtain ⟨h, m, hhome, hinside⟩ := hp.settled.exists_home hp.built hq
  have hpacked := hp.settled.isPacked_of_stored hp.built hn hq hstored
  have hsize : q.layout.size = n.layout.size := by
    rw [Layout.size, (hp.shaped hq).1, Graph.shapeOf_of_node? hn, Layout.size]
  have hpos := hinside.size_ne_zero hpacked
  refine ⟨hsize ▸ hpos, ?_⟩
  obtain ⟨_, hlt, hextent⟩ := hp.inside id q hq
  obtain ⟨k, hk, _, _, hbuffer⟩ := hp.opened q.buffer hlt
  obtain ⟨_, hbytes, _⟩ := hp.sized q.buffer hlt
  have hkind : k.layout.kind = n.layout.kind := by
    rw [(hp.built.sound hk).layout_eq, (hp.built.sound hn).layout_eq]
    rfl
  have hle : n.layout.size ≤ (p.buffer q.buffer).elements := by
    have := hinside.regular.extent_of_isPacked hpacked hpos
    omega
  rw [hbuffer] at hbytes
  refine Nat.lt_of_le_of_lt (Nat.mul_le_mul_right _ hle) ?_
  rw [← hkind]
  exact hbytes

theorem Planned.plannable (hasked : s.outputs ≠ []) : s.Plannable := by
  have hroots : ∀ id ∈ s.outputs ++ s.parameters, id ∈ s.order :=
    List.forall_mem_append.mpr ⟨hp.checked.outputs_mem, hp.checked.parameters_mem⟩
  refine ⟨(coherent_iff hp.ordered hroots).mpr ⟨hasked, hp.checked⟩,
    fun a ha n target value hn hop m hm l hshows => ?_,
    fun id hid n hn hstored => (hp.stored_size hid hn hstored).1,
    fun id hid n hn hstored => (hp.stored_size hid hn hstored).2⟩
  obtain ⟨q, v, has⟩ := hp.assigns_of_node ha hn hop
  obtain ⟨_, hm', hpersistent⟩ := has.target_node
  cases hm.symm.trans hm'
  have hsource := Operation.isSource_of_isPersistent hpersistent
  have hv := hp.settled.place_of_shows hm hsource has.target_place hshows has.value_place
  obtain ⟨_, _, _, hhosted⟩ := hp.hosted_of_node hm has.target_place
  have haligned := has.aligned (by rw [hv])
  rw [hv, (hhosted.source hsource).2.2.2] at haligned
  exact haligned

end Planned

/-! ## Exact acceptance -/

/-- The slice of given roots has a plan exactly if it is plannable, whether or not
nodes may overwrite their inputs.  A slice that is not coherent is refused with a fault
of the compilation.  The buffers of a plan are those of nodes that `bounded` speaks of,
and have as many elements as these. -/
theorem plan_acceptance [Element α] {g : Graph α} (hg : g.Built) {outputs parameters : List NodeId}
    (hknown : ∀ id ∈ outputs ++ parameters, id.index < g.size) :
    ∃ s, Slice.ofRoots g outputs parameters = .ok s ∧ ∀ overwriting,
      ((∃ p, s.plan overwriting = .ok p) ↔ s.Plannable) ∧
      (¬ s.Coherent → ∃ fault, s.plan overwriting = .error (.compilation fault)) ∧
      ∀ p, s.plan overwriting = .ok p → ∀ b < p.buffers.size, ∃ n,
        s.graph.node? (p.buffer b).node = some n ∧ n.op.rearranges = false ∧
          (p.buffer b).elements = n.layout.size := by
  obtain ⟨s, hs, hroots⟩ := exists_ofRoots hknown
  obtain ⟨rfl, rfl, rfl, hordered⟩ := ofRoots_eq_ok hg hs
  have hcheck := check_eq_ok hordered
  rw [← coherent_iff hordered hroots] at hcheck
  refine ⟨s, hs, fun overwriting => ⟨⟨?_, fun h => h.exists_plan hordered hg hroots overwriting⟩,
    fun hnot => ?_, fun p hp b hb => (plan_eq_ok hordered hg hp).elements_eq hb⟩⟩
  · rintro ⟨p, hp⟩
    obtain ⟨_, hok, _⟩ := Except.bind_eq_ok.mp hp
    exact (plan_eq_ok hordered hg hp).plannable (hcheck.mp hok).asked
  · cases he : s.check with
    | ok => exact absurd (hcheck.mp he) hnot
    | error e =>
        obtain ⟨fault, rfl⟩ := faulted_check hordered e he
        exact ⟨fault, by rw [plan, he]; rfl⟩

end Slice

namespace Specimen

/-- What has a plan in which a product overwrites a sum has one in which it does not. -/
theorem mirror_dedicated : ∃ p, mirror.slice.plan false = .ok p := by
  have hknown : ∀ id ∈ [(⟨6⟩ : NodeId)] ++ [⟨0⟩], id.index < mirror.slice.graph.size := by
    decide +kernel
  obtain ⟨s, hs, haccepted⟩ := Slice.plan_acceptance mirror.slice_compiles.built hknown
  cases hs.symm.trans mirror.slice_compiles.roots
  have hplan : mirror.slice.plan true = .ok mirror.compiled.plan := by decide +kernel
  exact (haccepted false).1.mpr ((haccepted true).1.mp ⟨_, hplan⟩)

end Specimen

end TensorGraph
