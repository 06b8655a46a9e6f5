/-
# Overwriting saves buffers and changes nothing else

Two plans of one slice: in the dedicated one (`Q`) every value to be stored has a buffer
of its own, in the other (`P`) nodes may write over an input.

| what | in `P` and `Q` | because |
| :-- | :-- | :-- |
| layouts | equal but for strides along axes of size one | `Settled.alike` |
| readings without a step, steps | equal | no test sees such strides (`Alike.isPacked_eq`) |
| nodes with a buffer | in `P` those of `Q` that do not overwrite, in order | `Slice.Ledger` |
| a buffer | determined by its node | `Planned.buffer_eq` |

The first line is where the argument could fail.  A node that overwrites its input takes
over the input's strides, and along axes of size one these may be any, so that the
layouts in the two plans differ.  But every reading keeps layouts alike, and whether a
reshape needs a step is the same for layouts that are alike.  `Refines` is what follows.
-/
import TensorGraph.Proofs.Acceptance

namespace TensorGraph

variable {α : Type}

/-! ## Strides along axes of size one -/

namespace RowMajor

/-- Strides for axes of the given sizes that differ at most along axes of size one. -/
inductive Alike : List Nat → List Nat → List Nat → Prop
  | nil : Alike [] [] []
  | cons {d s t : Nat} {ds ss ts : List Nat} :
      (d ≠ 1 → s = t) → Alike ds ss ts → Alike (d :: ds) (s :: ss) (t :: ts)

namespace Alike

variable {ds ss ts : List Nat} (h : Alike ds ss ts)

include h

theorem lengths : ss.length = ds.length ∧ ts.length = ds.length := by
  induction h with
  | nil => exact ⟨rfl, rfl⟩
  | cons _ _ ih => exact ⟨congrArg (· + 1) ih.1, congrArg (· + 1) ih.2⟩

theorem dense_eq : dense ds ss = dense ds ts := by
  induction h with
  | nil => rfl
  | @cons d s t ds ss ts hstep _ ih =>
      by_cases hd : d = 1
      · simp [dense, hd, ih]
      · rw [dense, dense, hstep hd, ih]

theorem getD_eq {a : Nat} (ha : ds.getD a 0 ≠ 1) : ss.getD a 0 = ts.getD a 0 := by
  induction h generalizing a with
  | nil => rfl
  | cons hstep _ ih =>
      cases a with
      | zero => exact hstep ha
      | succ a => exact ih ha

end Alike

/-- Strides that step through the elements in order are given by the sizes of the axes. -/
theorem alike_of_dense {ds ss ts : List Nat} (hs : ss.length = ds.length)
    (ht : ts.length = ds.length) (hds : dense ds ss = true) (hdt : dense ds ts = true) :
    Alike ds ss ts := by
  induction ds generalizing ss ts with
  | nil =>
      rw [List.eq_nil_of_length_eq_zero hs, List.eq_nil_of_length_eq_zero ht]
      exact .nil
  | cons d ds ih =>
      obtain ⟨s, ss, rfl⟩ := List.exists_cons_of_length_eq_add_one hs
      obtain ⟨t, ts, rfl⟩ := List.exists_cons_of_length_eq_add_one ht
      simp only [dense, Bool.and_eq_true, Bool.or_eq_true, beq_iff_eq] at hds hdt
      refine .cons (fun hd => ?_) (ih (Nat.succ.inj hs) (Nat.succ.inj ht) hds.2 hdt.2)
      exact (hds.1.resolve_left hd).trans (hdt.1.resolve_left hd).symm

theorem alike_map {order : List Nat} {g f f' : Nat → Nat} (h : ∀ a, g a ≠ 1 → f a = f' a) :
    Alike (order.map g) (order.map f) (order.map f') := by
  induction order with
  | nil => exact .nil
  | cons a rest ih => exact .cons (h a) ih

theorem alike_repeatedStrides (axes : List Nat) (g : Nat → Nat) (n a : Nat) (ss ts : List Nat)
    (h : Alike (((List.range' a n).filter fun b => !axes.contains b).map g) ss ts) :
    Alike ((List.range' a n).map g) (Layout.repeatedStrides axes n a ss)
      (Layout.repeatedStrides axes n a ts) := by
  induction n generalizing a ss ts with
  | zero => exact .nil
  | succ n ih =>
      simp only [List.range'_succ, List.map_cons, Layout.repeatedStrides] at h ⊢
      by_cases hrepeated : axes.contains a = true
      · rw [List.filter_cons_of_neg (by simpa using hrepeated)] at h
        rw [if_pos hrepeated, if_pos hrepeated]
        exact .cons (fun _ => rfl) (ih _ _ _ h)
      · rw [List.filter_cons_of_pos (by simpa using hrepeated), List.map_cons] at h
        rw [if_neg hrepeated, if_neg hrepeated]
        cases h with
        | cons hstep hrest => exact .cons hstep (ih _ _ _ hrest)

end RowMajor

namespace Layout

/-- Layouts of the same shape that differ at most in strides along axes of size one. -/
structure Alike (l m : Layout) : Prop where
  shape_eq : l.shape = m.shape
  strides : RowMajor.Alike l.shape.dims l.strides m.strides

namespace Alike

variable {l m : Layout} (h : l.Alike m)

include h

theorem isPacked_eq : l.isPacked = m.isPacked := by
  obtain ⟨hl, hm⟩ := h.strides.lengths
  have hm : m.Regular := by
    rw [Regular, ← h.shape_eq]
    exact hm
  rw [isPacked, isPacked, Regular.strided hl, hm.strided, ← h.shape_eq]
  exact h.strides.dense_eq

theorem transpose (order : List Nat) : (l.transpose order).Alike (m.transpose order) := by
  refine ⟨congrArg (·.select order) h.shape_eq, ?_⟩
  exact RowMajor.alike_map fun a ha => h.strides.getD_eq ha

theorem broadcast {s : Shape} {axes : List Nat} (hs : s.without axes = l.shape) :
    (l.broadcast s axes).Alike (m.broadcast s axes) := by
  refine ⟨rfl, ?_⟩
  have hstrides := h.strides
  rw [← hs, Shape.without, Shape.select, Shape.keptAxes, List.range_eq_range'] at hstrides
  have halike := RowMajor.alike_repeatedStrides axes (fun a => s.dims.getD a 0) s.rank 0 l.strides
    m.strides hstrides
  rwa [← List.range_eq_range', Shape.rank, RowMajor.map_getD_range] at halike

end Alike
end Layout

/-! ## Layouts and steps -/

section Settled

variable [Element α] {s : Slice α} {σ τ : Sites} {before : List NodeId}
  (hσ : s.Settled σ before) (hτ : s.Settled τ before) (hg : s.graph.Built)

include hσ hτ hg

/-- A value has layouts that are alike wherever it lies. -/
theorem Slice.Settled.alike {id : NodeId} {q r : Placement} (hq : σ.place id = some q)
    (hr : τ.place id = some r) : q.layout.Alike r.layout := by
  induction hk : id.index using Nat.strongRecOn generalizing id q r with
  | ind k ih =>
      obtain ⟨_, _, n, q', _, hn, hq', hhosted⟩ := hσ.hosted_of_mem (hσ.placed id q hq)
      cases hq'.symm.trans hq
      obtain ⟨_, _, _, hhosted'⟩ := hτ.hosted_of_node hn hr
      have hsound := hg.sound hn
      have hrule := hsound.shape_eq
      have input : ∀ {x v w}, x ∈ n.op.inputs → σ.place x = some v → τ.place x = some w →
          v.layout.Alike w.layout :=
        fun hx hv hw => ih _ (hk ▸ hsound.inputs_lt _ hx) hv hw rfl
      cases hstored : n.op.rearranges with
      | false =>
          -- both lie side by side, whatever the strides along axes of size one
          obtain ⟨hshape, hregular⟩ := hσ.shaped hg hq
          obtain ⟨hshape', hregular'⟩ := hτ.shaped hg hr
          have hp := hσ.isPacked_of_stored hg hn hq hstored
          have hp' := hτ.isPacked_of_stored hg hn hr hstored
          have hsame : q.layout.shape = r.layout.shape := hshape.trans hshape'.symm
          rw [Layout.isPacked, hregular.strided] at hp
          rw [Layout.isPacked, hregular'.strided, ← hsame] at hp'
          rw [Layout.Regular, ← hsame] at hregular'
          exact ⟨hsame, RowMajor.alike_of_dense hregular hregular' hp hp'⟩
      | true =>
          cases hop : n.op with
          | reorder x order =>
              obtain ⟨v, hv, rfl⟩ := hhosted.of_reorder hop
              obtain ⟨w, hw, rfl⟩ := hhosted'.of_reorder hop
              have hx : x ∈ n.op.inputs := by simp [hop, Operation.inputs]
              exact (input hx hv hw).transpose order
          | broadcast x shape axes =>
              obtain ⟨v, hv, rfl⟩ := hhosted.of_broadcast hop
              obtain ⟨w, hw, rfl⟩ := hhosted'.of_broadcast hop
              have hx : x ∈ n.op.inputs := by simp [hop, Operation.inputs]
              rw [hop, Operation.broadcast_eq_ok, ← (hσ.shaped hg hv).1] at hrule
              exact (input hx hv hw).broadcast hrule.2.1
          | _ => simp [hop, Operation.rearranges] at hstored

/-- So the same nodes need a step. -/
theorem Slice.Settled.computes_eq {n : Node α} (hin : ∀ x ∈ n.op.inputs, x ∈ before) :
    σ.computes n.op = τ.computes n.op := by
  cases hop : n.op with
  | reshape x shape =>
      have hx := hin x (by simp [hop, Operation.inputs])
      obtain ⟨v, hv⟩ := hσ.place_of_mem hx
      obtain ⟨w, hw⟩ := hτ.place_of_mem hx
      have halike : v.layout.Alike w.layout := hσ.alike hτ hg hv hw
      simp only [Sites.computes, hv, hw, Option.any_some, halike.isPacked_eq]
  | _ => rfl

end Settled

namespace Slice

/-- The node reads its input where that lies. -/
def isView (s : Slice α) (p : Plan) (id : NodeId) : Bool :=
  (p.placements.get? id).any fun q => (s.graph.node? id).any fun n =>
    n.op.isReading && n.op.inputs.any fun x =>
      (p.placements.get? x).any fun r => r.buffer == q.buffer

/-- The node is neither a source nor an assignment, nor does it read its input where
that lies. -/
def needsStep (s : Slice α) (p : Plan) (id : NodeId) : Bool :=
  (s.graph.node? id).any fun n => !n.op.isSource && !n.op.isAssignment && !s.isView p id

/-- The node has a value that has to lie somewhere of its own: it is a source or has a step
before the assignments. -/
def stores (s : Slice α) (σ : Sites) (id : NodeId) : Bool :=
  (s.graph.node? id).any fun n => n.op.isSource || σ.computes n.op

theorem stores_of_node? {s : Slice α} {σ : Sites} {id : NodeId} {n : Node α}
    (hn : s.graph.node? id = some n) : s.stores σ id = (n.op.isSource || s.computes σ id) := by
  rw [stores, computes, hn]
  rfl

end Slice

section Steps

variable [Element α] {s : Slice α} {p : Plan} (hp : s.Planned p)

include hp

/-- Readings lie in the buffer of their input unless they have a step. -/
theorem Slice.Planned.isView_eq {id : NodeId} (hid : id ∈ s.order) {n : Node α}
    (hn : s.graph.node? id = some n) :
    s.isView p id = (n.op.isReading && !p.sites.computes n.op) := by
  obtain ⟨before, after, m, q, ho, hm, hq, hhosted⟩ := hp.hosted_of_mem hid
  cases hn.symm.trans hm
  rw [Slice.isView, hq, hn, Option.any_some, Option.any_some]
  cases hread : n.op.isReading with
  | false => rfl
  | true =>
      rw [Bool.true_and, Bool.true_and]
      cases hcomputes : p.sites.computes n.op with
      | false =>
          obtain ⟨x, r, hinputs, hr, hb⟩ := hhosted.reading_buffer hread hcomputes
          have hr : p.placements.get? x = some r := hr
          simp [hinputs, hr, hb]
      | true =>
          -- a reading with a step has a buffer of its own, apart from its input's
          have hel : n.op.isElementwise = false := by
            cases hop : n.op with
            | binary | unary => simp [hop, Operation.isReading] at hread
            | _ => rfl
          have hin : ∀ x ∈ n.op.inputs, x ∈ before := fun x hx =>
            hp.ordered.input_mem_before ho (Graph.inputsOf_of_node? hn ▸ hx)
          have hwritable := hhosted.writable (hp.built.sound hn) hin hcomputes
          obtain ⟨_, hapart⟩ := hwritable.apart hel
          rw [Bool.not_true, List.any_eq_false]
          intro x hx
          obtain ⟨r, hr⟩ := hp.place_of_mem (ho ▸ List.mem_append_left _ (hin x hx))
          rw [hr, Option.any_some, beq_iff_eq]
          exact hapart x hx r hr

/-- What needs a step before the assignments. -/
theorem Slice.Planned.needsStep_eq {id : NodeId} (hid : id ∈ s.order) :
    s.needsStep p id = s.computes p.sites id := by
  obtain ⟨n, hn⟩ := hp.ordered.known id hid
  rw [Slice.needsStep, Slice.computes, hn, Option.any_some, Option.any_some, hp.isView_eq hid hn]
  cases hop : n.op with
  | reshape => simp [Operation.isSource, Operation.isAssignment, Operation.target?,
      Operation.isReading]
  | _ => rfl

end Steps

/-! ## Which buffers are opened -/

/-- Of the nodes that have a value to be stored, some overwrite an input, and each of the
others has a buffer, in order. -/
structure Slice.Ledger (s : Slice α) (σ : Sites) (before : List NodeId) (buffers : List Buffer)
    (overwrites : List Overwrite) : Prop where
  opened : buffers.map (·.node)
    = before.filter fun id => s.stores σ id && !overwrites.any (·.node == id)
  overwriting : overwrites.map (·.node) = before.filter fun id => overwrites.any (·.node == id)
  stored : ∀ o ∈ overwrites, s.stores σ o.node = true

namespace Slice.Ledger

variable {s : Slice α} {σ : Sites} {before : List NodeId} {buffers : List Buffer}
  {overwrites : List Overwrite} (h : s.Ledger σ before buffers overwrites)

include h

theorem mem_before {o : Overwrite} (ho : o ∈ overwrites) : o.node ∈ before := by
  have hmem : o.node ∈ overwrites.map (·.node) := List.mem_map_of_mem ho
  rw [h.overwriting] at hmem
  exact List.mem_of_mem_filter hmem

theorem not_overwriting {id : NodeId} (hid : id ∉ before) :
    overwrites.any (·.node == id) = false := by
  refine List.any_eq_false.mpr fun o ho => ?_
  rw [beq_iff_eq]
  rintro rfl
  exact hid (h.mem_before ho)

section Snoc

variable {τ : Sites} {id : NodeId} (hid : id ∉ before)
  (hkept : ∀ x ∈ before, s.stores τ x = s.stores σ x)

include hid hkept

/-- A node that does not overwrite has a buffer if it has a value to be stored. -/
theorem snoc {b : Buffer} (hb : b.node = id) : s.Ledger τ (before ++ [id])
    (buffers ++ [b].filter fun _ => s.stores τ id) overwrites := by
  have hfresh := h.not_overwriting hid
  refine ⟨?_, ?_, fun o ho => ?_⟩
  · rw [List.map_append, h.opened, List.filter_append]
    refine congr (congrArg _ (List.filter_congr fun x hx => by rw [hkept x hx])) ?_
    cases hstores : s.stores τ id with
    | true => simp [hstores, hfresh, hb]
    | false => simp [hstores]
  · rw [List.filter_append, ← h.overwriting]
    simp [hfresh]
  · rw [hkept _ (h.mem_before ho)]
    exact h.stored o ho

/-- A node that overwrites has no buffer. -/
theorem snoc_over (hstores : s.stores τ id = true) (input : NodeId) :
    s.Ledger τ (before ++ [id]) buffers (overwrites ++ [⟨id, input⟩]) := by
  have hsame : ∀ x ∈ before, (overwrites ++ [(⟨id, input⟩ : Overwrite)]).any (·.node == x)
      = overwrites.any (·.node == x) := by
    intro x hx
    have hne : id ≠ x := by
      rintro rfl
      exact hid hx
    simp [hne]
  have hover : (overwrites ++ [(⟨id, input⟩ : Overwrite)]).any (·.node == id) = true := by simp
  refine ⟨?_, ?_, fun o ho => ?_⟩
  · rw [List.filter_append, List.filter_cons_of_neg (by simp [hover]), List.filter_nil,
      List.append_nil, h.opened]
    exact List.filter_congr fun x hx => by rw [hkept x hx, hsame x hx]
  · rw [List.filter_append, List.filter_cons_of_pos (by exact hover), List.filter_nil,
      List.map_append, h.overwriting]
    exact congrArg (· ++ _) (List.filter_congr fun x hx => (hsame x hx).symm)
  · rcases List.mem_append.mp ho with ho | ho
    · rw [hkept _ (h.mem_before ho)]
      exact h.stored o ho
    · rw [List.mem_singleton.mp ho]
      exact hstores

end Snoc

section Dedicated

variable {τ : Sites} {dedicated : List Buffer} (h' : s.Ledger τ before dedicated [])
  (hsame : ∀ x ∈ before, s.stores τ x = s.stores σ x)

include h' hsame

omit h in
/-- Where nothing is overwritten, every value to be stored has a buffer. -/
theorem nodes_dedicated (keeps : NodeId → Bool) :
    (dedicated.filter fun b => keeps b.node).map (·.node)
      = before.filter fun id => keeps id && s.stores σ id := by
  have hnodes : dedicated.map (·.node) = before.filter (s.stores σ) := by
    rw [h'.opened]
    exact List.filter_congr fun x hx => by simp [hsame x hx]
  calc (dedicated.filter fun b => keeps b.node).map (·.node)
    _ = (dedicated.map (·.node)).filter keeps := List.filter_map.symm
    _ = (before.filter (s.stores σ)).filter keeps := by rw [hnodes]
    _ = before.filter fun id => keeps id && s.stores σ id := List.filter_filter

theorem nodes_kept :
    buffers.map (·.node)
      = (dedicated.filter fun b => !overwrites.any (·.node == b.node)).map (·.node) := by
  rw [nodes_dedicated h' hsame fun id => !overwrites.any (·.node == id), h.opened]
  exact List.filter_congr fun id _ => Bool.and_comm _ _

theorem nodes_gone :
    (dedicated.filter fun b => overwrites.any (·.node == b.node)).map (·.node)
      = overwrites.map (·.node) := by
  rw [nodes_dedicated h' hsame fun id => overwrites.any (·.node == id), h.overwriting]
  refine List.filter_congr fun id _ => ?_
  cases hover : overwrites.any (·.node == id) with
  | false => rfl
  | true =>
      obtain ⟨o, ho, he⟩ := List.any_eq_true.mp hover
      rw [← beq_iff_eq.mp he]
      exact h.stored o ho

end Dedicated
end Slice.Ledger

namespace Draft

variable {s : Slice α} {overwriting : Bool} {before after : List NodeId} {id : NodeId}
  {n : Node α} {d d' : Draft}

theorem overwriting_of_over {position : Nat} {input : NodeId} {place : Placement}
    (h : d.originOf s overwriting position n = .ok (.over input place)) : overwriting = true := by
  cases overwriting with
  | true => rfl
  | false =>
      unfold originOf at h
      split at h
      · obtain ⟨_, _, h⟩ := Except.bind_eq_ok.mp h
        split at h <;> cases h
      · obtain ⟨_, _, h⟩ := Except.bind_eq_ok.mp h
        cases h
      · obtain ⟨_, _, h⟩ := Except.bind_eq_ok.mp h
        cases h
      · obtain ⟨_, _, h⟩ := Except.bind_eq_ok.mp h
        obtain ⟨_, _, h⟩ := Except.bind_eq_ok.mp h
        split at h <;> cases h
      · rw [Bool.and_false, if_neg Bool.false_ne_true] at h
        cases h

/-- What becomes of the buffers when one more node is placed. -/
theorem place_cases {position : Nat} (hn : s.graph.node? id = some n)
    (h : d.place s overwriting (id, position) = .ok d') :
    (d'.overwrites = d.overwrites ∧ d'.buffers.toList
      = d.buffers.toList ++ [opened n].filter fun _ => n.op.isSource || d.sites.computes n.op) ∨
    (∃ input, d'.overwrites = d.overwrites ++ [⟨id, input⟩]) ∧ d'.buffers = d.buffers ∧
      d.sites.computes n.op = true ∧ overwriting = true := by
  obtain ⟨m, hm, h⟩ := Except.bind_eq_ok.mp h
  cases hn.symm.trans (Graph.node_eq_ok_iff.mp hm)
  obtain ⟨origin, horigin, h⟩ := Except.bind_eq_ok.mp h
  cases origin with
  | fresh =>
      obtain ⟨hassign, hread⟩ := originOf_eq_ok horigin
      obtain ⟨⟨d₁, q⟩, hopen, h⟩ := Except.bind_eq_ok.mp h
      cases h
      rw [open?] at hopen
      split at hopen
      · cases hopen
      · cases hopen
        rw [schedule_fresh _ _ hassign, Sites.computes_of_fresh hassign hread]
        exact .inl ⟨rfl, by simp [settle, opened]⟩
  | shared place =>
      obtain ⟨_, hcomputes, hsource⟩ := originOf_eq_ok horigin
      cases h
      rw [schedule_shared]
      exact .inl ⟨rfl, by simp [settle, hcomputes, hsource]⟩
  | «over» input place =>
      obtain ⟨hel, _⟩ := originOf_eq_ok horigin
      obtain ⟨hcomputes, _, hassign⟩ : d.sites.computes n.op = true ∧ _ :=
        Sites.computes_of_isElementwise hel
      cases h
      rw [schedule_over _ _ _ _ hassign]
      exact .inr ⟨⟨input, rfl⟩, rfl, hcomputes, overwriting_of_over horigin⟩

/-- Unless nodes may overwrite their inputs, none does. -/
theorem overwrites_foldlM {entries : List (NodeId × Nat)}
    (h : entries.foldlM (Draft.place s false) d = .ok d') : d'.overwrites = d.overwrites := by
  induction entries generalizing d with
  | nil =>
      cases h
      rfl
  | cons entry rest ih =>
      rw [List.foldlM_cons] at h
      obtain ⟨d₁, hd₁, h⟩ := Except.bind_eq_ok.mp h
      obtain ⟨n, hn, _⟩ := Except.bind_eq_ok.mp hd₁
      rcases place_cases (Graph.node_eq_ok_iff.mp hn) hd₁ with ⟨hover, _⟩ | ⟨_, _, _, hno⟩
      · exact (ih h).trans hover
      · cases hno

variable [Element α]

/-- The ledger of a draft is kept by one more node. -/
theorem Sound.ledger_place (hs : s.Ordered) (hg : s.graph.Built)
    (ho : s.order = before ++ id :: after) (hd : d.Sound s before)
    (hl : s.Ledger d.sites before d.buffers.toList d.overwrites)
    (h : d.place s overwriting (id, before.length) = .ok d') :
    s.Ledger d'.sites (before ++ [id]) d'.buffers.toList d'.overwrites := by
  obtain ⟨n, q, hn, hgrows⟩ := place_eq_ok hs ho hd h
  have hid := hs.not_mem_before ho
  have hkept : ∀ x ∈ before, s.stores d'.sites x = s.stores d.sites x := by
    intro x hx
    obtain ⟨m, hm⟩ := hs.known x (ho ▸ List.mem_append_left _ hx)
    rw [Slice.stores_of_node? hm, Slice.stores_of_node? hm, hd.computes_eq hs ho hgrows x hx]
  have hstores : s.stores d'.sites id = (n.op.isSource || d.sites.computes n.op) := by
    rw [Slice.stores, hn, Option.any_some,
      (hgrows.extends hid).computes_eq fun x hx =>
        hs.input_mem_before ho (Graph.inputsOf_of_node? hn ▸ hx)]
  rcases place_cases hn h with ⟨hover, hb⟩ | ⟨⟨input, hover⟩, hb, hcomputes, _⟩
  · rw [hover, hb, ← hstores]
    exact hl.snoc hid hkept (hg.sound hn).id_eq
  · rw [hover, hb]
    refine hl.snoc_over hid hkept ?_ input
    rw [hstores, hcomputes, Bool.or_true]

theorem Sound.ledger_foldlM (hs : s.Ordered) (hg : s.graph.Built) (ho : s.order = before ++ after)
    (hd : d.Sound s before) (hl : s.Ledger d.sites before d.buffers.toList d.overwrites)
    (h : (after.zipIdx before.length).foldlM (Draft.place s overwriting) d = .ok d') :
    s.Ledger d'.sites s.order d'.buffers.toList d'.overwrites := by
  induction after generalizing before d with
  | nil =>
      cases h
      rwa [ho, List.append_nil]
  | cons id rest ih =>
      rw [List.zipIdx_cons, List.foldlM_cons] at h
      obtain ⟨d₁, hd₁, h⟩ := Except.bind_eq_ok.mp h
      obtain ⟨n, q, hn, hgrows⟩ := place_eq_ok hs ho hd hd₁
      have ho' : s.order = (before ++ [id]) ++ rest := by
        rw [ho]
        simp
      refine ih ho' (hd.grows hs hg ho hn hgrows) (hd.ledger_place hs hg ho hl hd₁) ?_
      rwa [List.length_append]

end Draft

/-- The buffer of a node that is large enough for its value and no larger. -/
def Node.buffer (n : Node α) : Buffer :=
  { Draft.opened n with
    elements := n.layout.size
    bytes := n.layout.size * n.layout.kind.bytes }

namespace Slice

variable [Element α] {s : Slice α} {overwriting : Bool} {p : Plan}

/-- The ledger of a finished plan. -/
theorem ledger_of_plan (hs : s.Ordered) (hg : s.graph.Built) (h : s.plan overwriting = .ok p) :
    s.Ledger p.sites s.order p.buffers.toList p.overwrites ∧
      (overwriting = false → p.overwrites = []) := by
  obtain ⟨_, _, h⟩ := Except.bind_eq_ok.mp h
  obtain ⟨d, hdraft, h⟩ := Except.bind_eq_ok.mp h
  obtain ⟨buffers, hsized, h⟩ := Except.bind_eq_ok.mp h
  cases h
  have hledger : s.Ledger d.sites s.order d.buffers.toList d.overwrites :=
    (Draft.sound_empty s).ledger_foldlM hs hg (List.nil_append s.order).symm ⟨rfl, rfl, nofun⟩
      hdraft
  have hnodes : buffers.map (·.node) = d.buffers.toList.map (·.node) :=
    Draft.map_sized (fun _ _ _ => rfl) hsized
  refine ⟨?_, fun hno => ?_⟩
  · rw [Plan.sites, Draft.sites_sized hsized]
    exact ⟨hnodes.trans hledger.opened, hledger.overwriting, hledger.stored⟩
  · subst hno
    exact Draft.overwrites_foldlM hdraft

/-- Every buffer is that of its node. -/
theorem Planned.buffer_eq (hp : s.Planned p) {b : Buffer} (hb : b ∈ p.buffers.toList) :
    ∃ n, s.graph.node? b.node = some n ∧ b = n.buffer := by
  obtain ⟨i, hi, rfl⟩ := Array.getElem_of_mem (Array.mem_toList_iff.mp hb)
  have hget : p.buffers[i] = p.buffer i := by simp [Plan.buffer, hi]
  rw [hget]
  obtain ⟨n, hn, _, _, he⟩ := hp.opened i hi
  obtain ⟨m, hm, _, helements⟩ := hp.elements_eq hi
  cases hn.symm.trans hm
  refine ⟨n, hn, ?_⟩
  rw [he, helements]
  rfl

/-- Buffers are determined by their nodes, whatever plan they are of. -/
theorem Planned.buffers_eq_of_nodes {p' : Plan} (hp : s.Planned p) (hp' : s.Planned p')
    {bs bs' : List Buffer} (hbs : bs ⊆ p.buffers.toList) (hbs' : bs' ⊆ p'.buffers.toList)
    (hnodes : bs.map (·.node) = bs'.map (·.node)) : bs = bs' := by
  induction bs generalizing bs' with
  | nil => exact (List.map_eq_nil_iff.mp hnodes.symm).symm
  | cons b rest ih =>
      obtain ⟨b', rest', rfl, hnode, hrest⟩ := List.map_eq_cons_iff.mp hnodes.symm
      obtain ⟨hb, hbrest⟩ := List.cons_subset.mp hbs
      obtain ⟨hb', hbrest'⟩ := List.cons_subset.mp hbs'
      obtain ⟨n, hn, he⟩ := hp.buffer_eq hb
      obtain ⟨n', hn', he'⟩ := hp'.buffer_eq hb'
      rw [hnode, hn] at hn'
      cases hn'
      rw [he, he', ih hbrest hbrest' hrest.symm]

/-! ## The two plans -/

/-- The plan `P`, in which nodes may overwrite an input, does what the dedicated plan `Q`
does, in the same order and with the same readings, in some of the buffers of `Q`. -/
structure Refines (s : Slice α) (P Q : Plan) : Prop where
  steps_eq : P.steps = Q.steps
  /-- Assignments come last. -/
  steps_listed : P.steps = s.order.filter (s.needsStep P) ++ s.order.filter s.runsLast
  isView_eq : ∀ id, s.isView P id = s.isView Q id
  shape_eq : ∀ id, (P.placements.get? id).map (·.layout.shape)
    = (Q.placements.get? id).map (·.layout.shape)
  alike : ∀ id q r, P.placements.get? id = some q → Q.placements.get? id = some r →
    q.layout.Alike r.layout
  /-- The buffers that are missing are those of the nodes that overwrite an input. -/
  buffers_eq : P.buffers.toList
    = Q.buffers.toList.filter fun b => !P.overwrites.any (·.node == b.node)
  overwriting : ∀ o ∈ P.overwrites, ∃ b ∈ Q.buffers.toList, b.node = o.node
  overwrites_eq : Q.overwrites = []
  /-- A buffer is named after its node and has as many elements. -/
  sized : ∀ b ∈ P.buffers.toList ++ Q.buffers.toList, ∃ n, s.graph.node? b.node = some n ∧
    b.name = n.name ∧ b.elements = n.layout.size
  totalBytes_eq : Q.totalBytes = P.totalBytes
    + total (fun o => (s.graph.shapeOf o.node).size * (Element.kind α).bytes) P.overwrites

section Planned

variable {P Q : Plan} (hp : s.Planned P) (hq : s.Planned Q)

include hp hq

/-- Any two plans of a slice compute the same nodes. -/
theorem Planned.computes_congr {id : NodeId} (hid : id ∈ s.order) :
    s.computes P.sites id = s.computes Q.sites id := by
  obtain ⟨n, hn⟩ := hp.ordered.known id hid
  rw [computes, computes, hn, Option.any_some, Option.any_some]
  refine hp.settled.computes_eq hq.settled hp.built fun x hx => ?_
  exact hp.ordered.closed hid (Graph.inputsOf_of_node? hn ▸ hx)

theorem Planned.stores_congr {id : NodeId} (hid : id ∈ s.order) :
    s.stores P.sites id = s.stores Q.sites id := by
  obtain ⟨n, hn⟩ := hp.ordered.known id hid
  rw [stores_of_node? hn, stores_of_node? hn, hp.computes_congr hq hid]

omit hq in
theorem Planned.placement_eq_none {id : NodeId} (hid : id ∉ s.order) :
    P.placements.get? id = none := by
  rw [Option.eq_none_iff_forall_ne_some]
  intro q hq
  exact hid (hp.inside id q hq).1

theorem Planned.isView_congr (id : NodeId) : s.isView P id = s.isView Q id := by
  by_cases hid : id ∈ s.order
  · obtain ⟨n, hn⟩ := hp.ordered.known id hid
    have hcomputes := hp.computes_congr hq hid
    rw [computes, computes, hn, Option.any_some, Option.any_some] at hcomputes
    rw [hp.isView_eq hid hn, hq.isView_eq hid hn, hcomputes]
  · rw [isView, isView, hp.placement_eq_none hid, hq.placement_eq_none hid]
    rfl

theorem Planned.shape_congr (id : NodeId) :
    (P.placements.get? id).map (·.layout.shape) = (Q.placements.get? id).map (·.layout.shape) := by
  by_cases hid : id ∈ s.order
  · obtain ⟨q, hplace⟩ := hp.place_of_mem hid
    obtain ⟨r, hplace'⟩ := hq.place_of_mem hid
    rw [hplace, hplace', Option.map_some, Option.map_some, (hp.shaped hplace).1,
      (hq.shaped hplace').1]
  · rw [hp.placement_eq_none hid, hq.placement_eq_none hid]

end Planned

/-- The plan in which nodes may overwrite an input refines the one in which they may not. -/
theorem refines_of_plan {P Q : Plan} (hs : s.Ordered) (hg : s.graph.Built)
    (hP : s.plan true = .ok P) (hQ : s.plan false = .ok Q) : s.Refines P Q := by
  have hp := plan_eq_ok hs hg hP
  have hq := plan_eq_ok hs hg hQ
  obtain ⟨hledger, _⟩ := ledger_of_plan hs hg hP
  obtain ⟨hledger', hnone⟩ := ledger_of_plan hs hg hQ
  have hnone : Q.overwrites = [] := hnone rfl
  rw [hnone] at hledger'
  have hstores : ∀ id ∈ s.order, s.stores Q.sites id = s.stores P.sites id :=
    fun id hid => hq.stores_congr hp hid
  have hkept : P.buffers.toList
      = Q.buffers.toList.filter fun b => !P.overwrites.any (·.node == b.node) :=
    hp.buffers_eq_of_nodes hq (List.Subset.refl _) (List.filter_subset_self _)
      (hledger.nodes_kept hledger' hstores)
  have hgone := (List.forall₂_and_left _ _).mpr
    ⟨fun _ hb => hb, List.Forall₂.of_map_eq (hledger.nodes_gone hledger' hstores)⟩
  have hbytes : (Q.buffers.toList.filter fun b => P.overwrites.any (·.node == b.node)).map
      Buffer.bytes = P.overwrites.map fun o =>
        (s.graph.shapeOf o.node).size * (Element.kind α).bytes := by
    refine (hgone.imp ?_).map_eq
    rintro b o ⟨hb, hnode⟩
    obtain ⟨n, hn, he⟩ := hq.buffer_eq (List.mem_of_mem_filter hb)
    have hkind : n.layout.kind = Element.kind α := by
      rw [(hg.sound hn).layout_eq]
      rfl
    rw [← hnode, Graph.shapeOf_of_node? hn, ← hkind, he]
    rfl
  refine ⟨?_, ?_, hp.isView_congr hq, hp.shape_congr hq,
    fun id q r hplace hplace' => hp.settled.alike hq.settled hg hplace hplace', hkept,
    fun o ho => ?_, hnone, fun b hb => ?_, ?_⟩
  · rw [hp.steps_eq, hq.steps_eq, List.filter_congr fun id hid => hp.computes_congr hq hid]
  · rw [hp.steps_eq, List.filter_congr fun id hid => hp.needsStep_eq hid]
  · obtain ⟨b, hb, _, hnode⟩ := hgone.exists_left ho
    exact ⟨b, List.mem_of_mem_filter hb, hnode⟩
  · rcases List.mem_append.mp hb with hb | hb
    · obtain ⟨n, hn, he⟩ := hp.buffer_eq hb
      exact ⟨n, hn, congrArg _ he, congrArg _ he⟩
    · obtain ⟨n, hn, he⟩ := hq.buffer_eq hb
      exact ⟨n, hn, congrArg _ he, congrArg _ he⟩
  · rw [Plan.totalBytes_eq, Plan.totalBytes_eq,
      total_filter _ fun b => !P.overwrites.any (·.node == b.node), ← hkept]
    simp only [Bool.not_not]
    rw [← total_id_map _ (List.filter _ _), hbytes, total_id_map _ P.overwrites]

end Slice

namespace Specimen

end Specimen

end TensorGraph
