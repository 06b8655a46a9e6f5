/-
# Where a plan puts values, and why that is allowed

`Hosted` gives the ways in which a node can come by its place, each with all
that the draft has made sure of:

| way | what was made sure of |
| :-- | :-- |
| `fresh` | no node before lies in the buffer; its role is the node's own |
| `reshaped` | the input's elements lie side by side |
| `reordered`, `repeated` | nothing: they only read the input's place anew |
| `assigned` | a value in the variable's own buffer has the variable's layout |
| `overwriting` | the buffer is scratch, nothing in it is needed again, inputs in it are aligned |

`Planned` is the whole of what later proofs know about a plan that was made
from a slice: nothing else looks into the draft.  It is proved by an invariant
along the order (`Draft.Sound`), one node at a time.
-/
import TensorGraph.Plan.Draft
import TensorGraph.Proofs.Layouts
import TensorGraph.Proofs.Slices

namespace TensorGraph

/-- Where nodes lie and what buffers are for, as far as that is settled. -/
structure Sites where
  place : NodeId → Option Placement
  role : Nat → Option BufferRole

/-- The sites of a plan in the making. -/
def Draft.sites (d : Draft) : Sites := ⟨d.placements.get?, fun b => d.buffers[b]?.map (·.role)⟩

/-- The sites of a plan. -/
def Plan.sites (p : Plan) : Sites := ⟨p.placements.get?, fun b => p.buffers[b]?.map (·.role)⟩

namespace Sites

variable {α : Type}

/-- The operation needs a step before the assignments, given where its inputs lie. -/
def computes (σ : Sites) : Operation α → Bool
  | .placeholder _ | .constant _ _ | .persistent _ _ => false
  | .reorder _ _ | .broadcast _ _ _ | .assign _ _ => false
  | .reshape input _ => (σ.place input).any fun q => !q.layout.isPacked
  | .binary _ _ _ | .unary _ _ | .reduce _ _ _ | .dot _ _ _ | .oneHot _ _ _ | .maxPool _ _ _ => true
  | .custom _ _ => true

/-- A node with a buffer of its own needs a step unless it is a source. -/
theorem computes_of_fresh {σ : Sites} {op : Operation α} (hassign : op.isAssignment = false)
    (hread : op.isReading = true → σ.computes op = true) : σ.computes op = !op.isSource := by
  cases op with
  | reshape | reorder | broadcast => exact hread rfl
  | assign => simp [Operation.isAssignment, Operation.target?] at hassign
  | _ => rfl

theorem computes_of_isElementwise {σ : Sites} {op : Operation α} (h : op.isElementwise = true) :
    σ.computes op = true ∧ op.isSource = false ∧ op.isAssignment = false := by
  cases op with
  | binary | unary => exact ⟨rfl, rfl, rfl⟩
  | _ => simp [Operation.isElementwise] at h

/-- What is settled in `σ` about the given nodes is the same in `τ`. -/
structure Extends (τ σ : Sites) (ids : List NodeId) : Prop where
  place_eq : ∀ id ∈ ids, τ.place id = σ.place id
  role_eq : ∀ b r, σ.role b = some r → τ.role b = some r

theorem Extends.computes_eq {τ σ : Sites} {ids : List NodeId} (h : τ.Extends σ ids)
    {op : Operation α} (hin : ∀ x ∈ op.inputs, x ∈ ids) : τ.computes op = σ.computes op := by
  cases op with
  | reshape input shape =>
      have : input ∈ (Operation.reshape input shape : Operation α).inputs :=
        List.mem_singleton.mpr rfl
      simp only [computes, h.place_eq input (hin input this)]
  | _ => rfl

end Sites

/-- How a node that is placed after the nodes `before` comes by its place. -/
inductive Hosted {α : Type} (s : Slice α) (σ : Sites) (before : List NodeId) (n : Node α) :
    Placement → Prop
  | fresh {b : Nat} :
      n.op.isAssignment = false →
      (n.op.isReading = true → σ.computes n.op = true) →
      n.layout.size ≠ 0 →
      σ.role b = some (Draft.roleOf n.op) →
      (∀ h ∈ before, ∀ q, σ.place h = some q → q.buffer ≠ b) →
      Hosted s σ before n ⟨b, n.layout⟩
  | reshaped {input : NodeId} {shape : Shape} {q : Placement} :
      n.op = .reshape input shape → σ.place input = some q → q.layout.isPacked = true →
      Hosted s σ before n { q with layout := q.layout.reshape shape }
  | reordered {input : NodeId} {order : List Nat} {q : Placement} :
      n.op = .reorder input order → σ.place input = some q →
      Hosted s σ before n { q with layout := q.layout.transpose order }
  | repeated {input : NodeId} {shape : Shape} {axes : List Nat} {q : Placement} :
      n.op = .broadcast input shape axes → σ.place input = some q →
      Hosted s σ before n { q with layout := q.layout.broadcast shape axes }
  | assigned {target value : NodeId} {q v : Placement} :
      n.op = .assign target value → σ.place target = some q → σ.place value = some v →
      (v.buffer = q.buffer → v.layout = q.layout) →
      Hosted s σ before n q
  | overwriting {input : NodeId} {q : Placement} :
      n.op.isElementwise = true → input ∈ n.op.inputs → σ.place input = some q →
      q.layout.shape = n.layout.shape → q.layout.isPacked = true →
      σ.role q.buffer = some .intermediate →
      (∀ h ∈ before, ∀ r, σ.place h = some r → r.buffer = q.buffer →
        ¬ s.NeededFrom (before.length + 1) h) →
      (∀ x ∈ n.op.inputs, ∀ r, σ.place x = some r → r.buffer = q.buffer → r.layout = q.layout) →
      Hosted s σ before n q

/-- The node needs a step before the assignments. -/
def Slice.computes {α : Type} (s : Slice α) (σ : Sites) (id : NodeId) : Bool :=
  (s.graph.node? id).any fun n => σ.computes n.op

/-- Placing further nodes changes nothing about a node that has its place. -/
theorem Hosted.extend {α : Type} {s : Slice α} {σ τ : Sites} {before : List NodeId} {n : Node α}
    {q : Placement} (h : Hosted s σ before n q) (hext : τ.Extends σ before)
    (hin : ∀ x ∈ n.op.inputs, x ∈ before) : Hosted s τ before n q := by
  have kept : ∀ {x r}, x ∈ n.op.inputs → σ.place x = some r → τ.place x = some r :=
    fun hx hr => (hext.place_eq _ (hin _ hx)).trans hr
  cases h with
  | fresh hassign hread hsize hrole hnew =>
      refine .fresh hassign (fun h => (hext.computes_eq hin).trans (hread h)) hsize
        (hext.role_eq _ _ hrole) fun x hx r hr => hnew x hx r ?_
      rwa [← hext.place_eq x hx]
  | reshaped hop hq hp => exact .reshaped hop (kept (by simp [hop, Operation.inputs]) hq) hp
  | reordered hop hq => exact .reordered hop (kept (by simp [hop, Operation.inputs]) hq)
  | repeated hop hq => exact .repeated hop (kept (by simp [hop, Operation.inputs]) hq)
  | assigned hop hq hv hsame =>
      exact .assigned hop (kept (by simp [hop, Operation.inputs]) hq)
        (kept (by simp [hop, Operation.inputs]) hv) hsame
  | overwriting hel hmem hq hshape hp hrole hfree haligned =>
      refine .overwriting hel hmem (kept hmem hq) hshape hp (hext.role_eq _ _ hrole)
        (fun x hx r hr => hfree x hx r ?_) (fun x hx r hr => haligned x hx r ?_)
      · rwa [← hext.place_eq x hx]
      · rwa [← hext.place_eq x (hin x hx)]

/-- The layout that a node of a graph has there is packed. -/
theorem Node.Sound.isPacked {α : Type} [Element α] {g : Graph α} {id : NodeId} {n : Node α}
    (h : n.Sound g id) : n.layout.isPacked = true := by
  rw [h.layout_eq]
  exact Layout.isPacked_packed _ _

theorem Node.Sound.size_le_extent {α : Type} [Element α] {g : Graph α} {id : NodeId} {n : Node α}
    (h : n.Sound g id) : n.layout.size ≤ n.layout.extent := by
  have hregular : n.layout.Regular := by
    rw [h.layout_eq]
    exact Layout.regular_packed _ _
  exact Nat.le_trans (Nat.le_add_left _ _) (Layout.start_add_size_le_extent hregular h.isPacked)

section Readings

variable {α : Type} {s : Slice α} {σ : Sites} {before : List NodeId} {n : Node α} {q : Placement}
  {input : NodeId}

/-- A reshape of a packed value lies where that value lies; any other has a step. -/
theorem Hosted.of_reshape {shape : Shape} (h : Hosted s σ before n q)
    (hop : n.op = .reshape input shape) : ∃ v, σ.place input = some v ∧
      (v.layout.isPacked = true → q = { v with layout := v.layout.reshape shape }) := by
  cases h with
  | fresh _ hread =>
      have hcomputes := hread (by rw [hop]; rfl)
      simp only [hop, Sites.computes, Option.any_eq_true] at hcomputes
      obtain ⟨v, hv, hnot⟩ := hcomputes
      exact ⟨v, hv, fun hp => by simp [hp] at hnot⟩
  | reshaped hop' hv _ =>
      cases hop.symm.trans hop'
      exact ⟨_, hv, fun _ => rfl⟩
  | reordered hop' | repeated hop' | assigned hop' => cases hop.symm.trans hop'
  | overwriting hel => simp [hop, Operation.isElementwise] at hel

theorem Hosted.of_reorder {order : List Nat} (h : Hosted s σ before n q)
    (hop : n.op = .reorder input order) : ∃ v, σ.place input = some v ∧
      q = { v with layout := v.layout.transpose order } := by
  cases h with
  | fresh _ hread => simp [hop, Operation.isReading, Sites.computes] at hread
  | reordered hop' hv =>
      cases hop.symm.trans hop'
      exact ⟨_, hv, rfl⟩
  | reshaped hop' | repeated hop' | assigned hop' => cases hop.symm.trans hop'
  | overwriting hel => simp [hop, Operation.isElementwise] at hel

theorem Hosted.of_broadcast {shape : Shape} {axes : List Nat} (h : Hosted s σ before n q)
    (hop : n.op = .broadcast input shape axes) : ∃ v, σ.place input = some v ∧
      q = { v with layout := v.layout.broadcast shape axes } := by
  cases h with
  | fresh _ hread => simp [hop, Operation.isReading, Sites.computes] at hread
  | repeated hop' hv =>
      cases hop.symm.trans hop'
      exact ⟨_, hv, rfl⟩
  | reshaped hop' | reordered hop' | assigned hop' => cases hop.symm.trans hop'
  | overwriting hel => simp [hop, Operation.isElementwise] at hel

end Readings

/-- Nothing that is placed before the node lies in the buffer. -/
def Sites.FirstIn (σ : Sites) (before : List NodeId) (id : NodeId) (b : Nat) : Prop :=
  ∀ done rest, before = done ++ id :: rest → ∀ x ∈ done, ∀ q, σ.place x = some q → q.buffer ≠ b

/-- The nodes `before` have come by their places, and no other nodes have places. -/
structure Slice.Settled {α : Type} (s : Slice α) (σ : Sites) (before : List NodeId) : Prop where
  hosted : ∀ done id rest, before = done ++ id :: rest → ∃ n q,
    s.graph.node? id = some n ∧ σ.place id = some q ∧ Hosted s σ done n q
  placed : ∀ id q, σ.place id = some q → id ∈ before

namespace Slice.Settled

variable {α : Type} {s : Slice α} {σ : Sites} {before : List NodeId} (hσ : s.Settled σ before)

include hσ

theorem hosted_of_mem {id : NodeId} (hid : id ∈ before) : ∃ done rest n q,
    before = done ++ id :: rest ∧ s.graph.node? id = some n ∧ σ.place id = some q ∧
      Hosted s σ done n q := by
  obtain ⟨done, rest, ho⟩ := List.append_of_mem hid
  obtain ⟨n, q, hn, hq, hhosted⟩ := hσ.hosted done id rest ho
  exact ⟨done, rest, n, q, ho, hn, hq, hhosted⟩

theorem place_of_mem {id : NodeId} (hid : id ∈ before) : ∃ q, σ.place id = some q := by
  obtain ⟨_, _, _, q, _, _, hq, _⟩ := hσ.hosted_of_mem hid
  exact ⟨q, hq⟩

theorem hosted_of_node {id : NodeId} {n : Node α} {q : Placement}
    (hn : s.graph.node? id = some n) (hq : σ.place id = some q) : ∃ done rest,
    before = done ++ id :: rest ∧ Hosted s σ done n q := by
  obtain ⟨done, rest, n', q', ho, hn', hq', hhosted⟩ := hσ.hosted_of_mem (hσ.placed id q hq)
  cases hn'.symm.trans hn
  cases hq'.symm.trans hq
  exact ⟨done, rest, ho, hhosted⟩

/-- A value lies in its buffer under its own shape, with a stride for every axis. -/
theorem shaped [Element α] (hg : s.graph.Built) {id : NodeId} {q : Placement}
    (hq : σ.place id = some q) : q.layout.shape = s.graph.shapeOf id ∧ q.layout.Regular := by
  induction hk : id.index using Nat.strongRecOn generalizing id q with
  | ind k ih =>
      obtain ⟨_, _, n, q', _, hn, hq', hhosted⟩ := hσ.hosted_of_mem (hσ.placed id q hq)
      cases hq'.symm.trans hq
      have hsound := hg.sound hn
      have hrule := hsound.shape_eq
      rw [Graph.shapeOf_of_node? hn]
      have input : ∀ {x r}, x ∈ n.op.inputs → σ.place x = some r →
          r.layout.shape = s.graph.shapeOf x ∧ r.layout.Regular :=
        fun hx hr => ih _ (hk ▸ hsound.inputs_lt _ hx) hr rfl
      cases hhosted with
      | fresh =>
          refine ⟨rfl, ?_⟩
          rw [hsound.layout_eq]
          exact Layout.regular_packed _ _
      | reshaped hop hr _ =>
          rw [hop, Operation.reshape_eq_ok] at hrule
          exact ⟨hrule.2, Layout.regular_reshape _ _⟩
      | reordered hop hr =>
          rw [hop, Operation.reorder_eq_ok] at hrule
          refine ⟨?_, Layout.regular_transpose _ _⟩
          rw [← hrule.2, ← (input (by simp [hop, Operation.inputs]) hr).1]
          rfl
      | repeated hop hr =>
          rw [hop, Operation.broadcast_eq_ok] at hrule
          exact ⟨hrule.2.2, Layout.regular_broadcast _ _ _⟩
      | assigned hop hr _ _ =>
          rw [hop, Operation.assign_eq_ok] at hrule
          obtain ⟨hshape, hreg⟩ := input (by simp [hop, Operation.inputs]) hr
          exact ⟨hshape.trans hrule.2, hreg⟩
      | overwriting _ hmem hr hshape _ _ _ _ => exact ⟨hshape, (input hmem hr).2⟩

end Slice.Settled

namespace Draft

variable {α : Type}

/-! ## The origin of a place -/

theorem placement_eq_ok {d : Draft} {id : NodeId} {q : Placement} :
    d.placement id = .ok q ↔ d.sites.place id = some q := by
  simp only [placement, sites]
  cases d.placements.get? id with
  | none => simp
  | some r => simp

/-- An input that is overwritten has passed both tests. -/
theorem overwritten?_eq_ok {d : Draft} {s : Slice α} {position : Nat} {n : Node α}
    {inputs : List NodeId} {input : NodeId}
    (h : d.overwritten? s position n inputs = .ok (some input)) :
    input ∈ inputs ∧ ∃ q, d.sites.place input = some q ∧ d.mayOverwrite s position n q = true ∧
      ∃ operands, n.op.inputs.mapM d.placement = .ok operands ∧ aligned q operands = true := by
  induction inputs with
  | nil => cases h
  | cons x rest ih =>
      obtain ⟨q, hq, h⟩ := Except.bind_eq_ok.mp h
      have later : d.overwritten? s position n rest = .ok (some input) → _ := fun h =>
        And.imp_left (List.mem_cons_of_mem x) (ih h)
      split at h
      · rename_i hmay
        obtain ⟨operands, hops, h⟩ := Except.bind_eq_ok.mp h
        split at h
        · rename_i halign
          cases h
          exact ⟨List.mem_cons_self, q, placement_eq_ok.mp hq, hmay, operands, hops, halign⟩
        · exact later h
      · exact later h

/-- The origins that a node can have, with what the draft has made sure of. -/
theorem originOf_eq_ok {d : Draft} {s : Slice α} {overwriting : Bool} {position : Nat} {n : Node α}
    {origin : Origin} (h : d.originOf s overwriting position n = .ok origin) :
    match origin with
    | .fresh => n.op.isAssignment = false ∧ (n.op.isReading = true → d.sites.computes n.op = true)
    | .shared place => (∀ before, Hosted s d.sites before n place) ∧
        d.sites.computes n.op = false ∧ n.op.isSource = false
    | .over input place => n.op.isElementwise = true ∧ input ∈ n.op.inputs ∧
        d.sites.place input = some place ∧ d.mayOverwrite s position n place = true ∧
        ∃ operands, n.op.inputs.mapM d.placement = .ok operands ∧
          aligned place operands = true := by
  unfold originOf at h
  split at h
  · rename_i input shape hop
    obtain ⟨q, hq, h⟩ := Except.bind_eq_ok.mp h
    have hq := placement_eq_ok.mp hq
    cases hp : q.layout.isPacked with
    | true =>
        rw [hp, if_pos rfl] at h
        cases h
        exact ⟨fun _ => .reshaped hop hq hp, by simp [hop, Sites.computes, hq, hp],
          by rw [hop]; rfl⟩
    | false =>
        rw [hp, if_neg Bool.false_ne_true] at h
        cases h
        exact ⟨by rw [hop]; rfl, fun _ => by simp [hop, Sites.computes, hq, hp]⟩
  · rename_i input order hop
    obtain ⟨q, hq, h⟩ := Except.bind_eq_ok.mp h
    cases h
    exact ⟨fun _ => .reordered hop (placement_eq_ok.mp hq), by rw [hop]; rfl, by rw [hop]; rfl⟩
  · rename_i input shape axes hop
    obtain ⟨q, hq, h⟩ := Except.bind_eq_ok.mp h
    cases h
    exact ⟨fun _ => .repeated hop (placement_eq_ok.mp hq), by rw [hop]; rfl, by rw [hop]; rfl⟩
  · rename_i target value hop
    obtain ⟨q, hq, h⟩ := Except.bind_eq_ok.mp h
    obtain ⟨v, hv, h⟩ := Except.bind_eq_ok.mp h
    split at h
    · cases h
    · rename_i hoverlap
      cases h
      refine ⟨fun _ => .assigned hop (placement_eq_ok.mp hq) (placement_eq_ok.mp hv) fun hb => ?_,
        by rw [hop]; rfl, by rw [hop]; rfl⟩
      by_contra hl
      exact hoverlap ⟨hb, hl⟩
  · rename_i hreshape hreorder hbroadcast hassign
    have plain : n.op.isAssignment = false ∧
        (n.op.isReading = true → d.sites.computes n.op = true) := by
      cases hop : n.op with
      | reshape input shape => exact absurd hop (hreshape input shape)
      | reorder input order => exact absurd hop (hreorder input order)
      | broadcast input shape axes => exact absurd hop (hbroadcast input shape axes)
      | assign target value => exact absurd hop (hassign target value)
      | _ => exact ⟨rfl, nofun⟩
    split at h
    · rename_i hel
      obtain ⟨found, hfound, h⟩ := Except.bind_eq_ok.mp h
      cases found with
      | none =>
          cases h
          exact plain
      | some input =>
          obtain ⟨q, hq, h⟩ := Except.bind_eq_ok.mp h
          cases h
          obtain ⟨hmem, r, hr, hmay, hall⟩ := overwritten?_eq_ok hfound
          cases hr.symm.trans (placement_eq_ok.mp hq)
          exact ⟨(Bool.and_eq_true_iff.mp hel).1, hmem, hr, hmay, hall⟩
    · cases h
      exact plain

/-! ## One more node -/

theorem schedule_fresh (d : Draft) (id : NodeId) {op : Operation α} (h : op.isAssignment = false) :
    d.schedule id op .fresh = { d with steps := d.steps ++ [id].filter fun _ => !op.isSource } := by
  cases hs : op.isSource <;> simp [schedule, h, hs]

theorem schedule_shared (d : Draft) (id : NodeId) (op : Operation α) (place : Placement) :
    d.schedule id op (.shared place)
      = { d with updates := d.updates ++ [id].filter fun _ => op.isAssignment } := by
  cases h : op.isAssignment <;> simp [schedule, h]

theorem schedule_over (d : Draft) (id input : NodeId) {op : Operation α} (place : Placement)
    (h : op.isAssignment = false) :
    d.schedule id op (.over input place)
      = { d with steps := d.steps ++ [id], overwrites := d.overwrites ++ [⟨id, input⟩] } := by
  simp [schedule, h]

/-- The buffer that is opened for a node, before it has a size. -/
def opened (n : Node α) : Buffer := ⟨n.name, n.id, roleOf n.op, n.layout.kind, 0, 0⟩

/-- The draft `d'` is `d` with the node placed at `q`. -/
structure Grows (s : Slice α) (before : List NodeId) (id : NodeId) (n : Node α) (q : Placement)
    (d d' : Draft) : Prop where
  placements_eq : d'.placements = d.placements.insert id q
  role_eq : ∀ b r, d.sites.role b = some r → d'.sites.role b = some r
  size_le : d.buffers.size ≤ d'.buffers.size
  buffer_lt : q.buffer < d'.buffers.size
  occupants_eq : d'.occupants = (q.buffer, id) :: d.occupants
  steps_eq : d'.steps = d.steps ++ [id].filter fun _ => d.sites.computes n.op
  updates_eq : d'.updates = d.updates ++ [id].filter fun _ => n.op.isAssignment
  home : ∀ b buf, d'.buffers[b]? = some buf → d.buffers[b]? = some buf ∨
    b = d.buffers.size ∧ buf = opened n ∧ q = ⟨b, n.layout⟩
  hosted : Hosted s d'.sites before n q

theorem Grows.place_eq {s : Slice α} {before : List NodeId} {id : NodeId} {n : Node α}
    {q : Placement} {d d' : Draft} (h : Grows s before id n q d d') (x : NodeId) :
    d'.sites.place x = if x = id then some q else d.sites.place x := by
  simp only [sites, h.placements_eq, NodeMap.get?_insert]

/-- What is known of a draft in which the nodes `before` are placed. -/
structure Sound (d : Draft) (s : Slice α) (before : List NodeId) : Prop where
  hosted : ∀ done id rest, before = done ++ id :: rest → ∃ n q,
    s.graph.node? id = some n ∧ d.sites.place id = some q ∧ Hosted s d.sites done n q
  placed : ∀ id q, d.sites.place id = some q →
    id ∈ before ∧ q.buffer < d.buffers.size ∧ (q.buffer, id) ∈ d.occupants
  placed_of_mem : ∀ q ∈ d.placements.values, ∃ id, d.sites.place id = some q
  home : ∀ b buf, d.buffers[b]? = some buf → ∃ n, s.graph.node? buf.node = some n ∧
    d.sites.place buf.node = some ⟨b, n.layout⟩ ∧ buf = opened n
  first : ∀ b buf, d.buffers[b]? = some buf → d.sites.FirstIn before buf.node b
  steps_eq : d.steps = before.filter (s.computes d.sites)
  updates_eq : d.updates = before.filter s.runsLast

theorem sound_empty (s : Slice α) : empty.Sound s [] := by
  refine ⟨fun done id rest h => ?_, nofun, nofun, fun b buf h => ?_, fun b buf h => ?_, rfl, rfl⟩
  · simp at h
  · simp [empty] at h
  · simp [empty] at h

theorem Sound.settled {d : Draft} {s : Slice α} {before : List NodeId} (hd : d.Sound s before) :
    s.Settled d.sites before :=
  ⟨hd.hosted, fun id q hq => (hd.placed id q hq).1⟩

section Step

variable {s : Slice α} {before after : List NodeId} {id : NodeId} {n : Node α} {q : Placement}
  {d d' : Draft}

theorem Grows.extends (h : Grows s before id n q d d') (hid : id ∉ before) :
    d'.sites.Extends d.sites before := by
  refine ⟨fun x hx => ?_, h.role_eq⟩
  rw [h.place_eq, if_neg]
  rintro rfl
  exact hid hx

/-- One more node changes nothing about which of the nodes before it are computed. -/
theorem Sound.computes_eq (hs : s.Ordered) (ho : s.order = before ++ id :: after)
    (hd : d.Sound s before) (h : Grows s before id n q d d') :
    ∀ x ∈ before, s.computes d'.sites x = s.computes d.sites x := by
  intro x hx
  obtain ⟨done, rest, hsplit⟩ := List.append_of_mem hx
  obtain ⟨m, _, hm, _, _⟩ := hd.hosted done x rest hsplit
  have hplace : s.order = done ++ x :: (rest ++ id :: after) := by
    rw [ho, hsplit]
    simp
  simp only [Slice.computes, hm, Option.any_some]
  refine (h.extends (hs.not_mem_before ho)).computes_eq fun y hy => ?_
  have hmem := hs.input_mem_before hplace (Graph.inputsOf_of_node? hm ▸ hy)
  exact hsplit ▸ List.mem_append_left _ hmem

/-- The invariant is kept by one more node. -/
theorem Sound.grows [Element α] (hs : s.Ordered) (hg : s.graph.Built)
    (ho : s.order = before ++ id :: after) (hn : s.graph.node? id = some n)
    (hd : d.Sound s before) (h : Grows s before id n q d d') : d'.Sound s (before ++ [id]) := by
  have hid := hs.not_mem_before ho
  have hext := h.extends hid
  -- every node placed so far has its inputs among those before it
  have inputs_mem : ∀ done x rest m, before = done ++ x :: rest → s.graph.node? x = some m →
      ∀ y ∈ m.op.inputs, y ∈ done := by
    intro done x rest m hsplit hm y hy
    have hplace : s.order = done ++ x :: (rest ++ id :: after) := by
      rw [ho, hsplit]
      simp
    exact hs.input_mem_before hplace (Graph.inputsOf_of_node? hm ▸ hy)
  refine ⟨fun done x rest hsplit => ?_, fun x r hr => ?_, fun r hr => ?_, fun b buf hbuf => ?_,
    fun b buf hbuf done rest hsplit x hx r hr => ?_, ?_, ?_⟩
  · rcases List.snoc_eq_append_cons hsplit with ⟨rfl, rfl, rfl⟩ | ⟨mid, rfl, hbefore⟩
    · exact ⟨n, q, hn, by rw [h.place_eq, if_pos rfl], h.hosted⟩
    · obtain ⟨m, r, hm, hr, hhosted⟩ := hd.hosted done x mid hbefore
      have hsub : ∀ z ∈ done, z ∈ before := fun z hz => hbefore ▸ List.mem_append_left _ hz
      refine ⟨m, r, hm, ?_, hhosted.extend
        ⟨fun z hz => hext.place_eq z (hsub z hz), hext.role_eq⟩
        (inputs_mem done x mid m hbefore hm)⟩
      rw [hext.place_eq x (hbefore ▸ by simp)]
      exact hr
  · rw [h.place_eq] at hr
    rw [h.occupants_eq]
    split at hr
    · rename_i hx
      cases hr
      exact ⟨by simp [hx], h.buffer_lt, by simp [hx]⟩
    · obtain ⟨hmem, hlt, hocc⟩ := hd.placed x r hr
      exact ⟨List.mem_append_left _ hmem, Nat.lt_of_lt_of_le hlt h.size_le,
        List.mem_cons_of_mem _ hocc⟩
  · rw [h.placements_eq] at hr
    rcases NodeMap.mem_values_insert hr with rfl | hr
    · exact ⟨id, by rw [h.place_eq, if_pos rfl]⟩
    · obtain ⟨x, hx⟩ := hd.placed_of_mem r hr
      exact ⟨x, (hext.place_eq x (hd.placed x r hx).1).trans hx⟩
  · rcases h.home b buf hbuf with hold | ⟨_, rfl, rfl⟩
    · obtain ⟨m, hm, hplace, hopened⟩ := hd.home b buf hold
      refine ⟨m, hm, ?_, hopened⟩
      rw [hext.place_eq _ (hd.placed _ _ hplace).1]
      exact hplace
    · have hnode : (opened n).node = id := (hg.sound hn).id_eq
      exact ⟨n, hnode ▸ hn, by rw [h.place_eq, if_pos hnode], rfl⟩
  · rcases List.snoc_eq_append_cons hsplit with ⟨rfl, hnode, rfl⟩ | ⟨mid, rfl, hbefore⟩
    · rw [hext.place_eq x hx] at hr
      obtain ⟨hmem, hlt, _⟩ := hd.placed x r hr
      rcases h.home b buf hbuf with hold | ⟨rfl, _, _⟩
      · obtain ⟨_, _, hplace, _⟩ := hd.home b buf hold
        exact absurd (hd.placed _ _ hplace).1 (hnode ▸ hid)
      · exact Nat.ne_of_lt hlt
    · have hmem : x ∈ before := hbefore ▸ List.mem_append_left _ hx
      rw [hext.place_eq x hmem] at hr
      rcases h.home b buf hbuf with hold | ⟨rfl, _, _⟩
      · exact hd.first b buf hold done mid hbefore x hx r hr
      · exact Nat.ne_of_lt (hd.placed x r hr).2.1
  · have hsame := hd.computes_eq hs ho h
    have hnew : s.computes d'.sites id = d.sites.computes n.op := by
      simp only [Slice.computes, hn, Option.any_some]
      exact hext.computes_eq fun y hy => hs.input_mem_before ho (Graph.inputsOf_of_node? hn ▸ hy)
    rw [h.steps_eq, hd.steps_eq, List.filter_append, List.filter_congr hsame]
    simp only [List.filter_cons, List.filter_nil, hnew]
  · rw [h.updates_eq, hd.updates_eq, List.filter_append]
    simp only [List.filter_cons, List.filter_nil, Slice.runsLast_of_node? hn]

theorem extends_insert (q : Placement) (hid : id ∉ before) {role : Nat → Option BufferRole}
    (hrole : ∀ b r, d.sites.role b = some r → role b = some r) :
    Sites.Extends ⟨(d.placements.insert id q).get?, role⟩ d.sites before := by
  refine ⟨fun x hx => (NodeMap.get?_insert d.placements id x q).trans (if_neg ?_), hrole⟩
  rintro rfl
  exact hid hx

theorem Sound.buffer_lt (hd : d.Sound s before) (h : Hosted s d.sites before n q) :
    q.buffer < d.buffers.size := by
  cases h with
  | @fresh b _ _ _ hrole _ =>
      by_contra hout
      simp [sites, show ¬ b < d.buffers.size from hout] at hrole
  | reshaped _ hq _ | reordered _ hq | repeated _ hq | assigned _ hq _ _
  | overwriting _ _ hq _ _ _ _ _ => exact (hd.placed _ _ hq).2.1

/-- A node with a buffer of its own. -/
theorem grows_fresh (hd : d.Sound s before) (hid : id ∉ before)
    (hin : ∀ x ∈ n.op.inputs, x ∈ before) (hassign : n.op.isAssignment = false)
    (hread : n.op.isReading = true → d.sites.computes n.op = true) (hsize : n.layout.size ≠ 0) :
    Grows s before id n ⟨d.buffers.size, n.layout⟩ d
      ((({ d with buffers := d.buffers.push (opened n) } : Draft).schedule id n.op .fresh).settle id
        ⟨d.buffers.size, n.layout⟩) := by
  rw [schedule_fresh _ _ hassign]
  have hrole : ∀ i r, d.sites.role i = some r →
      (d.buffers.push (opened n))[i]?.map (·.role) = some r := by
    intro i r hr
    have hlt : i < d.buffers.size := by
      by_contra hout
      simp [sites, hout] at hr
    rw [Array.getElem?_push, if_neg (Nat.ne_of_lt hlt)]
    exact hr
  have hext := extends_insert (d := d) ⟨d.buffers.size, n.layout⟩ hid hrole
  refine ⟨rfl, hrole, by simp [settle], by simp [settle], rfl, ?_, ?_, fun i buf hi => ?_, ?_⟩
  · rw [Sites.computes_of_fresh hassign hread]
    rfl
  · simp [settle, hassign]
  · rw [settle, Array.getElem?_push] at hi
    split at hi
    · rename_i he
      cases hi
      exact .inr ⟨he, rfl, by rw [he]⟩
    · exact .inl hi
  · refine .fresh hassign (fun hr => (hext.computes_eq hin).trans (hread hr)) hsize ?_ ?_
    · simp [settle, sites, opened]
    · intro x hx r hr
      exact Nat.ne_of_lt (hd.placed x r ((hext.place_eq x hx).symm.trans hr)).2.1

/-- A node that lies where another one lies. -/
theorem grows_shared (hid : id ∉ before) (hin : ∀ x ∈ n.op.inputs, x ∈ before)
    (hlt : q.buffer < d.buffers.size) (hhosted : Hosted s d.sites before n q)
    (hcomputes : d.sites.computes n.op = false) :
    Grows s before id n q d ((d.schedule id n.op (.shared q)).settle id q) := by
  rw [schedule_shared]
  have hext : Sites.Extends ⟨(d.placements.insert id q).get?, d.sites.role⟩ d.sites before :=
    extends_insert q hid fun _ _ hr => hr
  exact ⟨rfl, fun _ _ hr => hr, Nat.le_refl _, hlt, rfl, by simp [settle, hcomputes], rfl,
    fun _ _ hi => .inl hi, hhosted.extend hext hin⟩

/-- A node that is computed over one of its inputs. -/
theorem grows_over {input : NodeId} (hid : id ∉ before) (hin : ∀ x ∈ n.op.inputs, x ∈ before)
    (hlt : q.buffer < d.buffers.size) (hhosted : Hosted s d.sites before n q)
    (hel : n.op.isElementwise = true) :
    Grows s before id n q d ((d.schedule id n.op (.over input q)).settle id q) := by
  obtain ⟨hcomputes, _, hassign⟩ : d.sites.computes n.op = true ∧ _ :=
    Sites.computes_of_isElementwise hel
  rw [schedule_over _ _ _ _ hassign]
  have hext : Sites.Extends ⟨(d.placements.insert id q).get?, d.sites.role⟩ d.sites before :=
    extends_insert q hid fun _ _ hr => hr
  exact ⟨rfl, fun _ _ hr => hr, Nat.le_refl _, hlt, rfl, by simp [settle, hcomputes],
    by simp [settle, hassign], fun _ _ hi => .inl hi, hhosted.extend hext hin⟩

/-- What the two tests on an overwritten input have made sure of. -/
theorem hosted_over (hd : d.Sound s before) {input : NodeId} (hel : n.op.isElementwise = true)
    (hmem : input ∈ n.op.inputs) (hq : d.sites.place input = some q)
    (hmay : d.mayOverwrite s before.length n q = true) {operands : List Placement}
    (hops : n.op.inputs.mapM d.placement = .ok operands) (haligned : aligned q operands = true) :
    Hosted s d.sites before n q := by
  simp only [mayOverwrite, Bool.and_eq_true, decide_eq_true_eq] at hmay
  obtain ⟨⟨⟨hshape, hp⟩, hscratch⟩, hfree⟩ := hmay
  refine .overwriting hel hmem hq hshape hp ?_ (fun x hx r hr hb hneeded => ?_)
    fun x hx r hr hb => ?_
  · rw [isScratch] at hscratch
    cases hbuf : d.buffers[q.buffer]? with
    | none => simp [hbuf] at hscratch
    | some buf => simpa [sites, hbuf] using hscratch
  · have hocc := List.all_eq_true.mp hfree _ (hd.placed x r hr).2.2
    simp [hb, Slice.neededAfter_iff.mpr hneeded] at hocc
  · obtain ⟨r', hmem, hr'⟩ := Except.mem_of_mapM_eq_ok hops hx
    cases hr.symm.trans (placement_eq_ok.mp hr')
    simpa [hb] using List.all_eq_true.mp haligned r hmem

/-- Placing a node in a sound draft makes it grow by that node. -/
theorem place_eq_ok [Element α] {overwriting : Bool} (hs : s.Ordered)
    (ho : s.order = before ++ id :: after) (hd : d.Sound s before)
    (h : d.place s overwriting (id, before.length) = .ok d') :
    ∃ n q, s.graph.node? id = some n ∧ Grows s before id n q d d' := by
  obtain ⟨n, hn, h⟩ := Except.bind_eq_ok.mp h
  rw [Graph.node_eq_ok_iff] at hn
  obtain ⟨origin, horigin, h⟩ := Except.bind_eq_ok.mp h
  have hin : ∀ x ∈ n.op.inputs, x ∈ before := fun x hx =>
    hs.input_mem_before ho (Graph.inputsOf_of_node? hn ▸ hx)
  have hid := hs.not_mem_before ho
  cases origin with
  | fresh =>
      obtain ⟨hassign, hread⟩ := originOf_eq_ok horigin
      obtain ⟨⟨d₁, q⟩, hopen, h⟩ := Except.bind_eq_ok.mp h
      cases h
      rw [open?] at hopen
      split at hopen
      · cases hopen
      · rename_i hsize
        cases hopen
        exact ⟨n, _, hn, grows_fresh hd hid hin hassign hread hsize⟩
  | shared place =>
      obtain ⟨hhosted, hcomputes, _⟩ := originOf_eq_ok horigin
      cases h
      have hlt := hd.buffer_lt (hhosted before)
      exact ⟨n, place, hn, grows_shared hid hin hlt (hhosted before) hcomputes⟩
  | «over» input place =>
      obtain ⟨hel, hmem, hplace, hmay, operands, hops, halign⟩ := originOf_eq_ok horigin
      cases h
      have hhosted := hosted_over hd hel hmem hplace hmay hops halign
      exact ⟨n, place, hn, grows_over hid hin (hd.buffer_lt hhosted) hhosted hel⟩

/-- A sound draft stays sound to the end of the order. -/
theorem Sound.foldlM [Element α] {overwriting : Bool} (hs : s.Ordered) (hg : s.graph.Built)
    (ho : s.order = before ++ after) (hd : d.Sound s before)
    (h : (after.zipIdx before.length).foldlM (place s overwriting) d = .ok d') :
    d'.Sound s s.order := by
  induction after generalizing before d with
  | nil =>
      cases h
      rwa [ho, List.append_nil]
  | cons id rest ih =>
      rw [List.zipIdx_cons, List.foldlM_cons] at h
      obtain ⟨d₁, hd₁, h⟩ := Except.bind_eq_ok.mp h
      obtain ⟨n, q, hn, hgrows⟩ := place_eq_ok hs ho hd hd₁
      have ho' : s.order = (before ++ [id]) ++ rest := by
        rw [ho]
        simp
      refine ih ho' (hd.grows hs hg ho hn hgrows) ?_
      rwa [List.length_append]

end Step

/-! ## Sizes -/

theorem le_foldl_extent (qs : List Placement) (k : Nat) :
    k ≤ qs.foldl (fun n p => max n p.layout.extent) k ∧
      ∀ q ∈ qs, q.layout.extent ≤ qs.foldl (fun n p => max n p.layout.extent) k := by
  induction qs generalizing k with
  | nil => exact ⟨Nat.le_refl k, nofun⟩
  | cons r rest ih =>
      obtain ⟨hk, hrest⟩ := ih (max k r.layout.extent)
      exact ⟨Nat.le_trans (Nat.le_max_left _ _) hk,
        List.forall_mem_cons.mpr ⟨Nat.le_trans (Nat.le_max_right _ _) hk, hrest⟩⟩

theorem foldl_extent_eq (qs : List Placement) (k : Nat) :
    qs.foldl (fun n p => max n p.layout.extent) k = k ∨
      ∃ q ∈ qs, qs.foldl (fun n p => max n p.layout.extent) k = q.layout.extent := by
  induction qs generalizing k with
  | nil => exact .inl rfl
  | cons r rest ih =>
      rw [List.foldl_cons]
      rcases ih (max k r.layout.extent) with h | ⟨q, hq, h⟩
      · rcases Nat.le_total r.layout.extent k with hle | hle
        · exact .inl (h.trans (Nat.max_eq_left hle))
        · exact .inr ⟨r, List.mem_cons_self, h.trans (Nat.max_eq_right hle)⟩
      · exact .inr ⟨q, List.mem_cons_of_mem _ hq, h⟩

theorem extent_le_needed {d : Draft} {id : NodeId} {q : Placement}
    (h : d.sites.place id = some q) : q.layout.extent ≤ d.needed q.buffer := by
  have hmem : q ∈ d.placements.values := NodeMap.mem_values_of_get? h
  exact (le_foldl_extent _ 0).2 q (List.mem_filter.mpr ⟨hmem, by simp⟩)

/-- What a buffer needs is what one of the values in it needs, if it needs anything. -/
theorem needed_eq_extent {s : Slice α} {before : List NodeId} {d : Draft} (hd : d.Sound s before)
    {b : Nat} (hb : d.needed b ≠ 0) :
    ∃ id q, d.sites.place id = some q ∧ q.buffer = b ∧ d.needed b = q.layout.extent := by
  rcases foldl_extent_eq (d.placements.values.filter (·.buffer = b)) 0 with h | ⟨q, hq, h⟩
  · exact absurd h hb
  · obtain ⟨hmem, hbuffer⟩ := List.mem_filter.mp hq
    obtain ⟨id, hplace⟩ := hd.placed_of_mem q hmem
    exact ⟨id, q, hplace, of_decide_eq_true hbuffer, h⟩

theorem sized_eq_ok {d : Draft} {b b' : Buffer} {i : Nat} :
    d.sized (b, i) = .ok b' ↔ d.needed i ≠ 0 ∧ d.needed i * b.kind.bytes < Plan.byteLimit ∧
      b' = { b with elements := d.needed i, bytes := d.needed i * b.kind.bytes } := by
  simp only [sized, Except.ite_error_eq_ok, Except.ok.injEq, Nat.not_le, ne_eq,
    eq_comm (a := b')]

/-- Sizing keeps the buffers apart from their sizes. -/
theorem sizes_eq_ok {d : Draft} {buffers : List Buffer}
    (h : d.buffers.toList.zipIdx.mapM d.sized = .ok buffers) :
    buffers.length = d.buffers.size ∧ ∀ i (hi : i < d.buffers.size) (hi' : i < buffers.length),
      d.sized (d.buffers[i], i) = .ok buffers[i] := by
  obtain ⟨hlen, heach⟩ := List.forall₂_iff_get.mp (Except.mapM_eq_ok.mp h)
  refine ⟨by simpa using hlen.symm, fun i hi hi' => ?_⟩
  simpa using heach i (by simpa using hi) hi'

/-- Sizing gives buffers their sizes and nothing else. -/
theorem map_sized {β : Type} {f : Buffer → β} {d : Draft} {buffers : List Buffer}
    (hf : ∀ b elements bytes, f { b with elements, bytes } = f b)
    (h : d.buffers.toList.zipIdx.mapM d.sized = .ok buffers) :
    buffers.map f = d.buffers.toList.map f := by
  have hsame : List.Forall₂ (fun (entry : Buffer × Nat) b => f entry.1 = f b)
      d.buffers.toList.zipIdx buffers := by
    refine (Except.mapM_eq_ok.mp h).imp fun entry b hb => ?_
    obtain ⟨_, _, rfl⟩ := sized_eq_ok.mp hb
    exact (hf _ _ _).symm
  have hfirst := congrArg (List.map f) (List.zipIdx_map_fst 0 d.buffers.toList)
  rw [List.map_map] at hfirst
  exact hsame.map_eq.symm.trans hfirst

/-- Sizing changes nothing about what is settled. -/
theorem sites_sized {d : Draft} {buffers : List Buffer}
    (h : d.buffers.toList.zipIdx.mapM d.sized = .ok buffers) :
    Sites.mk d.placements.get? (fun i => buffers.toArray[i]?.map (·.role)) = d.sites := by
  obtain ⟨hlen, heach⟩ := sizes_eq_ok h
  refine congrArg (Sites.mk _) (funext fun i => ?_)
  by_cases hi : i < d.buffers.size
  · have hi' : i < buffers.length := hlen ▸ hi
    obtain ⟨_, _, he⟩ := sized_eq_ok.mp (heach i hi hi')
    simp [hi, hi', he]
  · have hi' : ¬ i < buffers.length := hlen ▸ hi
    simp [hi, hi']

end Draft

/-- What is known of a plan that was made from a slice. -/
structure Slice.Planned {α : Type} [Element α] (s : Slice α) (p : Plan) : Prop where
  built : s.graph.Built
  ordered : s.Ordered
  checked : s.Checked
  hosted : ∀ before id after, s.order = before ++ id :: after → ∃ n q,
    s.graph.node? id = some n ∧ p.placements.get? id = some q ∧ Hosted s p.sites before n q
  /-- Every value lies inside its buffer. -/
  inside : ∀ id q, p.placements.get? id = some q →
    id ∈ s.order ∧ q.buffer < p.buffers.size ∧ q.layout.extent ≤ (p.buffer q.buffer).elements
  /-- Every buffer is the one that was opened for its node, and the first value in it
  is the value of that node. -/
  opened : ∀ b, b < p.buffers.size → ∃ n, s.graph.node? (p.buffer b).node = some n ∧
    p.placements.get? (p.buffer b).node = some ⟨b, n.layout⟩ ∧
    p.sites.FirstIn s.order (p.buffer b).node b ∧
    p.buffer b = { Draft.opened n with
      elements := (p.buffer b).elements
      bytes := (p.buffer b).elements * n.layout.kind.bytes }
  /-- Every buffer is just large enough, and its size in bytes fits in 64 bits. -/
  sized : ∀ b, b < p.buffers.size → (p.buffer b).elements ≠ 0 ∧
    (p.buffer b).bytes < Plan.byteLimit ∧
    ∃ id q, p.placements.get? id = some q ∧ q.buffer = b ∧
      (p.buffer b).elements = q.layout.extent
  steps_eq : p.steps = s.order.filter (s.computes p.sites) ++ s.order.filter s.runsLast
  parameters_eq : p.parameters = s.parameters
  outputs_eq : p.outputs = s.outputs

/-- Whatever slice a plan was made from, the plan is sound for it. -/
theorem Slice.plan_eq_ok {α : Type} [Element α] {s : Slice α} {overwriting : Bool} {p : Plan}
    (hs : s.Ordered) (hg : s.graph.Built) (h : s.plan overwriting = .ok p) : s.Planned p := by
  obtain ⟨_, hcheck, h⟩ := Except.bind_eq_ok.mp h
  obtain ⟨d, hdraft, h⟩ := Except.bind_eq_ok.mp h
  obtain ⟨buffers, hsized, h⟩ := Except.bind_eq_ok.mp h
  cases h
  have hd := Draft.Sound.foldlM hs hg (List.nil_append s.order).symm (Draft.sound_empty s) hdraft
  obtain ⟨hlen, heach⟩ := Draft.sizes_eq_ok hsized
  have hbuffer : ∀ i, i < d.buffers.size →
      d.sized (d.buffers[i]!, i) = .ok (buffers.toArray.getD i default) := by
    intro i hi
    have hi' : i < buffers.length := hlen ▸ hi
    simpa [hi, hi'] using heach i hi hi'
  have hsites := Draft.sites_sized hsized
  refine ⟨hg, hs, ((check_eq_ok hs).mp hcheck).2, fun before id after ho => ?_, fun id q hq => ?_,
    fun b hb => ?_, fun b hb => ?_, ?_, rfl, rfl⟩
  · obtain ⟨n, q, hn, hq, hhosted⟩ := hd.hosted before id after ho
    refine ⟨n, q, hn, hq, ?_⟩
    rw [Plan.sites, hsites]
    exact hhosted
  · obtain ⟨hmem, hlt, _⟩ := hd.placed id q hq
    refine ⟨hmem, by simpa [hlen] using hlt, ?_⟩
    obtain ⟨_, _, he⟩ := Draft.sized_eq_ok.mp (hbuffer q.buffer hlt)
    rw [Plan.buffer, he]
    exact Draft.extent_le_needed hq
  · have hlt : b < d.buffers.size := by simpa [hlen] using hb
    have hget : d.buffers[b]? = some d.buffers[b]! := by simp [hlt]
    obtain ⟨_, _, he⟩ := Draft.sized_eq_ok.mp (hbuffer b hlt)
    obtain ⟨n, hn, hplace, hopened⟩ := hd.home b _ hget
    have hfirst := hd.first b _ hget
    rw [Plan.buffer, he]
    refine ⟨n, hn, hplace, ?_, by rw [hopened]; rfl⟩
    rw [Plan.sites, hsites]
    exact hfirst
  · have hlt : b < d.buffers.size := by simpa [hlen] using hb
    obtain ⟨hpos, hbytes, he⟩ := Draft.sized_eq_ok.mp (hbuffer b hlt)
    rw [Plan.buffer, he]
    exact ⟨hpos, hbytes, Draft.needed_eq_extent hd hpos⟩
  · rw [Plan.sites, hsites, hd.steps_eq, hd.updates_eq]

namespace Slice.Planned

variable {α : Type} [Element α] {s : Slice α} {p : Plan} (hp : s.Planned p)

include hp

/-- Every buffer belongs to the node that it was made for. -/
theorem home {b : Nat} (hb : b < p.buffers.size) : ∃ n,
    s.graph.node? (p.buffer b).node = some n ∧
      p.placements.get? (p.buffer b).node = some ⟨b, n.layout⟩ ∧
      (p.buffer b).role = Draft.roleOf n.op := by
  obtain ⟨n, hn, hplace, _, he⟩ := hp.opened b hb
  refine ⟨n, hn, hplace, ?_⟩
  rw [he]
  rfl

theorem settled : s.Settled p.sites s.order :=
  ⟨hp.hosted, fun id q hq => (hp.inside id q hq).1⟩

theorem hosted_of_mem {id : NodeId} (hid : id ∈ s.order) : ∃ before after n q,
    s.order = before ++ id :: after ∧ s.graph.node? id = some n ∧
      p.placements.get? id = some q ∧ Hosted s p.sites before n q :=
  hp.settled.hosted_of_mem hid

theorem place_of_mem {id : NodeId} (hid : id ∈ s.order) : ∃ q, p.placements.get? id = some q :=
  hp.settled.place_of_mem hid

theorem hosted_of_node {id : NodeId} {n : Node α} {q : Placement}
    (hn : s.graph.node? id = some n) (hq : p.placements.get? id = some q) : ∃ before after,
    s.order = before ++ id :: after ∧ Hosted s p.sites before n q :=
  hp.settled.hosted_of_node hn hq

/-- A value lies in its buffer under its own shape, with a stride for every axis. -/
theorem shaped {id : NodeId} {q : Placement}
    (hq : p.placements.get? id = some q) :
    q.layout.shape = s.graph.shapeOf id ∧ q.layout.Regular :=
  hp.settled.shaped hp.built hq

end Slice.Planned
end TensorGraph
