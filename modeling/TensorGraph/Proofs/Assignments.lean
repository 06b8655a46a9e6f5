/-
# The assignments at the end of a run

Assignments run after everything else, one after the other.  Each overwrites
the place of its variable with what the place of its value shows *then*, which
need not be what it showed when the assignments began: the value may lie in the
buffer of a variable that has been overwritten in the meantime.

`Updated` says exactly what is in memory after some of them.  Since no two
assignments share a buffer, an overwritten buffer stays as it is, so that both
possibilities can be told from the memory before the first assignment and the
memory after the last.

    value in the buffer of a variable assigned earlier  ⟹  what the value shows at the end
    otherwise                                           ⟹  what the value showed at the beginning
-/
import TensorGraph.Proofs.Runs

namespace TensorGraph

variable {α : Type} [Element α]

/-- The assignments of a slice, in the order in which they run. -/
def Slice.updates {α : Type} (s : Slice α) : List NodeId := s.order.filter s.runsLast

omit [Element α] in
theorem Slice.updates_eq_nil {s : Slice α} (h : ∀ id ∈ s.order, s.runsLast id = false) :
    s.updates = [] :=
  List.filter_eq_nil_iff.mpr fun id hid => by simp [h id hid]

omit [Element α] in
theorem Slice.updates_split {s : Slice α} {before after : List NodeId} {a : NodeId}
    (ho : s.order = before ++ a :: after) (hlast : s.runsLast a = true) :
    s.updates = before.filter s.runsLast ++ a :: after.filter s.runsLast := by
  rw [updates, ho, List.filter_append, List.filter_cons_of_pos hlast]

/-! ## Buffers of sources and of assignments -/

/-- What is known of an assignment of a planned slice: `q` is the place of the
variable, which is the assignment's own place, and `v` is that of its value. -/
structure Assigns (s : Slice α) (p : Plan) (id target value : NodeId) (q v : Placement) : Prop where
  op_eq : (s.graph.node? id).map (·.op) = some (.assign target value)
  place : p.placements.get? id = some q
  target_place : p.placements.get? target = some q
  value_place : p.placements.get? value = some v
  aligned : v.buffer = q.buffer → v.layout = q.layout
  target_node : ∃ n, s.graph.node? target = some n ∧ n.op.isPersistent = true
  role : p.sites.role q.buffer = some .persistent
  packed : q.layout.isPacked = true
  value_shape : v.layout.shape = q.layout.shape

omit [Element α] in
theorem Operation.isSource_of_isPersistent {op : Operation α} (h : op.isPersistent = true) :
    op.isSource = true := by
  cases op with
  | persistent => rfl
  | _ => simp [isPersistent] at h

omit [Element α] in
theorem Assigns.targetOf_eq {s : Slice α} {p : Plan} {id target value : NodeId} {q v : Placement}
    (h : Assigns s p id target value q v) : s.targetOf id = some target := by
  obtain ⟨n, hn, hop⟩ := Option.map_eq_some_iff.mp h.op_eq
  rw [Slice.targetOf_of_node? hn, hop]
  rfl

omit [Element α] in
theorem Assigns.places_eq {s : Slice α} {p : Plan} {id t t' u u' : NodeId} {q q' v v' : Placement}
    (h : Assigns s p id t u q v) (h' : Assigns s p id t' u' q' v') : q = q' ∧ v = v' := by
  cases h.op_eq.symm.trans h'.op_eq
  cases h.place.symm.trans h'.place
  cases h.value_place.symm.trans h'.value_place
  exact ⟨rfl, rfl⟩

namespace Slice.Planned

variable {s : Slice α} {p : Plan} (hp : s.Planned p)

include hp

/-- No two sources lie in one buffer. -/
theorem source_buffer_ne {x y : NodeId} {n n' : Node α} {q r : Placement}
    (hn : s.graph.node? x = some n) (hn' : s.graph.node? y = some n')
    (hsource : n.op.isSource = true) (hsource' : n'.op.isSource = true)
    (hq : p.placements.get? x = some q) (hr : p.placements.get? y = some r) (hne : x ≠ y) :
    q.buffer ≠ r.buffer := by
  obtain ⟨before, after, ho, hhosted⟩ := hp.hosted_of_node hn hq
  obtain ⟨before', after', ho', hhosted'⟩ := hp.hosted_of_node hn' hr
  rcases List.mem_before_or ho ho' hne with hx | hy
  · exact (hhosted'.source hsource').2.1 x hx q hq
  · exact ((hhosted.source hsource).2.1 y hy r hr).symm

/-- A source lies packed in a buffer of its own role. -/
theorem source {id : NodeId} {n : Node α} {q : Placement} (hn : s.graph.node? id = some n)
    (hsource : n.op.isSource = true) (hq : p.placements.get? id = some q) :
    q.layout.isPacked = true ∧ p.sites.role q.buffer = some (Draft.roleOf n.op) := by
  obtain ⟨_, _, _, hhosted⟩ := hp.hosted_of_node hn hq
  obtain ⟨hrole, _, _, hlayout⟩ := hhosted.source hsource
  refine ⟨?_, hrole⟩
  rw [hlayout]
  exact (hp.built.sound hn).isPacked

theorem assigns {id : NodeId} (hid : id ∈ s.order) (hlast : s.runsLast id = true) :
    ∃ target value q v, Assigns s p id target value q v := by
  obtain ⟨before, after, n, q, ho, hn, hq, hhosted⟩ := hp.hosted_of_mem hid
  have hsound := hp.built.sound hn
  rw [Slice.runsLast_of_node? hn] at hlast
  cases hop : n.op with
  | assign target value =>
      obtain ⟨nt, hnt, hpersistent⟩ := hsound.target_eq target (by rw [hop]; rfl)
      have hrule := hsound.shape_eq
      rw [hop, Operation.assign_eq_ok] at hrule
      cases hhosted with
      | fresh hassign => simp [hlast] at hassign
      | @assigned _ _ _ v hop' hqt hqv haligned =>
          cases hop.symm.trans hop'
          have hrole : Draft.roleOf nt.op = .persistent := by
            cases hopt : nt.op with
            | persistent => rfl
            | _ => simp [hopt, Operation.isPersistent] at hpersistent
          obtain ⟨hpacked, hroleq⟩ :=
            hp.source hnt (Operation.isSource_of_isPersistent hpersistent) hqt
          refine ⟨target, value, q, v, by rw [hn, Option.map_some, hop], hq, hqt, hqv, haligned,
            ⟨nt, hnt, hpersistent⟩, hrole ▸ hroleq, hpacked, ?_⟩
          rw [(hp.shaped hqv).1, (hp.shaped hqt).1, hrule.1]
      | reshaped hop' | reordered hop' | repeated hop' => simp [hop] at hop'
      | overwriting hel => simp [hop, Operation.isElementwise] at hel
  | _ => simp [hop, Operation.isAssignment, Operation.target?] at hlast

theorem assigns_of_node {id target value : NodeId} {n : Node α} (hid : id ∈ s.order)
    (hn : s.graph.node? id = some n) (hop : n.op = .assign target value) :
    ∃ q v, Assigns s p id target value q v := by
  have hlast : s.runsLast id = true := by
    rw [Slice.runsLast_of_node? hn, hop]
    rfl
  obtain ⟨t, u, q, v, h⟩ := hp.assigns hid hlast
  have heq := h.op_eq
  rw [hn, Option.map_some, hop] at heq
  cases heq
  exact ⟨q, v, h⟩

/-- The value of an assignment is needed throughout, and is not an assignment itself. -/
theorem assigned_value {id target value : NodeId} {q v : Placement} (hid : id ∈ s.order)
    (h : Assigns s p id target value q v) :
    value ∈ s.order ∧ s.runsLast value = false ∧ ∀ k, s.NeededFrom k value := by
  have hin : value ∈ s.graph.inputsOf id := by
    obtain ⟨n, hn, hop⟩ := Option.map_eq_some_iff.mp h.op_eq
    rw [Graph.inputsOf_of_node? hn, hop]
    simp [Operation.inputs]
  have hlast := Slice.runsLast_of_targetOf h.targetOf_eq
  exact ⟨(hp.inside value v h.value_place).1, hp.checked.reads_value id hid value hin,
    fun k => Slice.neededFrom_assigned k hid hlast hin⟩

/-- No two assignments lie in one buffer. -/
theorem assigned_buffer_ne : s.updates.Pairwise fun a b =>
    ∀ q r, p.placements.get? a = some q → p.placements.get? b = some r → q.buffer ≠ r.buffer := by
  refine (hp.checked.targets_distinct.filter _).imp_of_mem fun {a b} ha hb htargets q r hq hr => ?_
  obtain ⟨haorder, halast⟩ := List.mem_filter.mp ha
  obtain ⟨hborder, hblast⟩ := List.mem_filter.mp hb
  obtain ⟨ta, _, _, _, has⟩ := hp.assigns haorder halast
  obtain ⟨tb, _, _, _, hbs⟩ := hp.assigns hborder hblast
  cases has.place.symm.trans hq
  cases hbs.place.symm.trans hr
  obtain ⟨na, hna, hpa⟩ := has.target_node
  obtain ⟨nb, hnb, hpb⟩ := hbs.target_node
  refine hp.source_buffer_ne hna hnb (Operation.isSource_of_isPersistent hpa)
    (Operation.isSource_of_isPersistent hpb) has.target_place hbs.target_place fun he => ?_
  exact htargets ta has.targetOf_eq (he ▸ hbs.targetOf_eq)

end Slice.Planned

/-! ## What lies in the buffer of a variable -/

/-- The node is the source, or reads such a node anew without a step. -/
inductive Slice.Rereads {α : Type} (s : Slice α) (σ : Sites) (source : NodeId) : NodeId → Prop
  | self : Rereads s σ source source
  | reading {input id : NodeId} {n : Node α} :
      Rereads s σ source input → s.graph.node? id = some n → n.op.isReading = true →
      σ.computes n.op = false → input ∈ n.op.inputs → Rereads s σ source id

omit [Element α] in
theorem Hosted.reading_buffer {s : Slice α} {σ : Sites} {before : List NodeId} {n : Node α}
    {q : Placement} (h : Hosted s σ before n q) (hread : n.op.isReading = true)
    (hcomputes : σ.computes n.op = false) :
    ∃ input r, n.op.inputs = [input] ∧ σ.place input = some r ∧ q.buffer = r.buffer := by
  cases h with
  | fresh _ hstep => cases hcomputes.symm.trans (hstep hread)
  | reshaped hop hr _ | reordered hop hr | repeated hop hr =>
      exact ⟨_, _, by rw [hop]; rfl, hr, rfl⟩
  | assigned hop => simp [hop, Operation.isReading] at hread
  | overwriting hel =>
      cases hop : n.op with
      | binary | unary => simp [hop, Operation.isReading] at hread
      | _ => simp [hop, Operation.isElementwise] at hel

section Settled

variable {s : Slice α} {σ : Sites} {before : List NodeId} (hσ : s.Settled σ before)

include hσ

omit [Element α] in
/-- Whatever reads a source anew without a step lies in its buffer. -/
theorem Slice.Settled.buffer_of_rereads {source : NodeId} {q : Placement}
    (hq : σ.place source = some q) {id : NodeId} (h : s.Rereads σ source id) {r : Placement}
    (hr : σ.place id = some r) : q.buffer = r.buffer := by
  induction h generalizing r with
  | self =>
      cases hq.symm.trans hr
      rfl
  | @reading input id n _ hn hread hcomputes hin ih =>
      obtain ⟨_, _, _, hhosted⟩ := hσ.hosted_of_node hn hr
      obtain ⟨input', v, hinputs, hv, hb⟩ := hhosted.reading_buffer hread hcomputes
      obtain rfl : input = input' := by simpa [hinputs] using hin
      exact (ih hv).trans hb.symm

/-- Apart from assignments, nothing else lies in the buffer of a variable. -/
theorem Slice.Settled.rereads_of_buffer (hg : s.graph.Built)
    (hreads : ∀ id ∈ before, ∀ x ∈ s.graph.inputsOf id, s.runsLast x = false) {source : NodeId}
    {n : Node α} {q : Placement} (hn : s.graph.node? source = some n)
    (hpersistent : n.op.isPersistent = true) (hq : σ.place source = some q) {id : NodeId}
    (hlast : s.runsLast id = false) {r : Placement} (hr : σ.place id = some r)
    (hb : q.buffer = r.buffer) : s.Rereads σ source id := by
  obtain ⟨done, rest, hdone, hown⟩ := hσ.hosted_of_node hn hq
  have hissource := Operation.isSource_of_isPersistent hpersistent
  obtain ⟨hrole, hapart, hscratch, _⟩ := hown.source hissource
  induction hk : id.index using Nat.strongRecOn generalizing id r with
  | ind k ih =>
      have hid := hσ.placed id r hr
      obtain ⟨done', rest', m, r', hdone', hm, hr', hhosted⟩ := hσ.hosted_of_mem hid
      cases hr'.symm.trans hr
      by_cases he : id = source
      · exact he ▸ .self
      have reread : ∀ {x v}, m.op.inputs = [x] → σ.place x = some v → q.buffer = v.buffer →
          m.op.isReading = true → σ.computes m.op = false → s.Rereads σ source id := by
        intro x v hinputs hv hb hread hcomputes
        have hin : x ∈ m.op.inputs := by simp [hinputs]
        have hx := hreads id hid x (Graph.inputsOf_of_node? hm ▸ hin)
        have hlt := (hg.sound hm).inputs_lt x hin
        exact .reading (ih _ (hk ▸ hlt) hx hv hb rfl) hm hread hcomputes hin
      cases hhosted with
      | fresh _ _ _ _ hnew =>
          rcases List.mem_before_or hdone' hdone he with hbefore | hbefore
          · exact absurd hb.symm (hapart id hbefore _ hr)
          · exact absurd hb (hnew source hbefore _ hq)
      | reshaped hop hv hpacked =>
          exact reread (by rw [hop]; rfl) hv hb (by rw [hop]; rfl)
            (by simp [hop, Sites.computes, hv, hpacked])
      | reordered hop hv | repeated hop hv =>
          exact reread (by rw [hop]; rfl) hv hb (by rw [hop]; rfl) (by rw [hop]; rfl)
      | assigned hop =>
          rw [Slice.runsLast_of_node? hm, hop] at hlast
          cases hlast
      | overwriting _ _ _ _ _ hintermediate =>
          rw [← hb, hrole] at hintermediate
          exact absurd (Option.some.inj hintermediate) hscratch

end Settled

/-! ## One assignment -/

/-- The memory after an assignment has run. -/
def Memory.assign (g : Graph α) (p : Plan) (m : Memory α) (id : NodeId) : Memory α :=
  match (g.node? id).map (·.op), p.placements.get? id with
  | some (Operation.assign _ value), some q => m.write q (m.shown p value)
  | _, _ => m

theorem Assigns.assign_eq {s : Slice α} {p : Plan} {id target value : NodeId} {q v : Placement}
    (h : Assigns s p id target value q v) (m : Memory α) :
    m.assign s.graph p id = m.write q (m.view v).gather := by
  simp only [Memory.assign, h.op_eq, h.place, Memory.shown_of_place h.value_place]

section Step

variable {s : Slice α} {p : Plan} {id target value : NodeId} {q v : Placement}
  (h : Assigns s p id target value q v) {st : Step α}
  (hst : Computation.bindStep s.graph p id = .ok st)

include h hst

omit [Element α] in
theorem Assigns.step_eq : st.op = .assign target value ∧ st.inputs = [q, v] ∧ st.output = q := by
  obtain ⟨n, hn, hop⟩ := Option.map_eq_some_iff.mp h.op_eq
  obtain ⟨hstop, hout, hin⟩ := Computation.bindStep_eq_ok hst hn h.place
  refine ⟨hstop.trans hop, ?_, hout⟩
  rw [hop, Operation.inputs, List.forall₂_cons_left_iff] at hin
  obtain ⟨q', rest, hq', hrest, he⟩ := hin
  rw [List.forall₂_cons_left_iff] at hrest
  obtain ⟨v', rest, hv', hrest, rfl⟩ := hrest
  rw [List.forall₂_nil_left_iff] at hrest
  cases h.target_place.symm.trans hq'
  cases h.value_place.symm.trans hv'
  rw [he, hrest]

theorem Assigns.outcome_eq (hp : s.Planned p) {m : Memory α} (hm : m.Fits p) :
    st.outcome m (m.block st.output) = .complete (m.view v).gather := by
  obtain ⟨hop, hinputs, hout⟩ := h.step_eq hst
  have hcovers := hp.covers hm h.value_place
  simp only [Step.outcome, hop, hinputs, Step.operand, hout]
  by_cases hb : v.buffer = q.buffer
  · -- the value is the variable itself
    have hv : v = q := by
      obtain ⟨buffer, layout⟩ := v
      obtain rfl : buffer = q.buffer := hb
      obtain rfl : layout = q.layout := h.aligned rfl
      rfl
    rw [if_pos hb, hv]
    exact congrArg Outcome.complete ((hv ▸ hcovers).block_eq_gather h.packed)
  · rw [if_neg hb]
    exact congrArg Outcome.complete (View.elements_eq_gather hcovers.regular hcovers.extent_le)

/-- An assignment writes what its value shows, and never fails. -/
theorem Assigns.run (hp : s.Planned p) {m : Memory α} (hm : m.Fits p) :
    st.run m = (m.assign s.graph p id, none) := by
  rw [Step.run, h.outcome_eq hst hp hm, (h.step_eq hst).2.2, h.assign_eq]
  rfl

end Step

/-! ## All of them -/

/-- A place lies in the buffer of one of the given nodes. -/
def Plan.Within (p : Plan) (ids : List NodeId) (v : Placement) : Prop :=
  ∃ a ∈ ids, ∃ q, p.placements.get? a = some q ∧ q.buffer = v.buffer

omit [Element α] in
theorem Plan.Within.mono {p : Plan} {ids ids' : List NodeId} {v : Placement}
    (h : p.Within ids v) (hsub : ∀ a ∈ ids, a ∈ ids') : p.Within ids' v :=
  h.imp fun _ ⟨ha, hq⟩ => ⟨hsub _ ha, hq⟩

/-- What the memory shows after the assignments `done`, which found it as `m₁`. -/
structure Updated (s : Slice α) (p : Plan) (m₁ : Memory α) (done : List NodeId) (m : Memory α) :
    Prop where
  fits : m.Fits p
  /-- Only buffers of assigned variables have changed. -/
  kept : ∀ v, ¬ p.Within done v → m.storage v.buffer = m₁.storage v.buffer
  /-- A value in a buffer that was overwritten before was read too late. -/
  late : ∀ before a after, done = before ++ a :: after → ∀ target value q v,
    Assigns s p a target value q v → p.Within before v → (m.view q).gather = (m.view v).gather
  /-- Every other value was read as the assignments found it. -/
  timely : ∀ before a after, done = before ++ a :: after → ∀ target value q v,
    Assigns s p a target value q v → ¬ p.Within before v → (m.view q).gather = (m₁.view v).gather

theorem updated_nil {s : Slice α} {p : Plan} {m : Memory α} (h : m.Fits p) :
    Updated s p m [] m :=
  ⟨h, fun _ _ => rfl, by simp, by simp⟩

section Update

variable {s : Slice α} {p : Plan} {m₁ m : Memory α} {done rest : List NodeId} {a : NodeId}

/-- One more assignment. -/
theorem Updated.step (h : Updated s p m₁ done m) (hp : s.Planned p)
    (hs : s.updates = done ++ a :: rest) {target value : NodeId} {q v : Placement}
    (ha : Assigns s p a target value q v) :
    Updated s p m₁ (done ++ [a]) (m.assign s.graph p a) := by
  rw [ha.assign_eq]
  have hq := hp.covers h.fits ha.place
  have hsize : (m.view v).gather.size = q.layout.size := by
    rw [View.size_gather, Layout.size, ← ha.value_shape]
    rfl
  have hpairs := hp.assigned_buffer_ne
  rw [hs] at hpairs
  -- a buffer overwritten so far is not the one that is overwritten now
  have hview : ∀ r : Placement, p.Within done r →
      (m.write q (m.view v).gather).view r = m.view r := by
    rintro r ⟨b, hb, q', hq', he⟩
    refine Memory.view_write_of_ne m _ ?_
    rw [← he]
    exact (List.pairwise_append.mp hpairs).2.2 b hb a List.mem_cons_self q' q hq' ha.place
  have hself := hq.gather_write ha.packed hsize
  refine ⟨hq.fits_write ha.packed h.fits hsize, fun r hr => ?_,
    fun before x after hsplit t u q' v' hx hin => ?_,
    fun before x after hsplit t u q' v' hx hin => ?_⟩
  · rw [Memory.storage_write_of_ne, h.kept r]
    · rintro ⟨b, hb, hr'⟩
      exact hr ⟨b, List.mem_append_left _ hb, hr'⟩
    · exact fun he => hr ⟨a, by simp, q, ha.place, he.symm⟩
  · rcases List.snoc_eq_append_cons hsplit with ⟨rfl, rfl, rfl⟩ | ⟨mid, rfl, hdone⟩
    · obtain ⟨rfl, rfl⟩ := hx.places_eq ha
      rw [hself, hview _ hin]
    · have hmem : ∀ b ∈ before, b ∈ done := fun b hb => hdone ▸ List.mem_append_left _ hb
      rw [hview q' ⟨x, by simp [hdone], q', hx.place, rfl⟩, hview v' (hin.mono hmem)]
      exact h.late before x mid hdone t u q' v' hx hin
  · rcases List.snoc_eq_append_cons hsplit with ⟨rfl, rfl, rfl⟩ | ⟨mid, rfl, hdone⟩
    · obtain ⟨rfl, rfl⟩ := hx.places_eq ha
      rw [hself, Memory.view_congr (h.kept v' hin)]
    · rw [hview q' ⟨x, by simp [hdone], q', hx.place, rfl⟩]
      exact h.timely before x mid hdone t u q' v' hx hin

/-- The remaining assignments run to the end. -/
theorem Updated.run (h : Updated s p m₁ done m) (hp : s.Planned p) (hs : s.updates = done ++ rest)
    {sts : List (Step α)}
    (hsts : List.Forall₂ (fun id st => Computation.bindStep s.graph p id = .ok st) rest sts) :
    Step.runAll sts m = (rest.foldl (Memory.assign s.graph p) m, none) ∧
      Updated s p m₁ s.updates (rest.foldl (Memory.assign s.graph p) m) := by
  induction hsts generalizing done m with
  | nil =>
      rw [List.append_nil] at hs
      exact ⟨rfl, hs ▸ h⟩
  | @cons a st rest sts hst _ ih =>
      obtain ⟨hmem, hlast⟩ := List.mem_filter.mp (show a ∈ s.updates from hs ▸ by simp)
      obtain ⟨target, value, q, v, ha⟩ := hp.assigns hmem hlast
      simp only [Step.runAll, ha.run hst hp h.fits]
      exact ih (h.step hp hs ha) (by rw [hs]; simp)

end Update

end TensorGraph
