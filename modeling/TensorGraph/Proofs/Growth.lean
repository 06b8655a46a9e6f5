/-
# Compiling again after the graph has grown

A slice is compiled from what its nodes are and from nothing else in the graph.  So it can
be compiled again later, when other nodes read its nodes and assign its variables, and
nothing about it has changed:

| stage | what it looks at | |
| :-- | :-- | :-- |
| order | the nodes that the outputs depend on | `Graph.Grows.dependencies_eq` |
| checks | nodes of the order and what they read | `Slice.Stays.check_eq` |
| draft | besides, which nodes of the order read a value later on | `Slice.Stays.place_eq` |
| plan | the draft | `Slice.Stays.plan_eq` |
| binding, listing | the nodes that the plan names | `Slice.Planned.bind_eq` |

`Graph.Grows` is all that is known of the later graph: the nodes of the earlier one are
there as they were.  `Engine.Recompiles` says what comes of it for an engine: it cannot
tell which of the two graphs it compiles from, and neither can its caller.
-/
import TensorGraph.Proofs.Calls
import TensorGraph.Proofs.Isolation
import TensorGraph.Proofs.Sessions

namespace TensorGraph

variable {α : Type}

/-! ## Computations that do the same on each element -/

namespace Except

variable {ε β γ : Type}

theorem forM_congr {f g : β → Except ε PUnit} {xs : List β} (h : ∀ x ∈ xs, f x = g x) :
    xs.forM f = xs.forM g := by
  induction xs with
  | nil => rfl
  | cons x rest ih =>
      obtain ⟨hx, hrest⟩ := List.forall_mem_cons.mp h
      rw [List.forM, List.forM, hx]
      exact congrArg _ (funext fun _ => ih hrest)

theorem mapM_congr {f g : β → Except ε γ} {xs : List β} (h : ∀ x ∈ xs, f x = g x) :
    xs.mapM f = xs.mapM g := by
  induction xs with
  | nil => rfl
  | cons x rest ih =>
      obtain ⟨hx, hrest⟩ := List.forall_mem_cons.mp h
      rw [List.mapM_cons, List.mapM_cons, hx, ih hrest]

theorem foldlM_congr {f g : γ → β → Except ε γ} {xs : List β} (h : ∀ c, ∀ x ∈ xs, f c x = g c x)
    (c : γ) : xs.foldlM f c = xs.foldlM g c := by
  induction xs generalizing c with
  | nil => rfl
  | cons x rest ih =>
      rw [List.foldlM_cons, List.foldlM_cons, h c x List.mem_cons_self]
      refine congrArg _ (funext fun c' => ih ?_ c')
      intro c'' y hy
      exact h c'' y (List.mem_cons_of_mem _ hy)

end Except

/-! ## Graphs that have grown -/

namespace Graph

/-- The nodes of a graph are there as they were. -/
def Grows (g g' : Graph α) : Prop := ∀ id n, g.node? id = some n → g'.node? id = some n

variable {g g' : Graph α} {id x : NodeId}

section Grows

variable (h : g.Grows g')

include h

theorem Grows.node?_eq (hid : id.index < g.size) : g'.node? id = g.node? id := by
  obtain ⟨n, hn⟩ := node?_of_lt hid
  rw [hn, h id n hn]

theorem Grows.node_eq (hid : id.index < g.size) : g'.node id = g.node id := by
  rw [node, node, h.node?_eq hid]

theorem Grows.inputsOf_eq (hid : id.index < g.size) : g'.inputsOf id = g.inputsOf id := by
  rw [inputsOf, inputsOf, h.node?_eq hid]

theorem Grows.size_le : g.size ≤ g'.size := by
  refine Nat.le_of_not_lt ?_
  intro hlt
  have hinside : (NodeId.mk g'.size).index < g.size := hlt
  obtain ⟨n, hn⟩ := node?_of_lt hinside
  exact Nat.lt_irrefl _ (node?_lt (h _ n hn))

variable [Element α] (hg : g.Built) {outputs : List NodeId}
  (hout : ∀ id ∈ outputs, id.index < g.size)

include hg hout

/-- Nodes that are there depend on what they did, since they read what they did. -/
theorem Grows.depends_iff : g'.Depends outputs id ↔ g.Depends outputs id := by
  constructor
  · intro hid
    have hold : g.Depends outputs id ∧ id.index < g.size := by
      refine Depends.of_closed (P := fun y => g.Depends outputs y ∧ y.index < g.size) ?_ ?_ hid
      · intro y hy
        exact ⟨.output hy, hout y hy⟩
      · rintro y ⟨hdep, hlt⟩ x hx
        rw [h.inputsOf_eq hlt] at hx
        exact ⟨hdep.input hx, Nat.lt_trans (hg.input_lt hx) hlt⟩
    exact hold.1
  · intro hid
    refine hid.of_closed (fun _ => Depends.output) ?_
    intro y hy x hx
    refine hy.input ?_
    rwa [h.inputsOf_eq (lt_of_mem_inputsOf hx)]

theorem Grows.dependencies_eq : g'.dependencies outputs = g.dependencies outputs := by
  obtain ⟨_, s, _, _, hs⟩ := dependencies_eq_found hout
  obtain ⟨_, s', _, _, hs'⟩ := dependencies_eq_found fun id hid =>
    Nat.lt_of_lt_of_le (hout id hid) h.size_le
  rw [hs, hs']
  refine congrArg _ (eq_of_pairwise s'.pairwise_found s.pairwise_found ?_)
  intro id
  rw [mem_dependencies hs, mem_dependencies hs', h.depends_iff hg hout]
  constructor
  · rintro ⟨hdep, _⟩
    exact ⟨hdep, hg.depends_lt hout hdep⟩
  · rintro ⟨hdep, hlt⟩
    exact ⟨hdep, Nat.lt_of_lt_of_le hlt h.size_le⟩

end Grows
end Graph

/-! ## The same slice of another graph -/

namespace Slice

/-- The same nodes, asked for in another graph. -/
def inGraph (s : Slice α) (g : Graph α) : Slice α := { s with graph := g }

variable {s : Slice α} {g : Graph α}

theorem checkReads_inGraph (hgrows : s.graph.Grows g) {n : Node α}
    (hin : ∀ x ∈ n.op.inputs, x.index < s.graph.size) :
    (s.inGraph g).checkReads n = s.checkReads n := by
  refine Except.forM_congr ?_
  intro x hx
  show (g.node x >>= _) = _
  rw [hgrows.node_eq (hin x hx)]

variable [Element α]

/-- What a slice is compiled from is there, as it was. -/
structure Stays (s : Slice α) (g : Graph α) : Prop where
  built : s.graph.Built
  known : ∀ id ∈ s.order, id.index < s.graph.size
  grows : s.graph.Grows g

section Stays

variable (h : s.Stays g) {id : NodeId}

include h

/-- A node of the order, and where what it reads is. -/
theorem Stays.node_of_mem (hid : id ∈ s.order) :
    ∃ n, s.graph.node? id = some n ∧ ∀ x ∈ n.op.inputs, x.index < s.graph.size := by
  have hlt := h.known id hid
  obtain ⟨n, hn⟩ := Graph.node?_of_lt hlt
  refine ⟨n, hn, ?_⟩
  intro x hx
  exact Nat.lt_trans ((h.built.sound hn).inputs_lt x hx) hlt

theorem Stays.runsLast_eq (hid : id ∈ s.order) : (s.inGraph g).runsLast id = s.runsLast id := by
  show (g.node? id).any _ = _
  rw [h.grows.node?_eq (h.known id hid)]
  rfl

/-! ### Checks -/

theorem Stays.checkBinding_eq (hid : id ∈ s.order) :
    (s.inGraph g).checkBinding id = s.checkBinding id := by
  show (g.node id >>= _) = _
  rw [h.grows.node_eq (h.known id hid)]
  rfl

theorem Stays.checkAssignments_eq {ids : List NodeId} (hids : ∀ id ∈ ids, id ∈ s.order)
    (assigned : List NodeId) :
    (s.inGraph g).checkAssignments ids assigned = s.checkAssignments ids assigned := by
  induction ids generalizing assigned with
  | nil => rfl
  | cons id rest ih =>
      obtain ⟨hid, hrest⟩ := List.forall_mem_cons.mp hids
      obtain ⟨n, hn, hin⟩ := h.node_of_mem hid
      have hn' : (s.inGraph g).graph.node? id = some n := h.grows id n hn
      rw [checkAssignments, checkAssignments, Graph.node_eq_ok_iff.mpr hn,
        Graph.node_eq_ok_iff.mpr hn', Except.ok_bind, Except.ok_bind]
      simp only [checkReads_inGraph h.grows hin, ih hrest]

theorem Stays.check_eq : (s.inGraph g).check = s.check := by
  have hbinding : s.order.forM (s.inGraph g).checkBinding = s.order.forM s.checkBinding :=
    Except.forM_congr fun _ => h.checkBinding_eq
  have hassignments := h.checkAssignments_eq (fun _ hid => hid) []
  show (s.checkOutputs >>= fun _ => s.checkPresence >>= fun _ => s.checkDistinct >>= fun _ =>
    s.order.forM (s.inGraph g).checkBinding >>= fun _ =>
      (s.inGraph g).checkAssignments s.order []) = _
  rw [hbinding, hassignments]
  rfl

/-! ### Drafts -/

/-- New readers are not in the order, and so do not count. -/
theorem Stays.neededAfter_eq : (s.inGraph g).neededAfter = s.neededAfter := by
  funext position id
  rw [Bool.eq_iff_iff, neededAfter_iff, neededAfter_iff]
  refine or_congr_right (exists_congr fun reader => exists_congr fun q => ?_)
  refine and_congr_right fun hget => ?_
  have hreader : reader ∈ s.order := List.mem_of_getElem? hget
  rw [h.runsLast_eq hreader]
  show id ∈ g.inputsOf reader ∧ _ ↔ _
  rw [h.grows.inputsOf_eq (h.known reader hreader)]

theorem Stays.isFree_eq (d : Draft) : d.isFree (s.inGraph g) = d.isFree s := by
  funext position buffer
  rw [Draft.isFree, Draft.isFree, h.neededAfter_eq]

theorem Stays.mayOverwrite_eq (d : Draft) : d.mayOverwrite (s.inGraph g) = d.mayOverwrite s := by
  funext position n place
  rw [Draft.mayOverwrite, Draft.mayOverwrite, h.isFree_eq]

theorem Stays.overwritten?_eq (d : Draft) (position : Nat) (n : Node α) (inputs : List NodeId) :
    d.overwritten? (s.inGraph g) position n inputs = d.overwritten? s position n inputs := by
  induction inputs with
  | nil => rfl
  | cons input rest ih =>
      rw [Draft.overwritten?, Draft.overwritten?, h.mayOverwrite_eq, ih]

theorem Stays.originOf_eq (d : Draft) (overwriting : Bool) (position : Nat) (n : Node α) :
    d.originOf (s.inGraph g) overwriting position n = d.originOf s overwriting position n := by
  rw [Draft.originOf, Draft.originOf]
  simp only [h.overwritten?_eq]

theorem Stays.place_eq (overwriting : Bool) (d : Draft) {position : Nat} (hid : id ∈ s.order) :
    d.place (s.inGraph g) overwriting (id, position) = d.place s overwriting (id, position) := by
  show (g.node id >>= _) = _
  rw [h.grows.node_eq (h.known id hid)]
  simp only [h.originOf_eq]
  rfl

/-! ### Plans -/

/-- The same plan, or the same error. -/
theorem Stays.plan_eq (overwriting : Bool) :
    (s.inGraph g).plan overwriting = s.plan overwriting := by
  have hdraft : s.order.zipIdx.foldlM (Draft.place (s.inGraph g) overwriting) .empty
      = s.order.zipIdx.foldlM (Draft.place s overwriting) .empty := by
    refine Except.foldlM_congr ?_ _
    rintro d ⟨id, position⟩ hmem
    exact h.place_eq overwriting d (List.mem_of_getElem? (List.mk_mem_zipIdx_iff_getElem?.mp hmem))
  rw [plan, plan, h.check_eq]
  show (s.check >>= fun _ => s.order.zipIdx.foldlM (Draft.place (s.inGraph g) overwriting) .empty
    >>= _) = _
  rw [hdraft]
  rfl

end Stays
end Slice

/-! ## Binding -/

/-- A listing names no nodes of the graph but the parameters. -/
theorem Listing.render_congr {p : Plan} {steps : List (Step α)} {g h : Graph α}
    (hsame : ∀ id ∈ p.parameters, nodeText h id = nodeText g id) :
    render p steps h = render p steps g := by
  have hcompute : computeAll p steps h = computeAll p steps g := by
    simp only [computeAll, List.map_congr_left hsame]
    refine congrArg (fun inputs => Entry.mk _ _ (inputs ++ _ ++ _)) (List.map_congr_left ?_)
    rintro ⟨id, place⟩ hmem
    obtain ⟨parameter, hid, hplace⟩ := List.mem_filterMap.mp hmem
    obtain ⟨q, _, heq⟩ := Option.map_eq_some_iff.mp hplace
    obtain rfl : parameter = id := congrArg Prod.fst heq
    show s!"{placeText p place} <- {nodeText h parameter}" = _
    rw [hsame parameter hid]
  rw [render, render, entries, entries, hcompute]

section Bind

variable [Element α] {s : Slice α} {p : Plan} {g : Graph α} (hp : s.Planned p)

include hp

/-- The node that a buffer was opened for is in the order. -/
theorem Slice.Planned.buffer_node_mem {b : Buffer} (hb : b ∈ p.buffers.toList) :
    b.node ∈ s.order := by
  obtain ⟨i, hi, hbi⟩ := Array.getElem_of_mem (Array.mem_toList_iff.mp hb)
  obtain rfl : p.buffer i = b := by simpa [Plan.buffer, hi] using hbi
  obtain ⟨_, _, hplace, _⟩ := hp.home hi
  exact (hp.inside _ _ hplace).1

/-- Steps, initial values and the listing are the same. -/
theorem Slice.Planned.bind_eq (hgrows : s.graph.Grows g) (seed : UInt64) :
    Computation.bind g p seed = Computation.bind s.graph p seed := by
  have hknown : ∀ id ∈ s.order, id.index < s.graph.size := by
    intro id hid
    obtain ⟨n, hn⟩ := hp.ordered.known id hid
    exact Graph.node?_lt hn
  have hsteps : p.steps.mapM (Computation.bindStep g p)
      = p.steps.mapM (Computation.bindStep s.graph p) := by
    refine Except.mapM_congr ?_
    intro id hid
    have hmem : id ∈ s.order := by
      rw [hp.steps_eq, List.mem_append] at hid
      exact hid.elim List.mem_of_mem_filter List.mem_of_mem_filter
    rw [Computation.bindStep, Computation.bindStep, hgrows.node_eq (hknown id hmem)]
  have hpresets : (p.buffers.toList.filter (·.role.populated)).mapM (Computation.bindPreset g p)
      = (p.buffers.toList.filter (·.role.populated)).mapM
          (Computation.bindPreset s.graph p) := by
    refine Except.mapM_congr ?_
    intro b hb
    have hmem := hp.buffer_node_mem (List.mem_of_mem_filter hb)
    rw [Computation.bindPreset, Computation.bindPreset, hgrows.node_eq (hknown _ hmem)]
  have hlisting : ∀ steps, Listing.render p steps g = Listing.render p steps s.graph := by
    intro steps
    refine Listing.render_congr ?_
    intro id hid
    have hmem := hp.checked.parameters_mem id (hp.parameters_eq ▸ hid)
    rw [Listing.nodeText, Listing.nodeText, hgrows.node?_eq (hknown id hmem)]
  simp only [Computation.bind, hsteps, hpresets, hlisting]

end Bind

/-! ## Compiling again -/

namespace Engine

variable [Element α]

/-- What compiling handles again has to do with compiling them before, when the graphs have
grown from `w` to `w'` in between. -/
structure Recompiles (config : EngineConfig) (w w' : Workspace α)
    (outputs parameters : List Handle) : Prop where
  /-- The same order, or the same error. -/
  order_eq : (sliceOf w' outputs parameters).map (·.order)
    = (sliceOf w outputs parameters).map (·.order)
  /-- The same plan, or the same error. -/
  plan_eq : (sliceOf w' outputs parameters >>= (·.plan config.overwriting))
    = (sliceOf w outputs parameters >>= (·.plan config.overwriting))
  /-- The same computation with its steps, initial values and listing, or the same error. -/
  prepare_eq : prepare config w' outputs parameters = prepare config w outputs parameters
  /-- An engine cannot tell on any device which of the two it compiles. -/
  compile_eq : ∀ {δ : Type} [Device δ α] (e : Engine α) (device : δ), e.config = config →
    e.compile device w' outputs parameters = e.compile device w outputs parameters
  /-- Engines that have done other things before and share no device refuse both for the same
  reason, or compile both, and then constants and variables hold the same. -/
  initial_eq : ∀ (e e' : Engine α) (d d' : HostDevice α), e.config = config →
    e'.config = config → e'.closed = e.closed →
    (∃ error, (e.compile d w outputs parameters).2.2 = .error error ∧
      (e'.compile d' w' outputs parameters).2.2 = .error error) ∨
    ∃ i j c c', (e.compile d w outputs parameters).2.2 = .ok i ∧
      (e'.compile d' w' outputs parameters).2.2 = .ok j ∧
      (e.compile d w outputs parameters).1.computation? i = some c ∧
      (e'.compile d' w' outputs parameters).1.computation? j = some c' ∧ c'.bare = c.bare
  /-- From there on, the same calls see the same of both, whatever other computations are
  called on in between. -/
  seen_eq : ∀ (d d' : HostDevice α) (actions actions' : List (Action α)) (i j : Nat)
    (calls : List (Action α)),
    (Engine.new config).ownActions i d actions = .compile w outputs parameters :: calls →
    (Engine.new config).ownActions j d' actions' = .compile w' outputs parameters :: calls →
    (Engine.new config).seen j d' actions' = (Engine.new config).seen i d actions

/-- The answer to a compilation: the first thing that fails, or the next number. -/
theorem compile_answer {δ : Type} [Device δ α] (e : Engine α) (device : δ) (w : Workspace α)
    (outputs parameters : List Handle) :
    (e.compile device w outputs parameters).2.2 =
      if e.closed then .error (.released "transformer")
      else prepare e.config w outputs parameters >>= fun c => (c.allocate device).2.2 >>= fun _ =>
        (c.allocate device).1.populate.2 >>= fun _ => .ok e.computations.size := by
  rw [compile]
  split
  · rfl
  · cases prepare e.config w outputs parameters with
    | error error => rfl
    | ok c =>
        rw [Except.ok_bind]
        dsimp only
        rcases c.allocate device with ⟨c₁, device₁, error | _⟩
        · rfl
        · rw [Except.ok_bind]
          dsimp only
          rcases c₁.populate with ⟨c₂, error | _⟩
          · rfl
          · rfl

/-- Engines of one configuration compile the same on devices that hold different memory. -/
theorem compile_alike {e e' : Engine α} (d d' : HostDevice α) (hconfig : e'.config = e.config)
    (hclosed : e'.closed = e.closed) (w : Workspace α) (outputs parameters : List Handle) :
    (∃ error, (e.compile d w outputs parameters).2.2 = .error error ∧
      (e'.compile d' w outputs parameters).2.2 = .error error) ∨
    ∃ i j c c', (e.compile d w outputs parameters).2.2 = .ok i ∧
      (e'.compile d' w outputs parameters).2.2 = .ok j ∧
      (e.compile d w outputs parameters).1.computation? i = some c ∧
      (e'.compile d' w outputs parameters).1.computation? j = some c' ∧ c'.bare = c.bare := by
  have hanswer := e.compile_answer d w outputs parameters
  have hanswer' := e'.compile_answer d' w outputs parameters
  rw [hclosed, hconfig] at hanswer'
  cases hopen : e.closed with
  | true =>
      rw [hopen, if_pos rfl] at hanswer hanswer'
      exact .inl ⟨_, hanswer, hanswer'⟩
  | false =>
      rw [hopen, if_neg Bool.false_ne_true] at hanswer hanswer'
      cases hprepare : prepare e.config w outputs parameters with
      | error error =>
          rw [hprepare] at hanswer hanswer'
          exact .inl ⟨error, hanswer, hanswer'⟩
      | ok c =>
          obtain ⟨hallocate', hattached⟩ := c.allocate_bare d' d
          obtain ⟨hpopulate', hpopulated⟩ := Computation.populate_alike hattached
          rw [hprepare, Except.ok_bind] at hanswer hanswer'
          rw [hallocate', hpopulate'] at hanswer'
          cases hallocate : (c.allocate d).2.2 with
          | error error =>
              rw [hallocate] at hanswer hanswer'
              exact .inl ⟨error, hanswer, hanswer'⟩
          | ok _ =>
              cases hpopulate : (c.allocate d).1.populate.2 with
              | error error =>
                  rw [hallocate, hpopulate] at hanswer hanswer'
                  exact .inl ⟨error, hanswer, hanswer'⟩
              | ok _ =>
                  have heq := compile_eq hopen hprepare hallocate hpopulate
                  have heq' := compile_eq (hclosed.trans hopen) (hconfig ▸ hprepare)
                    (hallocate'.trans hallocate) (hpopulate'.trans hpopulate)
                  refine .inr ⟨_, _, _, _, congrArg (·.2.2) heq, congrArg (·.2.2) heq', ?_, ?_,
                    hpopulated⟩
                  · simp [heq, computation?]
                  · simp [heq', computation?]

/-- What handles are resolved to, before and after the graphs have grown. -/
theorem sliceOf_grown {s s' : Session α} (h : s.Lawful) (hgrows : s.Grows s')
    {outputs parameters : List Handle} (hissued : ∀ x ∈ outputs ++ parameters, x ∈ s.handles) :
    (∃ e, sliceOf s.workspace outputs parameters = .error e ∧
      sliceOf s'.workspace outputs parameters = .error e) ∨
    ∃ t g, sliceOf s.workspace outputs parameters = .ok t ∧
      sliceOf s'.workspace outputs parameters = .ok (t.inGraph g) ∧ t.Stays g ∧ t.Ordered := by
  cases outputs with
  | nil => exact .inl ⟨_, rfl, rfl⟩
  | cons first rest =>
      rw [sliceOf, sliceOf]
      by_cases hall : ((first :: rest) ++ parameters).all (·.graph = first.graph) = true
      · rw [if_pos hall, if_pos hall]
        have hbuilt := h.built.built_graph first.graph
        have hgraph : (s.workspace.graph first.graph).Grows (s'.workspace.graph first.graph) :=
          hgrows.nodes first.graph
        have hin : ∀ id ∈ (first :: rest).map (·.node) ++ parameters.map (·.node),
            id.index < (s.workspace.graph first.graph).size := by
          intro id hid
          rw [← List.map_append] at hid
          obtain ⟨x, hx, rfl⟩ := List.mem_map.mp hid
          obtain ⟨_, n, hn, _⟩ := h.handles x (hissued x hx)
          rw [of_decide_eq_true (List.all_eq_true.mp hall x hx)] at hn
          exact Graph.node?_lt hn
        obtain ⟨t, ht, _⟩ := Slice.exists_ofRoots hin
        obtain ⟨hg, _, _, hordered⟩ := Slice.ofRoots_eq_ok hbuilt ht
        refine .inr ⟨t, s'.workspace.graph first.graph, ht, ?_, ⟨?_, ?_, ?_⟩, hordered⟩
        · rw [Slice.ofRoots, hgraph.dependencies_eq hbuilt hin]
          obtain ⟨order, horder, ht⟩ := Except.bind_eq_ok.mp ht
          cases ht
          rw [horder]
          rfl
        · rw [hg]
          exact hbuilt
        · intro id hid
          obtain ⟨n, hn⟩ := hordered.known id hid
          exact Graph.node?_lt hn
        · rw [hg]
          exact hgraph
      · rw [if_neg hall, if_neg hall]
        exact .inl ⟨_, rfl, rfl⟩

/-- Handles that were issued are compiled as before, or refused as before. -/
theorem prepare_grown {s s' : Session α} (h : s.Lawful) (hgrows : s.Grows s')
    {outputs parameters : List Handle} (hissued : ∀ x ∈ outputs ++ parameters, x ∈ s.handles)
    (config : EngineConfig) :
    prepare config s'.workspace outputs parameters
      = prepare config s.workspace outputs parameters := by
  rw [prepare, prepare]
  rcases sliceOf_grown h hgrows hissued with ⟨e, he, he'⟩ | ⟨t, g, ht, ht', hstays, hordered⟩
  · rw [he, he']
  · rw [ht, ht', Except.ok_bind, Except.ok_bind, hstays.plan_eq]
    cases hplan : t.plan config.overwriting with
    | error e => rfl
    | ok p =>
        rw [Except.ok_bind, Except.ok_bind]
        exact (Slice.plan_eq_ok hordered hstays.built hplan).bind_eq hstays.grows config.seed

/-- What is seen on a computation that is alone begins with its compilation. -/
theorem seen_compile_congr {e : Engine α} {d : HostDevice α} {w w' : Workspace α}
    {outputs parameters : List Handle}
    (h : e.compile d w' outputs parameters = e.compile d w outputs parameters) (i : Nat)
    (calls : List (Action α)) :
    e.seen i d (.compile w' outputs parameters :: calls)
      = e.seen i d (.compile w outputs parameters :: calls) := by
  have hact : e.act d (.compile w' outputs parameters)
      = e.act d (.compile w outputs parameters) := by rw [act, act, h]
  rw [seen, seen, hact]
  by_cases hown : (e.computation? i).isNone = true ∧
      ((e.act d (.compile w outputs parameters)).1.computation? i).isSome = true
  · simp only [own, if_pos hown]
  · simp only [own, if_neg hown]

theorem recompiles_of_grows {s s' : Session α} (h : s.Lawful) (hgrows : s.Grows s')
    {outputs parameters : List Handle} (hissued : ∀ x ∈ outputs ++ parameters, x ∈ s.handles)
    (config : EngineConfig) :
    Recompiles config s.workspace s'.workspace outputs parameters := by
  have hprepare := prepare_grown h hgrows hissued config
  have hcompile : ∀ {δ : Type} [Device δ α] (e : Engine α) (device : δ), e.config = config →
      e.compile device s'.workspace outputs parameters
        = e.compile device s.workspace outputs parameters := by
    rintro δ _ e device rfl
    rw [compile, compile, hprepare]
  refine ⟨?_, ?_, hprepare, hcompile, ?_, ?_⟩
  · rcases sliceOf_grown h hgrows hissued with ⟨e, he, he'⟩ | ⟨t, g, ht, ht', _, _⟩
    · rw [he, he']
    · rw [ht, ht']
      rfl
  · rcases sliceOf_grown h hgrows hissued with ⟨e, he, he'⟩ | ⟨t, g, ht, ht', hstays, _⟩
    · rw [he, he']
    · rw [ht, ht', Except.ok_bind, Except.ok_bind, hstays.plan_eq]
  · intro e e' d d' hconfig hconfig' hclosed
    rw [hcompile e' d' hconfig']
    exact compile_alike d d' (hconfig'.trans hconfig.symm) hclosed s.workspace outputs parameters
  · intro d d' actions actions' i j calls hown hown'
    rw [(alike_new config j).seen_eq d' .plain, (alike_new config i).seen_eq d .plain, hown, hown']
    exact seen_compile_congr (hcompile _ _ rfl) 0 calls

end Engine

namespace Session

/-- Handles that were issued by some moves are compiled the same way before and after any
further moves, which may read the nodes that are compiled and assign their variables. -/
theorem recompile [Element α] (before later : List (Move α)) (config : EngineConfig)
    (outputs parameters : List Handle) (hpermits : start.permitsAll before = true)
    (hissued : ∀ x ∈ outputs ++ parameters, x ∈ (start.after before).handles) :
    Engine.Recompiles config (start.after before).workspace
      ((start.after before).after later).workspace outputs parameters :=
  Engine.recompiles_of_grows (lawful_start.after hpermits) (grows_after _ later) hissued config

/-- A node of the only graph. -/
def vector (i : Nat) : Handle := ⟨0, ⟨i⟩, .packed .u8 ⟨[2]⟩⟩

/-- An input is added to a variable. -/
def addition : List (Move UInt8) :=
  [.graph, .request (.placeholder 0 ⟨[2]⟩), .request (.persistent 0 ⟨[2]⟩ (.fill 1)),
    .request (.binary .add (vector 0) (vector 1))]

/-- The sum is read by a node that is new, and becomes the value of the variable. -/
def accumulation : List (Move UInt8) :=
  [.request (.binary .multiply (vector 2) (vector 1)), .request (.assign (vector 1) (vector 2))]

/-- The sum is what it was in a graph of three nodes, when there are five. -/
theorem recompile_sum :
    (((start.after addition).after accumulation).workspace.graph 0).size = 5 ∧
    (Engine.sliceOf ((start.after addition).after accumulation).workspace [vector 2] [vector 0]).map
      (·.order) = .ok [⟨0⟩, ⟨1⟩, ⟨2⟩] ∧
    Engine.prepare default ((start.after addition).after accumulation).workspace
        [vector 2] [vector 0]
      = Engine.prepare default (start.after addition).workspace [vector 2] [vector 0] := by
  have h := recompile addition accumulation default [vector 2] [vector 0] (by decide +kernel)
    (by decide +kernel)
  refine ⟨by decide +kernel, ?_, h.prepare_eq⟩
  rw [h.order_eq]
  cbv

end Session
end TensorGraph
