/-
# Names

Nodes, buffers, steps and the entries of a listing have names, and a buffer is found by its
name.  A custom operator may be called anything, also like another node; yet names keep
everything apart.

| what | is named | different, because |
| :-- | :-- | :-- |
| node | after its operation, then its number | nothing but digits follows the last underscore |
| buffer | like the node that it was opened for | a node has one place in the order |
| step | `compute_` and its node | the same |
| entry of a listing | `alloc_`, `update_` and a buffer; like its step | kinds of entries begin differently |

The second and third line are all that is asked of the order: one that lists a node twice may
have two buffers of one name.
-/
import TensorGraph.Proofs.Compilation

namespace TensorGraph

variable {α : Type}

/-! ## Nodes -/

/-- What follows the last place of `x` in a list. -/
theorem List.eq_of_append_cons_eq {β : Type} {x : β} {xs ys zs ws : List β} (hy : x ∉ ys)
    (hw : x ∉ ws) (h : xs ++ x :: ys = zs ++ x :: ws) : ys = ws := by
  -- if the two places differ, one of the rests contains `x`
  rcases List.append_eq_append_iff.mp h with ⟨k, _, hk⟩ | ⟨k, _, hk⟩
  · cases k with
    | nil => exact (List.cons.inj hk).2
    | cons _ k => exact absurd ((List.cons.inj hk).2 ▸ by simp) hy
  · cases k with
    | nil => exact (List.cons.inj hk).2.symm
    | cons _ k => exact absurd ((List.cons.inj hk).2 ▸ by simp) hw

theorem toList_toString (k : Nat) : (toString k).toList = Nat.toDigits 10 k := by
  rw [Nat.toString_eq_ofList_toDigits, String.toList_ofList]

/-- A name ends with the number of its node, whatever the stem is. -/
theorem Node.id_eq_of_name_eq {n n' : Node α} (h : n.name = n'.name) : n.id = n'.id := by
  have hdigits (k : Nat) : '_' ∉ Nat.toDigits 10 k := fun hmem =>
    absurd (Nat.isDigit_of_mem_toDigits (by decide) (by decide) hmem) (by decide)
  have hlist := congrArg String.toList h
  simp only [name, String.toList_append, List.append_assoc, toList_toString] at hlist
  have hrest := List.eq_of_append_cons_eq (hdigits _) (hdigits _) hlist
  have hindex : n.id.index = n'.id.index := by
    rw [← Nat.ofDigitChars_ten_toDigits (n := n.id.index), hrest, Nat.ofDigitChars_ten_toDigits]
  cases hn : n.id
  cases hn' : n'.id
  rw [hn, hn'] at hindex
  exact congrArg NodeId.mk hindex

section Nodes

variable [Element α] {g : Graph α} (hg : g.Built)

include hg

/-- Nodes of a graph that are called the same are the same. -/
theorem Graph.Built.eq_of_name_eq {id id' : NodeId} {n n' : Node α} (hn : g.node? id = some n)
    (hn' : g.node? id' = some n') (h : n.name = n'.name) : id = id' := by
  rw [← (hg.sound hn).id_eq, ← (hg.sound hn').id_eq]
  exact Node.id_eq_of_name_eq h

theorem Graph.Built.nodup_names {ids : List NodeId} (hnodup : ids.Nodup)
    (hknown : ∀ id ∈ ids, ∃ n, g.node? id = some n) : (ids.map (Listing.nodeText g)).Nodup := by
  refine hnodup.map_on fun id hid id' hid' heq => ?_
  obtain ⟨n, hn⟩ := hknown id hid
  obtain ⟨n', hn'⟩ := hknown id' hid'
  rw [Listing.nodeText, Listing.nodeText, hn, hn'] at heq
  exact hg.eq_of_name_eq hn hn' heq

end Nodes

/-! ## Drafts -/

theorem List.nodup_of_subperm {β : Type} {xs ys : List β} (h : xs.Subperm ys) (hy : ys.Nodup) :
    xs.Nodup := by
  obtain ⟨zs, hperm, hsub⟩ := h
  exact hperm.nodup_iff.mp (hsub.nodup hy)

namespace Draft

/-- What has been given a name in a draft: buffers and steps belong to different nodes of
`before` each, and buffers are named after theirs. -/
structure Named (g : Graph α) (before : List NodeId) (d : Draft) : Prop where
  buffers : (d.buffers.toList.map (·.node)).Subperm before
  name_eq : ∀ b ∈ d.buffers.toList, ∃ n, g.node? b.node = some n ∧ b.name = n.name
  steps : (d.steps ++ d.updates).Subperm before

theorem named_empty (g : Graph α) : empty.Named g [] :=
  ⟨.refl _, nofun, .refl _⟩

/-- A node gets one step at most. -/
theorem schedule_steps (d : Draft) (id : NodeId) (op : Operation α) (origin : Origin) :
    ∃ added : List NodeId, added.Sublist [id] ∧
      ((d.schedule id op origin).steps ++ (d.schedule id op origin).updates).Perm
        (d.steps ++ d.updates ++ added) := by
  cases hassign : op.isAssignment with
  | true =>
      refine ⟨[id], .refl _, ?_⟩
      simp [schedule, hassign]
  | false =>
      have hpush : (d.steps ++ [id] ++ d.updates).Perm (d.steps ++ d.updates ++ [id]) := by
        rw [List.append_assoc, List.append_assoc]
        exact List.perm_append_comm.append_left _
      cases origin with
      | fresh =>
          cases hsource : op.isSource with
          | true => exact ⟨[], List.nil_sublist _, by simp [schedule, hassign, hsource]⟩
          | false => exact ⟨[id], .refl _, by simpa [schedule, hassign, hsource] using hpush⟩
      | shared place => exact ⟨[], List.nil_sublist _, by simp [schedule, hassign]⟩
      | «over» input place => exact ⟨[id], .refl _, by simpa [schedule, hassign] using hpush⟩

theorem schedule_buffers (d : Draft) (id : NodeId) (op : Operation α) (origin : Origin) :
    (d.schedule id op origin).buffers = d.buffers := by
  unfold schedule
  split
  · rfl
  · rfl
  · rfl
  · split <;> rfl

section Place

variable {s : Slice α} {overwriting : Bool} {id : NodeId} {position : Nat} {d d' : Draft}

/-- A node that is placed gets one buffer at most, and one step at most. -/
theorem place_adds (h : d.place s overwriting (id, position) = .ok d') :
    ∃ n, s.graph.node? id = some n ∧
      (∃ fresh : List Buffer, fresh.Sublist [opened n] ∧
        d'.buffers.toList = d.buffers.toList ++ fresh) ∧
      ∃ added : List NodeId, added.Sublist [id] ∧
        (d'.steps ++ d'.updates).Perm (d.steps ++ d.updates ++ added) := by
  obtain ⟨n, hn, h⟩ := Except.bind_eq_ok.mp h
  obtain ⟨origin, _, h⟩ := Except.bind_eq_ok.mp h
  refine ⟨n, Graph.node_eq_ok_iff.mp hn, ?_⟩
  cases origin with
  | fresh =>
      obtain ⟨⟨d₁, q⟩, hopen, h⟩ := Except.bind_eq_ok.mp h
      cases h
      obtain ⟨_, hopen⟩ := Except.ite_error_eq_ok.mp hopen
      cases hopen
      refine ⟨⟨[opened n], .refl _, ?_⟩, schedule_steps _ id n.op .fresh⟩
      simp [settle, schedule_buffers, opened]
  | shared place =>
      cases h
      refine ⟨⟨[], List.nil_sublist _, ?_⟩, schedule_steps d id n.op (.shared place)⟩
      simp [settle, schedule_buffers]
  | «over» input place =>
      cases h
      refine ⟨⟨[], List.nil_sublist _, ?_⟩, schedule_steps d id n.op (.over input place)⟩
      simp [settle, schedule_buffers]

variable [Element α] (hg : s.graph.Built) {before : List NodeId}

include hg

theorem Named.place (hd : d.Named s.graph before)
    (h : d.place s overwriting (id, position) = .ok d') : d'.Named s.graph (before ++ [id]) := by
  obtain ⟨n, hn, ⟨fresh, hfresh, hbuffers⟩, added, hadded, hperm⟩ := place_adds h
  have hid : n.id = id := (hg.sound hn).id_eq
  have hnodes : (fresh.map (·.node)).Sublist [id] := hid ▸ hfresh.map (·.node)
  refine ⟨?_, fun b hb => ?_, hperm.subperm.trans (hd.steps.append hadded.subperm)⟩
  · rw [hbuffers, List.map_append]
    exact hd.buffers.append hnodes.subperm
  · rw [hbuffers] at hb
    rcases List.mem_append.mp hb with hb | hb
    · exact hd.name_eq b hb
    · cases List.mem_singleton.mp (hfresh.subset hb)
      exact ⟨n, (congrArg s.graph.node? hid).trans hn, rfl⟩

theorem Named.foldlM {entries : List (NodeId × Nat)} (hd : d.Named s.graph before)
    (h : entries.foldlM (Draft.place s overwriting) d = .ok d') :
    d'.Named s.graph (before ++ entries.map (·.1)) := by
  induction entries generalizing before d with
  | nil =>
      cases h
      simpa using hd
  | cons entry rest ih =>
      rw [List.foldlM_cons] at h
      obtain ⟨d₁, hd₁, h⟩ := Except.bind_eq_ok.mp h
      simpa using ih (hd.place hg hd₁) h

end Place

end Draft

/-! ## Plans -/

namespace Slice

variable [Element α] {s : Slice α} {overwriting : Bool} {p : Plan} (hg : s.graph.Built)
  (hplan : s.plan overwriting = .ok p)

include hg hplan

/-- The buffers and the steps of a plan belong to nodes of the order. -/
theorem named_of_plan : ∃ d : Draft, d.Named s.graph s.order ∧
    p.buffers.toList.map (·.name) = d.buffers.toList.map (·.name) ∧
    p.steps = d.steps ++ d.updates := by
  obtain ⟨_, _, h⟩ := Except.bind_eq_ok.mp hplan
  obtain ⟨d, hdraft, h⟩ := Except.bind_eq_ok.mp h
  obtain ⟨buffers, hsized, h⟩ := Except.bind_eq_ok.mp h
  cases h
  have hnamed := (Draft.named_empty s.graph).foldlM hg hdraft
  rw [List.nil_append, List.zipIdx_map_fst] at hnamed
  exact ⟨d, hnamed, Draft.map_sized (fun _ _ _ => rfl) hsized, rfl⟩

theorem nodup_steps (hnodup : s.order.Nodup) : p.steps.Nodup := by
  obtain ⟨d, hnamed, _, hsteps⟩ := named_of_plan hg hplan
  exact hsteps ▸ List.nodup_of_subperm hnamed.steps hnodup

theorem nodup_buffer_names (hnodup : s.order.Nodup) : (p.buffers.toList.map (·.name)).Nodup := by
  obtain ⟨d, hnamed, hnames, _⟩ := named_of_plan hg hplan
  have hnodes : (d.buffers.toList.map (·.node)).Nodup :=
    List.nodup_of_subperm hnamed.buffers hnodup
  have hcalled : d.buffers.toList.map (·.name)
      = (d.buffers.toList.map (·.node)).map (Listing.nodeText s.graph) := by
    rw [List.map_map]
    refine List.map_congr_left fun b hb => ?_
    obtain ⟨n, hn, hname⟩ := hnamed.name_eq b hb
    rw [Function.comp, Listing.nodeText, hn, hname]
    rfl
  rw [hnames, hcalled]
  refine hg.nodup_names hnodes fun id hid => ?_
  obtain ⟨b, hb, rfl⟩ := List.mem_map.mp hid
  obtain ⟨n, hn, _⟩ := hnamed.name_eq b hb
  exact ⟨n, hn⟩

end Slice

/-! ## Headings of a listing -/

namespace Listing

/-- The line that opens an entry of the given name. -/
def opening (name : String) (arguments : List String) : String :=
  "def " ++ name ++ "(" ++ Text.commaSeparated arguments ++ "):"

/-- The line that opens the entry. -/
def Entry.header (e : Entry) : String := opening e.name e.arguments

theorem Entry.text_eq (e : Entry) :
    e.text = e.header ++ "\n" ++ String.join (e.body.map fun line => s!"    {line}\n") := by
  have hend : ("):\n" : String) = "):" ++ "\n" := rfl
  simp only [text, header, opening, toString, hend, String.append_assoc]

/-- What stands between texts may as well open each of them but the first. -/
theorem intercalate_cons (separator first : String) (rest : List String) :
    separator.intercalate (first :: rest)
      = first ++ String.join (rest.map (separator ++ ·)) := by
  induction rest generalizing first with
  | nil => simp
  | cons next rest ih =>
      rw [String.intercalate_cons_cons, ih, List.map_cons, String.join_cons]
      simp only [String.append_assoc]

/-- The text of a listing: its totals on a line, then its entries in order, each of them an
empty line, its header and its body. -/
theorem render_eq (p : Plan) (steps : List (Step α)) (g : Graph α) :
    render p steps g
      = s!"# {p.buffers.size} buffers, {p.totalBytes} bytes, {steps.length} steps\n" ++
        String.join ((entries p steps g).map fun e => "\n" ++ (e.header ++ "\n" ++
          String.join (e.body.map fun line => s!"    {line}\n"))) := by
  simp only [render, intercalate_cons, List.map_map]
  congr 2
  exact List.map_congr_left fun e _ => congrArg ("\n" ++ ·) e.text_eq

/-- What an entry is about. -/
inductive Heading where
  | allocateBuffer (buffer : String)
  | updateBuffer (buffer : String)
  | step (node : String)
  | allocateAll
  | populateAll
  | computeAll

namespace Heading

def name : Heading → String
  | allocateBuffer buffer => "alloc_" ++ buffer
  | updateBuffer buffer => "update_" ++ buffer
  | step node => "compute_" ++ node
  | allocateAll => "allocate"
  | populateAll => "init"
  | computeAll => "compute"

/-- The arguments of the entry, where a run has the given parameters. -/
def arguments (parameters : List String) : Heading → List String
  | updateBuffer _ => ["storage"]
  | computeAll => parameters
  | _ => []

theorem name_injective : Function.Injective name := by
  intro h h' heq
  have hlist := congrArg String.toList heq
  cases h <;> cases h'
  case allocateBuffer.allocateBuffer =>
    exact congrArg allocateBuffer ((String.append_right_inj _).mp heq)
  case updateBuffer.updateBuffer =>
    exact congrArg updateBuffer ((String.append_right_inj _).mp heq)
  case step.step => exact congrArg step ((String.append_right_inj _).mp heq)
  -- any two others differ within the first eight letters
  all_goals simp [name] at hlist ⊢

/-- Names may hold brackets, so that a line does not say where the name ends; but it begins
with all that matters. -/
theorem opening_injective (parameters : List String) :
    Function.Injective fun h => opening (name h) (arguments parameters h) := by
  intro h h' heq
  have hlist := congrArg String.toList heq
  cases h <;> cases h'
  case allocateBuffer.allocateBuffer | updateBuffer.updateBuffer | step.step =>
    simpa [opening, name, arguments, String.append_right_inj, String.append_left_inj] using heq
  all_goals simp [opening, name, arguments] at hlist ⊢

end Heading

/-- What the entries of a listing are about, for steps of the named nodes. -/
def headings (p : Plan) (nodes : List String) : List Heading :=
  p.buffers.toList.flatMap (fun b => [.allocateBuffer b.name, .updateBuffer b.name])
    ++ nodes.map .step ++ [.allocateAll, .populateAll, .computeAll]

theorem nodup_headings {p : Plan} {nodes : List String}
    (hbuffers : (p.buffers.toList.map (·.name)).Nodup) (hnodes : nodes.Nodup) :
    (headings p nodes).Nodup := by
  have hopened : (p.buffers.toList.flatMap fun b =>
      [Heading.allocateBuffer b.name, .updateBuffer b.name]).Nodup := by
    refine List.nodup_flatMap.mpr ⟨fun b _ => by simp, ?_⟩
    refine (List.pairwise_map.mp hbuffers).imp fun hne => ?_
    simp [Function.onFun, hne.symm]
  have hsteps : (nodes.map Heading.step).Nodup := hnodes.map fun _ _ h => Heading.step.inj h
  refine List.nodup_append'.mpr ⟨List.nodup_append'.mpr ⟨hopened, hsteps, ?_⟩, by simp, ?_⟩
  · simp +contextual [List.disjoint_right]
  · simp [List.disjoint_right]

section Entries

variable {p : Plan} {steps : List (Step α)} {g : Graph α} {nodes : List String}
  (hsteps : steps.map (·.name) = nodes.map ("compute_" ++ ·))

include hsteps

/-- Every entry has the name and the arguments that go with what it is about. -/
theorem map_entries : (entries p steps g).map (fun e => (e.name, e.arguments))
    = (headings p nodes).map fun h => (h.name, h.arguments (p.parameters.map (nodeText g))) := by
  have hentries : entries p steps g = p.buffers.toList.zipIdx.flatMap (fun slot =>
      [allocateBuffer slot.1 slot.2, updateBuffer slot.1 slot.2]) ++
        steps.map (stepEntry p) ++ [allocateAll p, populateAll p, computeAll p steps g] := rfl
  have hbuffers : (p.buffers.toList.zipIdx.flatMap fun slot =>
      [allocateBuffer slot.1 slot.2, updateBuffer slot.1 slot.2]).map
        (fun e => (e.name, e.arguments))
      = p.buffers.toList.flatMap fun b =>
        [("alloc_" ++ b.name, []), ("update_" ++ b.name, ["storage"])] := by
    conv => rhs; rw [← List.zipIdx_map_fst 0 p.buffers.toList]
    simp only [List.map_flatMap, List.flatMap_map]
    rfl
  have hrun : (steps.map (stepEntry p)).map (fun e => (e.name, e.arguments))
      = nodes.map fun n => ("compute_" ++ n, []) := by
    have := congrArg (List.map fun name => (name, ([] : List String))) hsteps
    simpa [Function.comp_def, stepEntry] using this
  rw [hentries, headings]
  simp only [List.map_append, hbuffers, hrun, List.map_flatMap, List.map_map]
  rfl

theorem map_name_entries :
    (entries p steps g).map (·.name) = (headings p nodes).map Heading.name := by
  simpa [Function.comp_def] using congrArg (List.map Prod.fst) (map_entries (g := g) hsteps)

theorem map_header_entries : (entries p steps g).map (·.header) = (headings p nodes).map fun h =>
    opening h.name (h.arguments (p.parameters.map (nodeText g))) := by
  simpa [Function.comp_def, Entry.header] using
    congrArg (List.map fun e => opening e.1 e.2) (map_entries (g := g) hsteps)

end Entries
end Listing

/-! ## Computations -/

/-- The steps of a computation are named after their nodes. -/
theorem Computation.map_name_steps {g : Graph α} {p : Plan} {steps : List (Step α)}
    (h : p.steps.mapM (bindStep g p) = .ok steps) :
    steps.map (·.name) = (p.steps.map (Listing.nodeText g)).map ("compute_" ++ ·) := by
  have hsame : List.Forall₂ (fun id (s : Step α) => "compute_" ++ Listing.nodeText g id = s.name)
      p.steps steps := by
    refine (Except.mapM_eq_ok.mp h).imp fun id s hs => ?_
    obtain ⟨n, hn, hs⟩ := Except.bind_eq_ok.mp hs
    obtain ⟨_, _, hs⟩ := Except.bind_eq_ok.mp hs
    obtain ⟨_, _, hs⟩ := Except.bind_eq_ok.mp hs
    cases hs
    rw [Listing.nodeText, Graph.node_eq_ok_iff.mp hn]
    rfl
  rw [List.map_map]
  exact hsame.map_eq.symm

namespace Slice

variable [Element α] {s : Slice α} {overwriting : Bool} {p : Plan}

/-- Names identify nodes, whatever custom operators are called.  In a plan of an order that
lists no node twice, which is true of every order of computation, no two buffers have one
name; nor have two steps of its computation, nor two entries of its listing, which open with
different lines. -/
theorem names_identify (hbuilt : s.graph.Built) (hnodup : s.order.Nodup)
    (hplan : s.plan overwriting = .ok p) :
    (∀ id id' n n', s.graph.node? id = some n → s.graph.node? id' = some n' →
      n.name = n'.name → id = id') ∧
    (p.buffers.toList.map (·.name)).Nodup ∧
    ∀ seed c, Computation.bind s.graph p seed = .ok c →
      (c.steps.map (·.name)).Nodup ∧
      c.listing = Listing.render p c.steps s.graph ∧
      (∀ e ∈ Listing.entries p c.steps s.graph, ∃ body, e.text = e.header ++ "\n" ++ body) ∧
      ((Listing.entries p c.steps s.graph).map (·.name)).Nodup ∧
      ((Listing.entries p c.steps s.graph).map (·.header)).Nodup := by
  have hbuffers := nodup_buffer_names hbuilt hplan hnodup
  refine ⟨fun _ _ _ _ hn hn' => hbuilt.eq_of_name_eq hn hn', hbuffers, fun seed c hbind => ?_⟩
  obtain ⟨steps, hsteps, h⟩ := Except.bind_eq_ok.mp hbind
  obtain ⟨presets, _, h⟩ := Except.bind_eq_ok.mp h
  cases h
  have hnodes : (p.steps.map (Listing.nodeText s.graph)).Nodup := by
    refine hbuilt.nodup_names (nodup_steps hbuilt hplan hnodup) fun id hid => ?_
    obtain ⟨_, _, hst⟩ := Except.mem_of_mapM_eq_ok hsteps hid
    obtain ⟨n, hn, _⟩ := Except.bind_eq_ok.mp hst
    exact ⟨n, Graph.node_eq_ok_iff.mp hn⟩
  have hnames := Computation.map_name_steps hsteps
  have hheadings := Listing.nodup_headings hbuffers hnodes
  refine ⟨?_, rfl, fun e _ => ⟨_, e.text_eq⟩, ?_, ?_⟩
  · exact hnames ▸ hnodes.map fun _ _ h => (String.append_right_inj _).mp h
  · exact Listing.map_name_entries hnames ▸ hheadings.map Listing.Heading.name_injective
  · exact Listing.map_header_entries hnames ▸ hheadings.map (Listing.Heading.opening_injective _)

end Slice

namespace Specimen

/-- Operators that are called like the nodes that they read, number and all. -/
def masquerade : Specimen where
  operations := [.placeholder ⟨[2]⟩, .custom (.sum "placeholder") [⟨0⟩],
    .custom (.sum "placeholder_1") [⟨1⟩, ⟨0⟩], .custom (.sum "compute_placeholder") [⟨2⟩]]
  order := [⟨0⟩, ⟨1⟩, ⟨2⟩, ⟨3⟩]
  outputs := [⟨3⟩]
  parameters := [⟨0⟩]
  accepted := rfl
  roots := by cbv
  compiles := rfl
  faithful := by
    intro f xs hmem
    simp only [List.mem_cons, Operation.custom.injEq, reduceCtorEq, List.not_mem_nil, false_or,
      or_false] at hmem
    rcases hmem with ⟨rfl, _⟩ | ⟨rfl, _⟩ | ⟨rfl, _⟩
    all_goals exact CustomOperator.faithful_sum _

theorem masquerade_names : masquerade.slice.order.Nodup ∧
    masquerade.compiled.steps.map (·.name)
      = ["compute_placeholder_1", "compute_placeholder_1_2", "compute_compute_placeholder_3"] ∧
    ((Listing.entries masquerade.compiled.plan masquerade.compiled.steps
      masquerade.slice.graph).map (·.header)).Nodup := by
  have hplan : masquerade.slice.plan true = .ok masquerade.compiled.plan := by decide +kernel
  obtain ⟨p, hp, hbind⟩ := Except.bind_eq_ok.mp masquerade.slice_compiles.compiled
  cases hplan.symm.trans hp
  have hnodup : masquerade.slice.order.Nodup := by decide
  have hnames := Slice.names_identify masquerade.slice_compiles.built hnodup hplan
  exact ⟨hnodup, by decide +kernel, (hnames.2.2 0 _ hbind).2.2.2.2⟩

end Specimen
end TensorGraph
