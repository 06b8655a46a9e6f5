/-
# What nodes depend on

`Graph.Depends` is the question: which nodes can be reached from given outputs
along the edges from a reader to what it reads.  `Graph.dependencies` answers it
from a worklist on which a node stands once for every edge that leads to it, so
the length of the worklist says nothing about when the search ends.

A search is looked at round by round.  `Graph.Round` lets a round take any
waiting node, so nothing here hangs on the discipline of the worklist, and two
things are kept:

* `Search.Explored`: only what the outputs depend on is marked or waits, and no
  output and no input of a marked node has been dropped unmarked;
* `Search.potential`: the waiting nodes and the edges that leave unmarked nodes
  are together one less after every round.

The rest is about the slices that the answer makes up: every node is in the order
of its slice once, and after whatever it reads.
-/
import Mathlib.Data.List.Sort
import Mathlib.Logic.Relation
import TensorGraph.Element.Integer
import TensorGraph.Proofs.Graphs

namespace TensorGraph

namespace Graph

variable {α : Type} {g : Graph α} {outputs : List NodeId} {id x : NodeId}

/-! ## The nodes that outputs depend on -/

/-- The node is one of `outputs`, or they read it over one or more edges. -/
def Depends (g : Graph α) (outputs : List NodeId) (id : NodeId) : Prop :=
  ∃ output ∈ outputs,
    Relation.ReflTransGen (fun reader read => read ∈ g.inputsOf reader) output id

theorem Depends.output (h : id ∈ outputs) : g.Depends outputs id := ⟨id, h, .refl⟩

theorem Depends.input (h : g.Depends outputs id) (hx : x ∈ g.inputsOf id) :
    g.Depends outputs x := by
  obtain ⟨output, hout, hpath⟩ := h
  exact ⟨output, hout, hpath.tail hx⟩

/-- What holds of the outputs and is handed on to inputs holds of everything they depend on. -/
theorem Depends.of_closed {P : NodeId → Prop} (hout : ∀ id ∈ outputs, P id)
    (hin : ∀ id, P id → ∀ x ∈ g.inputsOf id, P x) (h : g.Depends outputs id) : P id := by
  obtain ⟨output, hmem, hpath⟩ := h
  induction hpath with
  | refl => exact hout output hmem
  | tail _ hedge ih => exact hin _ ih _ hedge

/-- A node that reads something is in the graph. -/
theorem lt_of_mem_inputsOf (h : x ∈ g.inputsOf id) : id.index < g.size := by
  cases hn : g.node? id with
  | none => simp [inputsOf, hn] at h
  | some n => exact node?_lt hn

theorem Built.input_lt [Element α] (hg : g.Built) (h : x ∈ g.inputsOf id) :
    x.index < id.index := by
  obtain ⟨n, hn⟩ := node?_of_lt (lt_of_mem_inputsOf h)
  exact (hg.sound hn).inputs_lt x (inputsOf_of_node? hn ▸ h)

theorem Built.depends_lt [Element α] (hg : g.Built) (hout : ∀ id ∈ outputs, id.index < g.size)
    (h : g.Depends outputs id) : id.index < g.size :=
  h.of_closed hout fun _ hid _ hx => Nat.lt_trans (hg.input_lt hx) hid

/-- The number of edges that leave the listed nodes. -/
def edgesFrom (g : Graph α) (ids : List NodeId) : Nat :=
  total (fun id => (g.inputsOf id).length) ids

theorem edgesFrom_perm {ids ids' : List NodeId} (h : ids.Perm ids') :
    g.edgesFrom ids = g.edgesFrom ids' :=
  total_perm h

theorem edgesFrom_append (ids ids' : List NodeId) :
    g.edgesFrom (ids ++ ids') = g.edgesFrom ids + g.edgesFrom ids' :=
  total_append _ ids ids'

theorem edgesFrom_cons (id : NodeId) (ids : List NodeId) :
    g.edgesFrom (id :: ids) = (g.inputsOf id).length + g.edgesFrom ids := rfl

end Graph

/-! ## Rounds of the search -/

/-- Where a search stands: a mark for every node, and the worklist. -/
structure Search where
  marked : Array Bool
  waiting : List NodeId

namespace Search

/-- The search for what `outputs` depend on before its first round. -/
def start {α : Type} (g : Graph α) (outputs : List NodeId) : Search :=
  ⟨Array.replicate g.size false, outputs⟩

/-- The node is there and has not been met. -/
def Fresh (s : Search) (id : NodeId) : Prop := s.marked[id.index]? = some false

/-- The marked nodes, ascending. -/
def found (s : Search) : List NodeId :=
  ((List.range s.marked.size).filter fun i => s.marked.getD i false).map NodeId.mk

/-- The nodes without a mark, ascending. -/
def missing (s : Search) : List NodeId :=
  ((List.range s.marked.size).filter fun i => !s.marked.getD i false).map NodeId.mk

variable {s : Search} {id : NodeId}

theorem mem_found : id ∈ s.found ↔ s.marked[id.index]? = some true := by
  simp only [found, List.mem_map, List.mem_filter, List.mem_range, Array.getD_eq_getD_getElem?]
  constructor
  · rintro ⟨i, ⟨hi, hm⟩, rfl⟩
    simpa [hi] using hm
  · intro h
    exact ⟨id.index, ⟨(Array.getElem?_eq_some_iff.mp h).1, by simp [h]⟩, rfl⟩

theorem mem_missing : id ∈ s.missing ↔ s.Fresh id := by
  simp only [missing, Fresh, List.mem_map, List.mem_filter, List.mem_range,
    Array.getD_eq_getD_getElem?]
  constructor
  · rintro ⟨i, ⟨hi, hm⟩, rfl⟩
    simpa [hi] using hm
  · intro h
    exact ⟨id.index, ⟨(Array.getElem?_eq_some_iff.mp h).1, by simp [h]⟩, rfl⟩

theorem pairwise_found (s : Search) : s.found.Pairwise (·.index < ·.index) := by
  rw [found, List.pairwise_map]
  exact List.Pairwise.filter _ List.pairwise_lt_range

theorem nodup_missing (s : Search) : s.missing.Nodup :=
  List.Nodup.map (fun _ _ h => NodeId.mk.inj h) (List.nodup_range.filter _)

theorem found_append_missing (s : Search) :
    (s.found ++ s.missing).Perm ((List.range s.marked.size).map NodeId.mk) := by
  rw [found, missing, ← List.map_append]
  exact (List.filter_append_perm _ _).map _


/-- No node is marked before the first round. -/
theorem found_start {α : Type} (g : Graph α) (outputs : List NodeId) :
    (start g outputs).found = [] := by
  refine List.eq_nil_iff_forall_not_mem.mpr fun id hid => ?_
  rw [mem_found, start, Array.getElem?_replicate] at hid
  split at hid <;> cases hid

end Search

namespace Graph

variable {α : Type} {g : Graph α} {s t : Search} {outputs : List NodeId} {id : NodeId}

/-- One round: some node leaves the worklist.  The first time that it is met it is
marked, and what it reads joins the worklist; otherwise nothing else happens. -/
inductive Round (g : Graph α) : Search → Search → Prop
  | pass {marked : Array Bool} {waiting rest : List NodeId} {id : NodeId} :
      waiting.Perm (id :: rest) → ¬ Search.Fresh ⟨marked, waiting⟩ id →
      Round g ⟨marked, waiting⟩ ⟨marked, rest⟩
  | visit {marked : Array Bool} {waiting rest waiting' : List NodeId} {id : NodeId} :
      waiting.Perm (id :: rest) → Search.Fresh ⟨marked, waiting⟩ id →
      waiting'.Perm (g.inputsOf id ++ rest) →
      Round g ⟨marked, waiting⟩ ⟨marked.setIfInBounds id.index true, waiting'⟩

/-- So many rounds, one after the other. -/
inductive Rounds (g : Graph α) : Nat → Search → Search → Prop
  | none (s : Search) : Rounds g 0 s s
  | more {n : Nat} {s t u : Search} : g.Round s t → Rounds g n t u → Rounds g (n + 1) s u

/-- As long as something waits there is a round. -/
theorem exists_round (h : s.waiting ≠ []) : ∃ t, g.Round s t := by
  obtain ⟨marked, waiting⟩ := s
  obtain ⟨id, rest, rfl⟩ := List.exists_cons_of_ne_nil h
  by_cases hfresh : Search.Fresh ⟨marked, id :: rest⟩ id
  · exact ⟨_, .visit .rfl hfresh .rfl⟩
  · exact ⟨_, .pass .rfl hfresh⟩

/-- The program's search takes the first waiting node in every round. -/
theorem rounds_reach (g : Graph α) (marked : Array Bool) (waiting : List NodeId) :
    ∃ n, g.Rounds n ⟨marked, waiting⟩ ⟨g.reach marked waiting, []⟩ := by
  fun_induction reach g marked waiting with
  | case1 marked => exact ⟨0, .none _⟩
  | case2 marked id rest h ih =>
      obtain ⟨n, ih⟩ := ih
      have hfresh : Search.Fresh ⟨marked, id :: rest⟩ id :=
        Array.getElem?_eq_some_iff.mpr h
      have hset : marked.setIfInBounds id.index true = marked.set id.index true h.1 := dif_pos h.1
      refine ⟨n + 1, .more ?_ ih⟩
      rw [← hset]
      exact .visit .rfl hfresh .rfl
  | case3 marked id rest h ih =>
      obtain ⟨n, ih⟩ := ih
      exact ⟨n + 1, .more (.pass .rfl fun hfresh => h (Array.getElem?_eq_some_iff.mp hfresh)) ih⟩

/-! ## What a round costs -/

/-- The waiting nodes, and the edges that may yet put a node on the worklist. -/
def potential (g : Graph α) (s : Search) : Nat := s.waiting.length + g.edgesFrom s.missing

/-- A node that is marked is no longer fresh, and the others are what they were. -/
theorem fresh_set (s : Search) {waiting' : List NodeId} {id x : NodeId} :
    Search.Fresh ⟨s.marked.setIfInBounds id.index true, waiting'⟩ x ↔ s.Fresh x ∧ x ≠ id := by
  rw [Search.Fresh, Array.getElem?_setIfInBounds]
  by_cases h : id.index = x.index
  · obtain rfl : id = x := congrArg NodeId.mk h
    simp
  · have hne : x ≠ id := fun he => h (congrArg NodeId.index he.symm)
    simp [Search.Fresh, h, hne]

/-- A round takes a node off the worklist, and with a node that it marks the edges that
leave it are no longer to come. -/
theorem Round.potential (h : g.Round s t) : g.potential t + 1 = g.potential s := by
  cases h with
  | pass hperm hold =>
      have hlength := hperm.length_eq
      rw [List.length_cons] at hlength
      simp only [Graph.potential, Search.missing]
      omega
  | @visit marked waiting rest waiting' id hperm hfresh hnext =>
      have hmissing : (Search.missing ⟨marked, waiting⟩).Perm
          (id :: Search.missing ⟨marked.setIfInBounds id.index true, waiting'⟩) := by
        refine (List.perm_ext_iff_of_nodup (Search.nodup_missing _) ?_).mpr fun x => ?_
        · refine List.nodup_cons.mpr ⟨fun hmem => ?_, Search.nodup_missing _⟩
          exact ((fresh_set ⟨marked, waiting⟩).mp (Search.mem_missing.mp hmem)).2 rfl
        · rw [List.mem_cons, Search.mem_missing, Search.mem_missing, fresh_set ⟨marked, waiting⟩]
          by_cases hx : x = id
          · simp [hx, hfresh]
          · simp [hx]
      have hedges := edgesFrom_perm (g := g) hmissing
      rw [edgesFrom_cons] at hedges
      have hlength := hperm.length_eq
      have hnextlength := hnext.length_eq
      rw [List.length_cons] at hlength
      rw [List.length_append] at hnextlength
      simp only [Graph.potential]
      omega

theorem Rounds.potential {n : Nat} (h : g.Rounds n s t) : g.potential t + n = g.potential s := by
  induction h with
  | none => rfl
  | more hround _ ih =>
      have := hround.potential
      omega

end Graph

/-! ## What the rounds keep -/

namespace Search

variable {s : Search} {id : NodeId}

/-- The node has been met, or will be: it is not a fresh one that nobody waits for. -/
def Meets (s : Search) (id : NodeId) : Prop := id ∈ s.waiting ∨ ¬ s.Fresh id

/-- What is known at any time of a search for what `outputs` depend on. -/
structure Explored {α : Type} (g : Graph α) (outputs : List NodeId) (s : Search) : Prop where
  size_eq : s.marked.size = g.size
  waiting_depends : ∀ id ∈ s.waiting, g.Depends outputs id
  found_depends : ∀ id ∈ s.found, g.Depends outputs id
  meets_outputs : ∀ id ∈ outputs, s.Meets id
  meets_inputs : ∀ id ∈ s.found, ∀ x ∈ g.inputsOf id, s.Meets x

theorem explored_start {α : Type} (g : Graph α) (outputs : List NodeId) :
    (start g outputs).Explored g outputs where
  size_eq := Array.size_replicate
  waiting_depends _ := Graph.Depends.output
  found_depends id hid := by simp [found_start] at hid
  meets_outputs _ := .inl
  meets_inputs id hid := by simp [found_start] at hid

/-- A node that is met at the end is marked, if it is there at all. -/
theorem mem_found_of_meets (h : s.Meets id) (hend : s.waiting = []) (hlt : id.index < s.marked.size) :
    id ∈ s.found := by
  have hold : ¬ s.Fresh id := h.resolve_left (by simp [hend])
  rw [mem_found]
  simpa [Fresh, hlt] using hold

/-- At the end of a search everything that the outputs depend on is marked, and nothing else. -/
theorem Explored.mem_found_iff {α : Type} {g : Graph α} {outputs : List NodeId}
    (h : s.Explored g outputs) (hend : s.waiting = []) :
    id ∈ s.found ↔ g.Depends outputs id ∧ id.index < g.size := by
  constructor
  · intro hid
    exact ⟨h.found_depends id hid, h.size_eq ▸ (Array.getElem?_eq_some_iff.mp (mem_found.mp hid)).1⟩
  · rintro ⟨hdep, hlt⟩
    refine mem_found_of_meets ?_ hend (h.size_eq ▸ hlt)
    refine hdep.of_closed h.meets_outputs fun x hx y hy => ?_
    exact h.meets_inputs x (mem_found_of_meets hx hend (h.size_eq ▸ Graph.lt_of_mem_inputsOf hy)) y hy

end Search

namespace Graph

variable {α : Type} {g : Graph α} {s t : Search} {outputs : List NodeId}

/-- What has been met stays met: the node that leaves the worklist was marked before, or is
marked now. -/
theorem Round.meets {x : NodeId} (h : g.Round s t) (hx : s.Meets x) : t.Meets x := by
  cases h with
  | @pass marked waiting rest id hperm hold =>
      rcases hx with hx | hx
      · rcases List.mem_cons.mp (hperm.mem_iff.mp hx) with rfl | hx
        · exact .inr hold
        · exact .inl hx
      · exact .inr hx
  | @visit marked waiting rest waiting' id hperm hfresh hnext =>
      by_cases he : x = id
      · exact .inr fun hx => ((fresh_set ⟨marked, waiting⟩).mp hx).2 he
      · rcases hx with hx | hx
        · refine .inl (hnext.mem_iff.mpr (List.mem_append_right _ ?_))
          exact (List.mem_cons.mp (hperm.mem_iff.mp hx)).resolve_left he
        · exact .inr fun hx' => hx ((fresh_set ⟨marked, waiting⟩).mp hx').1

theorem Round.explored (h : g.Round s t) (hs : s.Explored g outputs) : t.Explored g outputs := by
  have hmeets : ∀ x, s.Meets x → t.Meets x := fun _ => h.meets
  cases h with
  | @pass marked waiting rest id hperm hold =>
      exact ⟨hs.size_eq,
        fun x hx => hs.waiting_depends x (hperm.mem_iff.mpr (List.mem_cons_of_mem _ hx)),
        hs.found_depends, fun x hx => hmeets x (hs.meets_outputs x hx),
        fun y hy x hx => hmeets x (hs.meets_inputs y hy x hx)⟩
  | @visit marked waiting rest waiting' id hperm hfresh hnext =>
      have hid : g.Depends outputs id :=
        hs.waiting_depends id (hperm.mem_iff.mpr List.mem_cons_self)
      -- the marked nodes are those of before and the one that was visited
      have hfound : ∀ y ∈ Search.found ⟨marked.setIfInBounds id.index true, waiting'⟩,
          y = id ∨ y ∈ Search.found ⟨marked, waiting⟩ := by
        intro y hy
        rw [Search.mem_found, Array.getElem?_setIfInBounds] at hy
        split at hy
        · rename_i he
          exact .inl (congrArg NodeId.mk he.symm)
        · exact .inr (Search.mem_found.mpr hy)
      refine ⟨Array.size_setIfInBounds.trans hs.size_eq, fun x hx => ?_, fun y hy => ?_,
        fun x hx => hmeets x (hs.meets_outputs x hx), fun y hy x hx => ?_⟩
      · rcases List.mem_append.mp (hnext.mem_iff.mp hx) with hx | hx
        · exact hid.input hx
        · exact hs.waiting_depends x (hperm.mem_iff.mpr (List.mem_cons_of_mem _ hx))
      · rcases hfound y hy with rfl | hy
        · exact hid
        · exact hs.found_depends y hy
      · rcases hfound y hy with rfl | hy
        · exact .inl (hnext.mem_iff.mpr (List.mem_append_left _ hx))
        · exact hmeets x (hs.meets_inputs y hy x hx)

theorem Rounds.explored {n : Nat} (h : g.Rounds n s t) (hs : s.Explored g outputs) :
    t.Explored g outputs := by
  induction h with
  | none => exact hs
  | more hround _ ih => exact ih (hround.explored hs)

/-! ## The answer -/

/-- The search of the program ends, and what it has marked by then is the answer. -/
theorem dependencies_eq_found (h : ∀ id ∈ outputs, id.index < g.size) :
    ∃ n s, g.Rounds n (.start g outputs) s ∧ s.waiting = [] ∧
      g.dependencies outputs = .ok s.found := by
  obtain ⟨n, hrounds⟩ := g.rounds_reach (Array.replicate g.size false) outputs
  have hsize := (hrounds.explored (Search.explored_start g outputs)).size_eq
  refine ⟨n, _, hrounds, rfl, Except.then_eq_ok.mpr ⟨known_iff.mpr h, ?_⟩⟩
  simp only [Search.found, hsize]

theorem dependencies_known {order : List NodeId} (h : g.dependencies outputs = .ok order) :
    ∀ id ∈ outputs, id.index < g.size :=
  known_iff.mp (Except.then_eq_ok.mp h).1

theorem dependencies_pairwise {order : List NodeId} (h : g.dependencies outputs = .ok order) :
    order.Pairwise (·.index < ·.index) := by
  obtain ⟨_, s, _, _, hs⟩ := dependencies_eq_found (dependencies_known h)
  cases h.symm.trans hs
  exact s.pairwise_found

theorem mem_dependencies {order : List NodeId} (h : g.dependencies outputs = .ok order)
    {id : NodeId} : id ∈ order ↔ g.Depends outputs id ∧ id.index < g.size := by
  obtain ⟨_, s, hrounds, hend, hs⟩ := dependencies_eq_found (dependencies_known h)
  cases h.symm.trans hs
  exact (hrounds.explored (Search.explored_start g outputs)).mem_found_iff hend

theorem Built.mem_dependencies [Element α] (hg : g.Built) {order : List NodeId}
    (h : g.dependencies outputs = .ok order) {id : NodeId} : id ∈ order ↔ g.Depends outputs id := by
  rw [Graph.mem_dependencies h, and_iff_left_iff_imp]
  exact hg.depends_lt (dependencies_known h)

/-- Ascending lists of the same nodes are the same list. -/
theorem eq_of_pairwise {ids ids' : List NodeId} (h : ids.Pairwise (·.index < ·.index))
    (h' : ids'.Pairwise (·.index < ·.index)) (hmem : ∀ id, id ∈ ids ↔ id ∈ ids') : ids = ids' := by
  have : Std.Asymm fun a b : NodeId => a.index < b.index := ⟨fun _ _ => Nat.lt_asymm⟩
  exact h.eq_of_mem_iff h' hmem

/-- What a list of nodes depends on depends on nothing else. -/
theorem Built.dependencies_idem [Element α] (hg : g.Built) {order : List NodeId}
    (h : g.dependencies outputs = .ok order) : g.dependencies order = .ok order := by
  have hknown : ∀ id ∈ order, id.index < g.size := fun id hid => ((Graph.mem_dependencies h).mp hid).2
  obtain ⟨_, s, _, _, hs⟩ := dependencies_eq_found hknown
  rw [hs]
  refine congrArg _ (eq_of_pairwise (dependencies_pairwise hs) (dependencies_pairwise h) fun id => ?_)
  rw [hg.mem_dependencies hs]
  constructor
  · refine fun hid => hid.of_closed (fun _ hx => hx) fun x hx y hy => ?_
    rw [hg.mem_dependencies h] at hx ⊢
    exact hx.input hy
  · exact Depends.output

end Graph

/-- Each node is in the order of a slice once, and after whatever it reads. -/
structure Slice.Ordered {α : Type} (s : Slice α) : Prop where
  nodup : s.order.Nodup
  input_mem_before : ∀ {before id after x}, s.order = before ++ id :: after →
    x ∈ s.graph.inputsOf id → x ∈ before
  known : ∀ id ∈ s.order, ∃ n, s.graph.node? id = some n

/-- An ascending order into which nothing is read is an order of computation. -/
theorem Slice.Ordered.of_sorted {α : Type} [Element α] {s : Slice α} (hg : s.graph.Built)
    (hsorted : s.order.Pairwise (·.index < ·.index))
    (hclosed : ∀ id ∈ s.order, ∀ x ∈ s.graph.inputsOf id, x ∈ s.order)
    (hknown : ∀ id ∈ s.order, ∃ n, s.graph.node? id = some n) : s.Ordered := by
  refine ⟨hsorted.imp (by rintro a _ hlt rfl; exact Nat.lt_irrefl _ hlt),
    fun {before id after x} ho hx => ?_, hknown⟩
  have hid : id ∈ s.order := by simp [ho]
  obtain ⟨n, hn⟩ := hknown id hid
  have hlt := (hg.sound hn).inputs_lt x (Graph.inputsOf_of_node? hn ▸ hx)
  have hmem := hclosed id hid x hx
  rw [ho] at hsorted hmem
  have hafter := (List.pairwise_cons.mp (List.pairwise_append.mp hsorted).2.1).1
  rcases List.mem_append.mp hmem with h | h
  · exact h
  · rcases List.mem_cons.mp h with rfl | h
    · exact absurd hlt (Nat.lt_irrefl _)
    · exact absurd hlt (Nat.lt_asymm (hafter x h))

namespace Slice

variable {α : Type} [Element α]

omit [Element α] in
/-- The order of a slice of given roots is that in which its nodes joined the graph. -/
theorem ofRoots_sorted {g : Graph α} {outputs parameters : List NodeId} {s : Slice α}
    (h : Slice.ofRoots g outputs parameters = .ok s) :
    s.order.Pairwise (·.index < ·.index) := by
  obtain ⟨order, horder, h⟩ := Except.bind_eq_ok.mp h
  cases h
  exact Graph.dependencies_pairwise horder

/-- What is known of a slice of given roots. -/
theorem ofRoots_eq_ok {g : Graph α} {outputs parameters : List NodeId} {s : Slice α}
    (hg : g.Built) (h : Slice.ofRoots g outputs parameters = .ok s) :
    s.graph = g ∧ s.outputs = outputs ∧ s.parameters = parameters ∧ s.Ordered := by
  have hsorted := ofRoots_sorted h
  obtain ⟨order, horder, h⟩ := Except.bind_eq_ok.mp h
  cases h
  refine ⟨rfl, rfl, rfl, .of_sorted hg hsorted (fun id hid x hx => ?_) fun id hid => ?_⟩
  · rw [hg.mem_dependencies horder] at hid ⊢
    exact hid.input hx
  · exact Graph.node?_of_lt ((Graph.mem_dependencies horder).mp hid).2

omit [Element α] in
/-- Nodes of a graph have a slice, and are in it. -/
theorem exists_ofRoots {g : Graph α} {outputs parameters : List NodeId}
    (h : ∀ id ∈ outputs ++ parameters, id.index < g.size) :
    ∃ s, Slice.ofRoots g outputs parameters = .ok s ∧ ∀ id ∈ outputs ++ parameters, id ∈ s.order := by
  obtain ⟨_, s, _, _, horder⟩ := Graph.dependencies_eq_found h
  refine ⟨_, Except.bind_eq_ok.mpr ⟨_, horder, rfl⟩, fun id hid => ?_⟩
  exact (Graph.mem_dependencies horder).mpr ⟨.output hid, h id hid⟩

namespace Ordered

omit [Element α]

variable {s : Slice α} (hs : s.Ordered)

include hs

theorem not_mem_before {before after : List NodeId} {id : NodeId}
    (ho : s.order = before ++ id :: after) : id ∉ before :=
  fun hmem => (List.nodup_append.mp (ho ▸ hs.nodup)).2.2 id hmem id List.mem_cons_self rfl

/-- Whatever a node of the order reads is in the order. -/
theorem closed {id x : NodeId} (hid : id ∈ s.order) (hx : x ∈ s.graph.inputsOf id) :
    x ∈ s.order := by
  obtain ⟨before, after, ho⟩ := List.append_of_mem hid
  rw [ho]
  exact List.mem_append_left _ (hs.input_mem_before ho hx)

end Ordered
end Slice

/-! ## Exact dependencies -/

namespace Graph

variable {α : Type} {g : Graph α} {outputs : List NodeId}

/-- The order holds everything that the outputs depend on, and nothing else. -/
structure Closure (g : Graph α) (outputs order : List NodeId) : Prop where
  ascending : order.Pairwise (·.index < ·.index)
  mem_iff : ∀ id, id ∈ order ↔ g.Depends outputs id
  inputs_before : ∀ {before id after x}, order = before ++ id :: after →
    x ∈ g.inputsOf id → x ∈ before
  again : g.dependencies order = .ok order

/-- The search for what the outputs depend on ends with the order, whichever waiting
node each of its rounds takes. -/
structure Searched (g : Graph α) (outputs order : List NodeId) : Prop where
  /-- A waiting node has a place among the marks. -/
  inside : ∀ {n s}, g.Rounds n (.start g outputs) s → ∀ id ∈ s.waiting, id.index < s.marked.size
  goes_on : ∀ {n s}, g.Rounds n (.start g outputs) s → s.waiting ≠ [] → ∃ t, g.Round s t
  rounds_le : ∀ {n s}, g.Rounds n (.start g outputs) s → n ≤ outputs.length + g.edgesFrom order
  found_eq : ∀ {n s}, g.Rounds n (.start g outputs) s → s.waiting = [] →
    n = outputs.length + g.edgesFrom order ∧ s.found = order
  /-- The search of the program is one of these. -/
  first : g.Rounds (outputs.length + g.edgesFrom order) (.start g outputs)
    ⟨g.reach (Array.replicate g.size false) outputs, []⟩

/-- A search that has ended has taken every output, and the end of every edge that
leaves a marked node, off the worklist. -/
theorem Rounds.count_eq {n : Nat} {s : Search} (h : g.Rounds n (.start g outputs) s)
    (hend : s.waiting = []) : n = outputs.length + g.edgesFrom s.found := by
  have hpotential := h.potential
  have hstart := edgesFrom_perm (g := g) (Search.found_append_missing (.start g outputs))
  have hfinal := edgesFrom_perm (g := g) (Search.found_append_missing s)
  rw [(h.explored (Search.explored_start g outputs)).size_eq, edgesFrom_append] at hfinal
  rw [(Search.explored_start g outputs).size_eq, Search.found_start, List.nil_append] at hstart
  simp only [Graph.potential, hend, List.length_nil, hstart] at hpotential
  have hwaiting : (Search.start g outputs).waiting.length = outputs.length := rfl
  omega

theorem Rounds.trans {m n : Nat} {s t u : Search} (h : g.Rounds m s t) (h' : g.Rounds n t u) :
    g.Rounds (m + n) s u := by
  induction h with
  | none => simpa using h'
  | @more m s t v hround _ ih =>
      rw [Nat.add_right_comm]
      exact .more hround (ih h')

variable [Element α]

theorem Built.closure (hg : g.Built) {order : List NodeId}
    (h : g.dependencies outputs = .ok order) : g.Closure outputs order where
  ascending := dependencies_pairwise h
  mem_iff _ := hg.mem_dependencies h
  inputs_before := by
    intro before id after x ho hx
    have hordered : (⟨g, order, outputs, []⟩ : Slice α).Ordered := by
      have hs : Slice.ofRoots g outputs [] = .ok ⟨g, order, outputs, []⟩ :=
        Except.bind_eq_ok.mpr ⟨order, by rwa [List.append_nil], rfl⟩
      exact (Slice.ofRoots_eq_ok hg hs).2.2.2
    exact hordered.input_mem_before ho hx
  again := hg.dependencies_idem h

theorem Built.searched (hg : g.Built) {order : List NodeId}
    (h : g.dependencies outputs = .ok order) : g.Searched outputs order := by
  have hexplored := Search.explored_start g outputs
  have hend : ∀ {n s}, g.Rounds n (.start g outputs) s → s.waiting = [] →
      n = outputs.length + g.edgesFrom order ∧ s.found = order := by
    intro n s hrounds hend
    have hfound : s.found = order := by
      refine eq_of_pairwise s.pairwise_found (dependencies_pairwise h) fun id => ?_
      rw [(hrounds.explored hexplored).mem_found_iff hend, Graph.mem_dependencies h]
    exact ⟨hfound ▸ hrounds.count_eq hend, hfound⟩
  refine ⟨fun hrounds id hid => ?_, fun _ => exists_round, fun {n s} hrounds => ?_, hend, ?_⟩
  · have hs := hrounds.explored hexplored
    rw [hs.size_eq]
    exact hg.depends_lt (dependencies_known h) (hs.waiting_depends id hid)
  · -- what is left of the search is itself a run of the program's loop
    obtain ⟨m, hrest⟩ := g.rounds_reach s.marked s.waiting
    have := (hend (hrounds.trans hrest) rfl).1
    omega
  · obtain ⟨n, hrounds⟩ := g.rounds_reach (Array.replicate g.size false) outputs
    rw [← (hend hrounds rfl).1]
    exact hrounds

/-- A graph names the first of some nodes that is not there; otherwise the search for
what they depend on ends, and its result is the ascending list of exactly those nodes. -/
theorem Built.dependencies_exact (hg : g.Built) (outputs : List NodeId) :
    (∀ e, g.dependencies outputs = .error e ↔ ∃ before id after,
      outputs = before ++ id :: after ∧ (∀ x ∈ before, x.index < g.size) ∧ g.size ≤ id.index ∧
        e = .unknownNode id) ∧
    ((∀ id ∈ outputs, id.index < g.size) → ∃ order, g.dependencies outputs = .ok order ∧
      g.Closure outputs order ∧ g.Searched outputs order) := by
  refine ⟨fun e => ?_, fun hknown => ?_⟩
  · rw [dependencies, Except.bind_eq_error, known_eq_error, or_iff_left_iff_imp]
    rintro ⟨_, _, he⟩
    cases he
  · obtain ⟨_, s, _, _, h⟩ := dependencies_eq_found hknown
    exact ⟨s.found, h, hg.closure h, hg.searched h⟩

/-- A square, beside a placeholder that it does not need. -/
theorem dependencies_exact_square : ∃ g : Graph UInt8,
    ofOperations [.placeholder ⟨[2]⟩, .placeholder ⟨[2]⟩, .binary .multiply ⟨1⟩ ⟨1⟩] = .ok g ∧
      g.dependencies [⟨2⟩, ⟨7⟩, ⟨9⟩] = .error (.unknownNode ⟨7⟩) ∧
      ∃ order, g.dependencies [⟨2⟩, ⟨2⟩] = .ok order ∧ g.Closure [⟨2⟩, ⟨2⟩] order ∧
        g.Searched [⟨2⟩, ⟨2⟩] order ∧ (⟨1⟩ : NodeId) ∈ order ∧ (⟨0⟩ : NodeId) ∉ order := by
  refine ⟨_, rfl, ?_⟩
  have hops : ofOperations ([.placeholder ⟨[2]⟩, .placeholder ⟨[2]⟩,
      .binary .multiply ⟨1⟩ ⟨1⟩] : List (Operation UInt8)) = .ok _ := rfl
  have hg := (ofOperations_eq_ok hops).1
  refine ⟨?_, ?_⟩
  · refine ((Built.dependencies_exact hg _).1 _).mpr ⟨[⟨2⟩], ⟨7⟩, [⟨9⟩], rfl, ?_, ?_, rfl⟩
    · decide
    · decide
  · obtain ⟨order, horder, hclosure, hsearched⟩ :=
      (Built.dependencies_exact hg [⟨2⟩, ⟨2⟩]).2 (by decide)
    refine ⟨order, horder, hclosure, hsearched, ?_, ?_⟩
    · rw [hclosure.mem_iff]
      have hroot : (⟨2⟩ : NodeId) ∈ [⟨2⟩, ⟨2⟩] := List.mem_cons_self
      exact (Depends.output hroot).input (by decide)
    · rw [hclosure.mem_iff]
      intro hzero
      have hne := hzero.of_closed (P := fun id => id = ⟨1⟩ ∨ id = ⟨2⟩) (by decide) ?_
      · revert hne
        decide
      · rintro id (rfl | rfl)
        · decide
        · decide

end Graph

end TensorGraph
