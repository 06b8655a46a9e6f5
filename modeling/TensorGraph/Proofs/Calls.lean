/-
# One call of a computation

What one call does to a computation whose memory fits its plan, from the
inputs to the answer:

| stage | what is known of it |
| :-- | :-- |
| check | accepted exactly when there is one input of the right shape per parameter |
| load | every parameter shows its input, no other buffer changes (`Loaded`) |
| steps | the dense evaluator's values, or its error (`Tracks`, `Undisturbed`) |
| assignments | `Updated` |
| outputs | what the memory shows at the end |

`Computation.execute_of_accepts` puts them together.
-/
import TensorGraph.Computation.Lifecycle
import TensorGraph.Proofs.Assignments

namespace TensorGraph

open Evaluation

variable {α δ : Type}

/-- A computation of a planned slice. -/
structure Computation.Bound [Element α] (c : Computation α) (s : Slice α) : Prop where
  planned : s.Planned c.plan
  steps : List.Forall₂ (fun id st => bindStep s.graph c.plan id = .ok st) c.plan.steps c.steps
  presets : List.Forall₂ (fun b pre => bindPreset s.graph c.plan b = .ok pre)
    (c.plan.buffers.toList.filter (·.role.populated)) c.presets

theorem Computation.bind_eq_ok [Element α] {s : Slice α} {p : Plan} (hp : s.Planned p)
    {seed : UInt64} {c : Computation α} (h : bind s.graph p seed = .ok c) :
    c.Bound s ∧ c.plan = p ∧ c.seed = seed ∧ c.phase = .unallocated := by
  obtain ⟨steps, hsteps, h⟩ := Except.bind_eq_ok.mp h
  obtain ⟨presets, hpresets, h⟩ := Except.bind_eq_ok.mp h
  cases h
  exact ⟨⟨hp, Except.mapM_eq_ok.mp hsteps, Except.mapM_eq_ok.mp hpresets⟩, rfl, rfl, rfl⟩

/-- Whatever has been planned can be bound. -/
theorem Slice.Planned.exists_bind [Element α] {s : Slice α} {p : Plan} (hp : s.Planned p)
    (seed : UInt64) : ∃ c, Computation.bind s.graph p seed = .ok c := by
  have place : ∀ {id}, id ∈ s.order → ∃ q, p.placement id = .ok q := by
    intro id hid
    obtain ⟨q, hq⟩ := hp.place_of_mem hid
    exact ⟨q, Plan.placement_eq_ok.mpr hq⟩
  have hsteps : ∀ id ∈ p.steps, ∃ st, Computation.bindStep s.graph p id = .ok st := by
    intro id hid
    have hmem : id ∈ s.order := by
      rw [hp.steps_eq, List.mem_append] at hid
      exact hid.elim List.mem_of_mem_filter List.mem_of_mem_filter
    obtain ⟨n, hn⟩ := hp.ordered.known id hmem
    have hin : ∀ x ∈ n.op.inputs, ∃ q, p.placement x = .ok q := fun x hx =>
      place (hp.ordered.closed hmem (Graph.inputsOf_of_node? hn ▸ hx))
    obtain ⟨inputs, hinputs⟩ := Except.exists_mapM_eq_ok hin
    obtain ⟨q, hq⟩ := place hmem
    refine Except.exists_bind_eq_ok (Graph.node_eq_ok_iff.mpr hn) ?_
    exact Except.exists_bind_eq_ok hinputs (Except.exists_bind_eq_ok hq ⟨_, rfl⟩)
  have hpresets : ∀ b ∈ p.buffers.toList.filter (·.role.populated),
      ∃ pre, Computation.bindPreset s.graph p b = .ok pre := by
    intro b hb
    obtain ⟨i, hi, hbi⟩ := Array.getElem_of_mem (Array.mem_toList_iff.mp (List.mem_filter.mp hb).1)
    obtain ⟨n, hn, hplace, _⟩ := hp.home hi
    obtain rfl : p.buffer i = b := by simpa [Plan.buffer, hi] using hbi
    refine Except.exists_bind_eq_ok (Graph.node_eq_ok_iff.mpr hn) ?_
    exact Except.exists_bind_eq_ok (Plan.placement_eq_ok.mpr hplace) ⟨_, rfl⟩
  obtain ⟨steps, hsteps⟩ := Except.exists_mapM_eq_ok hsteps
  obtain ⟨presets, hpresets⟩ := Except.exists_mapM_eq_ok hpresets
  exact Except.exists_bind_eq_ok hsteps (Except.exists_bind_eq_ok hpresets ⟨_, rfl⟩)

/-! ## Steps -/

theorem Slice.Planned.holds_shown [Element α] {s : Slice α} {p : Plan} (hp : s.Planned p)
    {m : Memory α} (hm : m.Fits p) {id : NodeId} {q : Placement}
    (hq : p.placements.get? id = some q) : m.Holds s.graph (m.shown p) id q :=
  ⟨hp.covers hm hq, (hp.shaped hq).1, (Memory.shown_of_place hq).symm⟩

section Steps

variable [Element α] {c : Computation α} {s : Slice α} (hc : c.Bound s) {st : Step α}
  (hst : st ∈ c.steps) {m : Memory α} (hm : m.Fits c.plan)

include hc hst

/-- A step writes the place of its node. -/
theorem Computation.Bound.output_place : c.plan.placements.get? st.node = some st.output := by
  obtain ⟨id, _, hbind⟩ := hc.steps.exists_left hst
  obtain ⟨n, _, hbind⟩ := Except.bind_eq_ok.mp hbind
  obtain ⟨inputs, _, hbind⟩ := Except.bind_eq_ok.mp hbind
  obtain ⟨q, hq, hbind⟩ := Except.bind_eq_ok.mp hbind
  cases hbind
  exact Plan.placement_eq_ok.mp hq

/-- A step is that of a node, which has a value or is an assignment. -/
theorem Computation.Bound.step_node : ∃ id ∈ s.order, bindStep s.graph c.plan id = .ok st ∧
    (s.computes c.plan.sites id = true ∨ s.runsLast id = true) := by
  obtain ⟨id, hid, hbind⟩ := hc.steps.exists_left hst
  rw [hc.planned.steps_eq, List.mem_append] at hid
  rcases hid with hid | hid
  · obtain ⟨horder, hcomputes⟩ := List.mem_filter.mp hid
    exact ⟨id, horder, hbind, .inl hcomputes⟩
  · obtain ⟨horder, hlast⟩ := List.mem_filter.mp hid
    exact ⟨id, horder, hbind, .inr hlast⟩

theorem Computation.Bound.packed_output : st.output.layout.isPacked = true := by
  have hp := hc.planned
  obtain ⟨id, hid, hbind, hcomputes | hlast⟩ := hc.step_node hst
  · obtain ⟨before, after, ho⟩ := List.append_of_mem hid
    obtain ⟨n, q, hn, hq, hwritable⟩ := hp.writable ho hcomputes
    obtain ⟨_, rfl, _⟩ := bindStep_eq_ok hbind hn hq
    exact hwritable.packed
  · obtain ⟨_, _, q, _, ha⟩ := hp.assigns hid hlast
    obtain ⟨_, _, rfl⟩ := ha.step_eq hbind
    exact ha.packed

include hm

theorem Computation.Bound.covers_output : m.Covers st.output :=
  hc.planned.covers hm (hc.output_place hst)

/-- Whatever the memory holds, a step is an assignment or finds all that it relies on. -/
theorem Computation.Bound.assigns_or_ready :
    (∃ id target value q v, Assigns s c.plan id target value q v ∧
      bindStep s.graph c.plan id = .ok st) ∨
    ∃ id ∈ s.order, ∃ n, s.graph.node? id = some n ∧ c.plan.sites.computes n.op = true ∧
      (n.op.isElementwise = false → n.layout.size ≠ 0) ∧
      st.Ready s.graph (m.shown c.plan) n m := by
  have hp := hc.planned
  obtain ⟨id, hid, hbind, hcomputes | hlast⟩ := hc.step_node hst
  · obtain ⟨before, after, n, q, ho, hn, hq, hhosted⟩ := hp.hosted_of_mem hid
    have hready := hp.ready ho hn hcomputes hbind hm fun _ _ _ hr => hp.holds_shown hm hr
    simp only [Slice.computes, hn, Option.any_some] at hcomputes
    exact .inr ⟨id, hid, n, hn, hcomputes, hhosted.size_ne_zero hcomputes, hready⟩
  · obtain ⟨target, value, q, v, ha⟩ := hp.assigns hid hlast
    exact .inl ⟨id, target, value, q, v, ha, hbind⟩

variable (hconfined : s.Confined)

include hconfined

/-- A step leaves a block of the size of its place. -/
theorem Computation.Bound.size_outcome :
    (st.outcome m (m.block st.output)).block.size = st.output.layout.size := by
  rcases hc.assigns_or_ready hst hm with ⟨_, _, _, q, v, ha, hbind⟩ |
    ⟨id, hid, n, hn, hcomputes, _, hready⟩
  · rw [ha.outcome_eq hbind hc.planned hm, (ha.step_eq hbind).2.2]
    change (m.view v).gather.size = q.layout.shape.size
    rw [View.size_gather, ← ha.value_shape]
    rfl
  · rw [hready.size_outcome hcomputes (hc.planned.built.sound hn).shape_eq (hconfined id hid n hn),
      Layout.size, Layout.size, hready.shape_eq]

theorem Computation.Bound.fits_run : (st.run m).1.Fits c.plan := by
  exact (hc.covers_output hst hm).fits_write (hc.packed_output hst) hm
    (hc.size_outcome hst hm hconfined)

end Steps

/-- What every step keeps is kept by a run of steps. -/
theorem Step.runAll_preserves [Element α] (P : Memory α → Prop) {sts : List (Step α)}
    (hstep : ∀ st ∈ sts, ∀ m, P m → P (st.run m).1) {m : Memory α} (hm : P m) :
    P (Step.runAll sts m).1 := by
  induction sts generalizing m with
  | nil => exact hm
  | cons st rest ih =>
      obtain ⟨hst, hrest⟩ := List.forall_mem_cons.mp hstep
      have hnext := hst m hm
      rw [runAll]
      split
      · rename_i m' heq
        rw [heq] at hnext
        exact ih hrest hnext
      · rename_i heq
        rwa [heq] at hnext

/-! ## Inputs -/

/-- The inputs fit the parameters of a slice. -/
def Slice.Accepts (s : Slice α) (inputs : List (Tensor α)) : Prop :=
  List.Forall₂ (fun id (t : Tensor α) => t.shape = s.graph.shapeOf id) s.parameters inputs

theorem Computation.checkInputs_eq_ok [Element α] {c : Computation α} {s : Slice α}
    (hc : c.Bound s) {inputs : List (Tensor α)} :
    c.checkInputs inputs = .ok () ↔ s.Accepts inputs := by
  have hp := hc.planned
  have entry : ∀ {id : NodeId} {t : Tensor α}, id ∈ s.parameters →
      (c.checkInput (id, t) = .ok () ↔ t.shape = s.graph.shapeOf id) := by
    intro id t hid
    obtain ⟨q, hq⟩ := hp.place_of_mem (hp.checked.parameters_mem id hid)
    rw [← (hp.shaped hq).1]
    simp only [checkInput, Plan.placement_eq_ok.mpr hq]
    change (if t.shape ≠ q.layout.shape then Except.error _ else Except.ok ()) = .ok () ↔ _
    rw [Except.ite_error_eq_ok]
    simp
  rw [Slice.Accepts, List.forall₂_iff_zip, checkInputs, hp.parameters_eq]
  change (if inputs.length ≠ s.parameters.length then Except.error _
    else (s.parameters.zip inputs).forM c.checkInput) = .ok () ↔ _
  rw [Except.ite_error_eq_ok, Except.forM_eq_ok, ne_eq, Decidable.not_not]
  constructor
  · rintro ⟨hlen, hall⟩
    exact ⟨hlen.symm, fun {id t} hmem =>
      (entry (List.of_mem_zip hmem).1).mp (hall (id, t) hmem)⟩
  · rintro ⟨hlen, hall⟩
    refine ⟨hlen.symm, ?_⟩
    rintro ⟨id, t⟩ hmem
    exact (entry (List.of_mem_zip hmem).1).mpr (hall hmem)

/-- The memory `m'` is `m` with the inputs put in the places of their parameters. -/
structure Loaded [Element α] (p : Plan) (entries : List (NodeId × Tensor α)) (m m' : Memory α) :
    Prop where
  fits : m'.Fits p
  kept : ∀ b, (∀ e ∈ entries, ∀ q, p.placements.get? e.1 = some q → q.buffer ≠ b) →
    m'.storage b = m.storage b
  shows : ∀ e ∈ entries, m'.shown p e.1 = e.2.data

theorem Operation.isSource_of_isPlaceholder {op : Operation α} (h : op.isPlaceholder = true) :
    op.isSource = true := by
  cases op with
  | placeholder => rfl
  | _ => simp [isPlaceholder] at h

/-- A parameter lies packed in a buffer of its own. -/
theorem Slice.Planned.parameter [Element α] {s : Slice α} {p : Plan} (hp : s.Planned p)
    {id : NodeId} (hid : id ∈ s.parameters) :
    ∃ n q, s.graph.node? id = some n ∧ n.op.isSource = true ∧
      p.placements.get? id = some q ∧ q.layout.isPacked = true ∧
      p.sites.role q.buffer = some .parameter := by
  have horder := hp.checked.parameters_mem id hid
  obtain ⟨_, _, n, q, _, hn, hq, _⟩ := hp.hosted_of_mem horder
  have hph := (hp.checked.placeholder_iff id horder n hn).mpr hid
  have hsource := Operation.isSource_of_isPlaceholder hph
  have hrole : Draft.roleOf n.op = .parameter := by
    cases hop : n.op with
    | placeholder => rfl
    | _ => simp [hop, Operation.isPlaceholder] at hph
  obtain ⟨hpacked, hroleq⟩ := hp.source hn hsource hq
  exact ⟨n, q, hn, hsource, hq, hpacked, hrole ▸ hroleq⟩

theorem Slice.Planned.size_input [Element α] {s : Slice α} {p : Plan} (hp : s.Planned p)
    {id : NodeId} {q : Placement} (hq : p.placements.get? id = some q) {t : Tensor α}
    (hshape : t.shape = s.graph.shapeOf id) : t.data.size = q.layout.size := by
  rw [t.size_data, hshape, ← (hp.shaped hq).1]
  rfl

/-- Loading inputs one after the other. -/
theorem loaded [Element α] {s : Slice α} {p : Plan} (hp : s.Planned p)
    {entries : List (NodeId × Tensor α)} (hnd : (entries.map (·.1)).Nodup)
    (hall : ∀ e ∈ entries, e.1 ∈ s.parameters ∧ e.2.shape = s.graph.shapeOf e.1) {m : Memory α}
    (hm : m.Fits p) : Loaded p entries m (entries.foldl (Computation.load p) m) := by
  induction entries generalizing m with
  | nil => exact ⟨hm, fun _ _ => rfl, by simp⟩
  | cons e rest ih =>
      obtain ⟨id, t⟩ := e
      obtain ⟨hid, hshape⟩ := hall (id, t) List.mem_cons_self
      obtain ⟨n, q, hn, hsource, hq, hpacked, _⟩ := hp.parameter hid
      obtain ⟨hnew, hnd'⟩ := List.nodup_cons.mp hnd
      have hcovers := hp.covers hm hq
      have hsize := hp.size_input hq hshape
      have hload : Computation.load p m (id, t) = m.write q t.data := by
        simp only [Computation.load, hq]
      have hrest := ih hnd' (fun e he => hall e (List.mem_cons_of_mem _ he))
        (hcovers.fits_write hpacked hm hsize)
      rw [List.foldl_cons, hload]
      -- the other parameters lie in other buffers
      have hapart : ∀ e ∈ rest, ∀ r, p.placements.get? e.1 = some r → r.buffer ≠ q.buffer := by
        intro e he r hr
        obtain ⟨n', _, hn', hsource', _⟩ := hp.parameter (hall e (List.mem_cons_of_mem _ he)).1
        refine hp.source_buffer_ne hn' hn hsource' hsource hr hq fun heq => hnew ?_
        exact List.mem_map.mpr ⟨e, he, heq⟩
      refine ⟨hrest.fits, fun b hb => ?_, List.forall_mem_cons.mpr ⟨?_, hrest.shows⟩⟩
      · rw [hrest.kept b fun e he => hb e (List.mem_cons_of_mem _ he),
          Memory.storage_write_of_ne _ _ (hb (id, t) List.mem_cons_self q hq).symm]
      · rw [Memory.shown_of_place hq, Memory.view_congr (hrest.kept q.buffer hapart)]
        exact hcovers.gather_write hpacked hsize

/-- What the sources of a slice are given: a parameter the caller's input, every
other source what is `held` for it. -/
def Slice.supply (s : Slice α) (inputs : List (Tensor α)) (held : NodeId → Array α) (id : NodeId) :
    Array α :=
  match (s.parameters.zip inputs).lookup id with
  | some t => t.data
  | none => held id

/-- The memory in which the steps of a call begin. -/
def Computation.loaded (c : Computation α) (inputs : List (Tensor α)) : Memory α :=
  (c.plan.parameters.zip inputs).foldl (load c.plan) c.memory

section Call

variable [Element α] {c : Computation α} {s : Slice α} (hc : c.Bound s)
  (hfits : c.memory.Fits c.plan) {inputs : List (Tensor α)} (haccepts : s.Accepts inputs)

include hc hfits haccepts

theorem Computation.loaded_eq :
    Loaded c.plan (s.parameters.zip inputs) c.memory (c.loaded inputs) := by
  rw [Computation.loaded, hc.planned.parameters_eq]
  refine TensorGraph.loaded hc.planned ?_ (fun e he => ?_) hfits
  · rw [List.map_fst_zip (Nat.le_of_eq haccepts.length_eq)]
    exact hc.planned.checked.parameters_nodup
  · exact ⟨(List.of_mem_zip he).1, List.forall₂_zip haccepts he⟩

/-- Once the inputs are loaded, every source holds what it is given. -/
theorem Computation.supply_sourced (held : NodeId → Array α)
    (hheld : ∀ id ∈ s.order, ∀ n, s.graph.node? id = some n →
      (Draft.roleOf n.op).populated = true → c.memory.shown c.plan id = held id) :
    Sourced s c.plan (s.supply inputs held) (c.loaded inputs) := by
  have hp := hc.planned
  have hloaded := Computation.loaded_eq hc hfits haccepts
  intro id hid n hn hsource q hq
  rw [Slice.supply, ← Memory.shown_of_place hq]
  cases hlookup : (s.parameters.zip inputs).lookup id with
  | some t =>
      obtain ⟨l, l', hentries, _⟩ := List.lookup_eq_some_iff.mp hlookup
      exact hloaded.shows (id, t) (hentries ▸ by simp)
  | none =>
      have hnone : ∀ e ∈ s.parameters.zip inputs, id ≠ e.1 := by
        simpa using List.lookup_eq_none_iff.mp hlookup
      have hparameter : id ∉ s.parameters := by
        intro hmem
        rw [← List.map_fst_zip (Nat.le_of_eq haccepts.length_eq)] at hmem
        obtain ⟨e, he, heq⟩ := List.mem_map.mp hmem
        exact hnone e he heq.symm
      have hpopulated : (Draft.roleOf n.op).populated = true := by
        have hph := mt (hp.checked.placeholder_iff id hid n hn).mp hparameter
        cases hop : n.op with
        | constant | persistent => rfl
        | placeholder => simp [hop, Operation.isPlaceholder] at hph
        | _ => simp [hop, Operation.isSource] at hsource
      rw [← hheld id hid n hn hpopulated]
      refine Memory.shown_congr fun r hr => hloaded.kept r.buffer fun e he q' hq' => ?_
      obtain ⟨n', _, hn', hsource', _⟩ := hp.parameter (List.of_mem_zip he).1
      exact hp.source_buffer_ne hn' hn hsource' hsource hq' hr (hnone e he).symm

/-- Loading inputs leaves the buffers of constants and variables alone. -/
theorem Computation.loaded_frame {b : Nat} {r : BufferRole} (hrole : c.plan.sites.role b = some r)
    (hpopulated : r.populated = true) : (c.loaded inputs).storage b = c.memory.storage b := by
  refine (Computation.loaded_eq hc hfits haccepts).kept b fun e he q hq hb => ?_
  obtain ⟨_, q', _, _, hq', _, hparameter⟩ := hc.planned.parameter (List.of_mem_zip he).1
  cases hq'.symm.trans hq
  rw [hb, hrole] at hparameter
  cases hparameter
  cases hpopulated

/-- So do the steps before the assignments. -/
theorem Computation.undisturbed_frame {m : Memory α} (hm : Undisturbed c.plan (c.loaded inputs) m)
    {b : Nat} {r : BufferRole} (hrole : c.plan.sites.role b = some r)
    (hpopulated : r.populated = true) :
    m.storage b = c.memory.storage b := by
  rw [hm.kept b, Computation.loaded_frame hc hfits haccepts hrole hpopulated]
  rw [hrole]
  intro h
  cases h
  cases hpopulated

end Call

/-! ## Outputs -/

theorem readOutput_eq_ok [Element α] {s : Slice α} {p : Plan} (hp : s.Planned p) {m : Memory α}
    (hm : m.Fits p) {id : NodeId} (hid : id ∈ s.order) :
    ∃ t, Computation.readOutput p m id = .ok t ∧
      (t.shape, t.data) = (s.graph.shapeOf id, m.shown p id) := by
  obtain ⟨q, hq⟩ := hp.place_of_mem hid
  have hcovers := hp.covers hm hq
  have helements : (m.view q).elements = (m.view q).gather :=
    View.elements_eq_gather hcovers.regular hcovers.extent_le
  refine ⟨⟨q.layout.shape, (m.view q).gather, View.size_gather _⟩, ?_, ?_⟩
  · simp only [Computation.readOutput, Plan.placement_eq_ok.mpr hq]
    change Tensor.ofData? q.layout.shape (m.view q).elements = _
    rw [helements, Tensor.ofData?_eq_ok_iff]
    exact ⟨rfl, rfl⟩
  · exact Prod.ext (hp.shaped hq).1 (Memory.shown_of_place hq).symm

theorem readOutputs_eq_ok [Element α] {s : Slice α} {p : Plan} (hp : s.Planned p) {m : Memory α}
    (hm : m.Fits p) {ids : List NodeId} (hids : ∀ id ∈ ids, id ∈ s.order) :
    ∃ outs, ids.mapM (Computation.readOutput p m) = .ok outs ∧
      outs.map (fun t => (t.shape, t.data))
        = ids.map fun id => (s.graph.shapeOf id, m.shown p id) := by
  induction ids with
  | nil => exact ⟨[], rfl, rfl⟩
  | cons id rest ih =>
      obtain ⟨hid, hrest⟩ := List.forall_mem_cons.mp hids
      obtain ⟨t, ht, htshown⟩ := readOutput_eq_ok hp hm hid
      obtain ⟨outs, houts, hshown⟩ := ih hrest
      refine ⟨t :: outs, ?_, by rw [List.map_cons, htshown, hshown]; rfl⟩
      rw [Except.mapM_eq_ok] at houts ⊢
      exact .cons ht houts

/-! ## The whole call -/

section Execute

variable [Element α] [Device δ α] {c : Computation α} {s : Slice α} (hc : c.Bound s)
  (device : δ) {inputs : List (Tensor α)}

include hc

omit hc in
theorem Computation.execute_of_check {e : Error} (h : c.checkInputs inputs = .error e) :
    c.execute device inputs = (c, device, .error e) := by
  rw [execute, h]

/-- A call whose inputs do not fit does nothing. -/
theorem Computation.execute_of_not_accepts (haccepts : ¬ s.Accepts inputs) :
    ∃ e, c.execute device inputs = (c, device, .error e) := by
  cases hcheck : c.checkInputs inputs with
  | ok _ => exact absurd ((checkInputs_eq_ok hc).mp hcheck) haccepts
  | error e => exact ⟨e, execute_of_check device hcheck⟩

/-- What any other call does, for whatever the sources of the slice hold once the
inputs are loaded. -/
theorem Computation.execute_of_accepts (hfits : c.memory.Fits c.plan) (hfaithful : s.Faithful)
    (haccepts : s.Accepts inputs) {given : NodeId → Array α}
    (hsourced : Sourced s c.plan given (c.loaded inputs)) :
    match s.evaluate given with
    | .error e => ∃ m', Undisturbed c.plan (c.loaded inputs) m' ∧
        c.execute device inputs = ({ c with memory := m' }, device, .error e)
    | .ok values => ∃ m₁ m₂ outs, Tracks s c.plan (c.loaded inputs) s.order values m₁ ∧
        m₂ = s.updates.foldl (Memory.assign s.graph c.plan) m₁ ∧ Updated s c.plan m₁ s.updates m₂ ∧
        outs.map (fun t => (t.shape, t.data))
          = s.outputs.map (fun id => (s.graph.shapeOf id, m₂.shown c.plan id)) ∧
        c.execute device inputs = match Device.synchronize device with
          | (device, .error e) => ({ c with memory := m₂ }, device, .error e)
          | (device, .ok ()) => ({ c with memory := m₂, phase := .ready }, device, .ok outs) := by
  have hp := hc.planned
  have hcheck := (Computation.checkInputs_eq_ok hc).mpr haccepts
  have hloaded := Computation.loaded_eq hc hfits haccepts
  have hload : (c.plan.parameters.zip inputs).foldl (load c.plan) c.memory = c.loaded inputs := rfl
  have hsteps := hc.steps
  rw [hp.steps_eq] at hsteps
  obtain ⟨sts, ups, happend, hsts, hups⟩ := hsteps.append_left
  have hstart : Tracks s c.plan (c.loaded inputs) [] (fun _ => #[]) (c.loaded inputs) :=
    ⟨⟨hloaded.fits, fun _ _ => rfl⟩, by simp⟩
  have hrun := hstart.run hp hfaithful hsourced rfl hsts
  rw [Slice.evaluate]
  cases hev : s.order.foldlM (Evaluation.visit s.graph given) fun _ => #[] with
  | error e =>
      rw [hev] at hrun
      obtain ⟨m', hrun, hundisturbed⟩ := hrun
      refine ⟨m', hundisturbed, ?_⟩
      rw [execute, hcheck]
      simp only [happend, Step.runAll_append]
      rw [hload, hrun]
  | ok values =>
      rw [hev] at hrun
      obtain ⟨m₁, hrun, htracks⟩ := hrun
      obtain ⟨hups, hupdated⟩ := (updated_nil htracks.undisturbed.fits).run hp rfl hups
      obtain ⟨outs, houts, hshown⟩ := readOutputs_eq_ok hp hupdated.fits hp.checked.outputs_mem
      refine ⟨m₁, _, outs, htracks, rfl, hupdated, hshown, ?_⟩
      rw [execute, hcheck]
      simp only [happend, Step.runAll_append]
      rw [hload, hrun]
      simp only [hups, hp.outputs_eq, houts]
      obtain ⟨device', result⟩ := Device.synchronize device
      cases result with
      | error e => rfl
      | ok _ => rfl

/-- The memory that a call leaves behind still fits, and it holds all constants,
and all variables but the assigned ones, as they were. -/
theorem Computation.execute_effect (inputs : List (Tensor α)) (hfits : c.memory.Fits c.plan)
    (hfaithful : s.Faithful) :
    ∃ m ph, (c.execute device inputs).1 = { c with memory := m, phase := ph } ∧ m.Fits c.plan ∧
      (ph = c.phase ∨ ph = .ready) ∧
      ∀ (q : Placement) r, c.plan.sites.role q.buffer = some r → r.populated = true →
        ¬ c.plan.Within s.updates q → m.storage q.buffer = c.memory.storage q.buffer := by
  by_cases haccepts : s.Accepts inputs
  · have hcall := Computation.execute_of_accepts hc device hfits hfaithful haccepts
      (Computation.supply_sourced hc hfits haccepts _ fun _ _ _ _ _ => rfl)
    cases hev : s.evaluate (s.supply inputs (c.memory.shown c.plan)) with
    | error e =>
        rw [hev] at hcall
        obtain ⟨m, hm, hexecute⟩ := hcall
        exact ⟨m, c.phase, by rw [hexecute], hm.fits, .inl rfl,
          fun q r hrole hpopulated _ =>
            Computation.undisturbed_frame hc hfits haccepts hm hrole hpopulated⟩
    | ok values =>
        rw [hev] at hcall
        obtain ⟨m₁, m₂, outs, htracks, _, hupdated, _, hexecute⟩ := hcall
        have hkept : ∀ (q : Placement) r, c.plan.sites.role q.buffer = some r →
            r.populated = true → ¬ c.plan.Within s.updates q →
            m₂.storage q.buffer = c.memory.storage q.buffer := by
          intro q r hrole hpopulated hout
          rw [hupdated.kept q hout]
          exact Computation.undisturbed_frame hc hfits haccepts htracks.undisturbed hrole hpopulated
        rw [hexecute]
        obtain ⟨device', result⟩ := Device.synchronize device
        cases result with
        | error e => exact ⟨m₂, c.phase, rfl, hupdated.fits, .inl rfl, hkept⟩
        | ok _ => exact ⟨m₂, .ready, rfl, hupdated.fits, .inr rfl, hkept⟩
  · obtain ⟨e, hexecute⟩ := Computation.execute_of_not_accepts hc device haccepts
    exact ⟨c.memory, c.phase, by rw [hexecute], hfits, .inl rfl, fun _ _ _ _ _ => rfl⟩

end Execute

end TensorGraph
