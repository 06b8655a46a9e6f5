/-
# Compilation and meaning

A compiled computation, whatever has been called on it before, against the
dense evaluator of its slice.  `Slice.Compiles` names what compilation is: the
slice of some roots of a graph that requests have built, planned and bound.
Whatever may be planned compiles (`exists_of_plan`), and engines compile nothing
else (`of_prepare`).

    no assignments   a run answers what the evaluator answers, error for error   (`run_eq_answer`)
    assignments      what the variables hold after a run that succeeds       (`assigned_contents`)
                     what the outputs of such a run are                          (`output_values`)

With assignments the evaluator is followed with one exception, and the last two
statements say where it lies.  A variable, or a reading of it without a step,
has no storage besides the variable's own; whoever looks at it after the
variable was overwritten sees the new contents.  Assignments look at their
values one after the other, and outputs are read after all of them, so each
statement has a case for values that are overwritten by then
(`Slice.Overwrites`).
-/
import TensorGraph.Device.Host
import TensorGraph.Element.Integer
import TensorGraph.Engine
import TensorGraph.Proofs.Lifetimes

namespace TensorGraph

open Evaluation

variable {α δ : Type} [Element α]

/-- The computation of a slice, without storage. -/
def Slice.compile {α : Type} (s : Slice α) (overwriting : Bool) (seed : UInt64) :
    Except Error (Computation α) := do
  Computation.bind s.graph (← s.plan overwriting) seed

/-- The computation was compiled from the slice of its own roots. -/
structure Slice.Compiles (s : Slice α) (overwriting : Bool) (seed : UInt64) (c : Computation α) :
    Prop where
  built : s.graph.Built
  roots : Slice.ofRoots s.graph s.outputs s.parameters = .ok s
  compiled : s.compile overwriting seed = .ok c

/-- The answer of the dense evaluator: the outputs with their shapes, or an error. -/
def Slice.answer (s : Slice α) (given : NodeId → Array α) : Except Error (List (Shape × Array α)) :=
  (s.evaluate given).map fun values => s.outputs.map fun id => (s.graph.shapeOf id, values id)

/-- The node is a variable that one of the given nodes overwrites, or reads one anew
without a step. -/
def Slice.Overwrites (s : Slice α) (p : Plan) (ids : List NodeId) (id : NodeId) : Prop :=
  ∃ a ∈ ids, ∃ target, s.targetOf a = some target ∧ s.Rereads p.sites target id

namespace Slice

variable {s : Slice α} {overwriting : Bool} {seed : UInt64} {c₀ : Computation α}

theorem Compiles.bound (h : s.Compiles overwriting seed c₀) :
    c₀.Bound s ∧ c₀.seed = seed ∧ c₀.phase = .unallocated := by
  obtain ⟨p, hplan, hbind⟩ := Except.bind_eq_ok.mp h.compiled
  obtain ⟨_, _, _, hordered⟩ := Slice.ofRoots_eq_ok h.built h.roots
  have hp := Slice.plan_eq_ok hordered h.built hplan
  obtain ⟨hbound, _, hseed, hphase⟩ := Computation.bind_eq_ok hp hbind
  exact ⟨hbound, hseed, hphase⟩

/-- Every slice that may be planned compiles. -/
theorem Compiles.exists_of_plan {p : Plan} (hbuilt : s.graph.Built)
    (hroots : Slice.ofRoots s.graph s.outputs s.parameters = .ok s)
    (hplan : s.plan overwriting = .ok p) (seed : UInt64) :
    ∃ c, s.Compiles overwriting seed c ∧ c.plan = p := by
  obtain ⟨_, _, _, hordered⟩ := Slice.ofRoots_eq_ok hbuilt hroots
  have hp := Slice.plan_eq_ok hordered hbuilt hplan
  obtain ⟨c, hbind⟩ := hp.exists_bind seed
  obtain ⟨_, hplaneq, _, _⟩ := Computation.bind_eq_ok hp hbind
  exact ⟨c, ⟨hbuilt, hroots, Except.bind_eq_ok.mpr ⟨p, hplan, hbind⟩⟩, hplaneq⟩

/-- So engines compile, whatever has been requested through handles. -/
theorem Compiles.of_prepare {w : Workspace α} (hw : w.Built) {config : EngineConfig}
    {outputs parameters : List Handle} {c : Computation α}
    (h : Engine.prepare config w outputs parameters = .ok c) :
    ∃ s : Slice α, s.outputs = outputs.map (·.node) ∧ s.parameters = parameters.map (·.node) ∧
      s.Compiles config.overwriting config.seed c := by
  obtain ⟨s, hs, hcompile⟩ := Except.bind_eq_ok.mp h
  cases outputs with
  | nil => cases hs
  | cons first rest =>
      rw [Engine.sliceOf] at hs
      split at hs
      · obtain ⟨hgraph, houtputs, hparameters, _⟩ :=
          Slice.ofRoots_eq_ok (hw.built_graph first.graph) hs
        refine ⟨s, houtputs, hparameters, hgraph ▸ hw.built_graph first.graph, ?_, hcompile⟩
        rw [hgraph, houtputs, hparameters, hs]
      · cases hs

theorem Compiles.living_self (h : s.Compiles overwriting seed c₀) : c₀.Living c₀ := by
  refine ⟨rfl, fun hattached => ?_⟩
  rw [h.bound.2.2] at hattached
  cases hattached

theorem Compiles.living [Device δ α] (h : s.Compiles overwriting seed c₀)
    (calls : List (Call α δ)) : c₀.Living (c₀.after calls) :=
  Computation.after_living h.living_self calls

/-- Which values lie in overwritten buffers. -/
theorem Planned.overwrites_iff {p : Plan} (hp : s.Planned p) {ids : List NodeId}
    (hids : ∀ a ∈ ids, a ∈ s.order) {id : NodeId} (hvalue : s.runsLast id = false) {q : Placement}
    (hq : p.placements.get? id = some q) :
    s.Overwrites p ids id ↔ p.Within (ids.filter s.runsLast) q := by
  constructor
  · rintro ⟨a, ha, target, htarget, hrereads⟩
    have hlast := runsLast_of_targetOf htarget
    obtain ⟨t, _, _, _, has⟩ := hp.assigns (hids a ha) hlast
    cases has.targetOf_eq.symm.trans htarget
    exact ⟨a, List.mem_filter.mpr ⟨ha, hlast⟩, _, has.place,
      hp.settled.buffer_of_rereads has.target_place hrereads hq⟩
  · rintro ⟨a, ha, r, hr, hb⟩
    obtain ⟨ha, hlast⟩ := List.mem_filter.mp ha
    obtain ⟨t, _, _, _, has⟩ := hp.assigns (hids a ha) hlast
    cases has.place.symm.trans hr
    obtain ⟨n, hn, hpersistent⟩ := has.target_node
    exact ⟨a, ha, t, has.targetOf_eq,
      hp.settled.rereads_of_buffer hp.built hp.checked.reads_value hn hpersistent
        has.target_place hvalue hq hb⟩

end Slice

/-- A slice that is given by the operations of its graph, and that compiles. -/
structure Specimen where
  operations : List (Operation UInt8)
  order : List NodeId
  outputs : List NodeId
  parameters : List NodeId
  accepted : (Graph.ofOperations operations).isOk = true
  roots : Slice.ofRoots (Except.get _ accepted) outputs parameters
    = .ok ⟨Except.get _ accepted, order, outputs, parameters⟩
  compiles : (Slice.compile ⟨Except.get _ accepted, order, outputs, parameters⟩ true 0).isOk = true
  faithful : ∀ f xs, Operation.custom f xs ∈ operations → f.Faithful

namespace Specimen

def slice (e : Specimen) : Slice UInt8 :=
  ⟨Except.get _ e.accepted, e.order, e.outputs, e.parameters⟩

def compiled (e : Specimen) : Computation UInt8 := Except.get _ e.compiles

theorem slice_compiles (e : Specimen) : e.slice.Compiles true 0 e.compiled :=
  ⟨(Graph.ofOperations_eq_ok (Except.eq_ok_get e.accepted)).1, e.roots, Except.eq_ok_get e.compiles⟩

theorem slice_faithful (e : Specimen) : e.slice.Faithful :=
  Slice.faithful_of_operations (Except.eq_ok_get e.accepted) e.faithful

/-- Storage is attached and populated. -/
def opening : List (Call UInt8 (HostDevice UInt8)) := [.allocate .plain, .populate]

/-- A run of the populated computation. -/
def run (e : Specimen) (inputs : List (Tensor UInt8)) :
    Computation UInt8 × HostDevice UInt8 × Except Error (List (Tensor UInt8)) :=
  (e.compiled.after opening).run .plain inputs

/-- The values of all nodes with the contents of the variables before the run. -/
def evaluated (e : Specimen) (inputs : List (Tensor UInt8)) : Except Error (NodeId → Array UInt8) :=
  e.slice.evaluate
    (e.slice.supply inputs ((e.compiled.after opening).memory.shown e.compiled.plan))

/-- What the nodes show after the run. -/
def left (e : Specimen) (inputs : List (Tensor UInt8)) : NodeId → Array UInt8 :=
  (e.run inputs).1.memory.shown e.compiled.plan

theorem value_eq {e : Specimen} {inputs : List (Tensor UInt8)} {values : NodeId → Array UInt8}
    (h : e.evaluated inputs = .ok values) {id : NodeId} {xs : Array UInt8}
    (heq : (e.evaluated inputs).map (· id) = .ok xs) : values id = xs := by
  rw [h] at heq
  exact Except.ok.inj heq

theorem run_eq (e : Specimen) {inputs : List (Tensor UInt8)} (h : (e.run inputs).2.2.isOk = true) :
    (e.compiled.after opening).run .plain inputs
      = ((e.run inputs).1, (e.run inputs).2.1, .ok (Except.get _ h)) :=
  Prod.ext rfl (Prod.ext rfl (Except.eq_ok_get h))

end Specimen

/-! ## Runs that succeed -/

/-- What is known of a run that has succeeded. -/
theorem Computation.run_eq_ok [Device δ α] {c c' : Computation α} {s : Slice α} (hc : c.Bound s)
    (hfits : c.phase.attached = true → c.memory.Fits c.plan) (hfaithful : s.Faithful)
    {device device' : δ} {inputs outs : List (Tensor α)}
    (h : c.run device inputs = (c', device', .ok outs)) :
    ∃ values m₁,
      s.evaluate (s.supply inputs (c.memory.shown c.plan)) = .ok values ∧
      Tracks s c.plan (c.loaded inputs) s.order values m₁ ∧
      Updated s c.plan m₁ s.updates c'.memory ∧
      c' = { c with memory := s.updates.foldl (Memory.assign s.graph c.plan) m₁, phase := .ready } ∧
      outs.map (fun t => (t.shape, t.data))
        = s.outputs.map fun id => (s.graph.shapeOf id, c'.memory.shown c.plan id) := by
  rcases c.run_cases device inputs with ⟨e, he⟩ | ⟨hrunning, he⟩
  · rw [he] at h
    cases h
  · rw [he] at h
    have hfits := hfits (Phase.attached_of_running hrunning)
    by_cases haccepts : s.Accepts inputs
    · have hcall := Computation.execute_of_accepts hc device hfits hfaithful haccepts
        (Computation.supply_sourced hc hfits haccepts _ fun _ _ _ _ _ => rfl)
      cases hev : s.evaluate (s.supply inputs (c.memory.shown c.plan)) with
      | error e =>
          rw [hev] at hcall
          obtain ⟨m', _, hexecute⟩ := hcall
          rw [hexecute] at h
          cases h
      | ok values =>
          rw [hev] at hcall
          obtain ⟨m₁, m₂, outs', htracks, hm₂, hupdated, houts, hexecute⟩ := hcall
          rw [hexecute] at h
          rcases hsync : Device.synchronize device with ⟨device'', e | _⟩
          · rw [hsync] at h
            cases h
          · rw [hsync] at h
            cases h
            exact ⟨values, m₁, rfl, htracks, hupdated, by rw [hm₂], houts⟩
    · obtain ⟨e, hexecute⟩ := Computation.execute_of_not_accepts hc device haccepts
      rw [hexecute] at h
      cases h

/-! ## The meaning of a run -/

/-- Without assignments, a call with inputs that fit answers what the evaluator
answers for what the sources hold. -/
theorem Computation.execute_answer [Device δ α] {c : Computation α} {s : Slice α} (hc : c.Bound s)
    (hfits : c.memory.Fits c.plan) (hfaithful : s.Faithful)
    (hno : ∀ id ∈ s.order, s.runsLast id = false) {inputs : List (Tensor α)}
    (haccepts : s.Accepts inputs) {given : NodeId → Array α}
    (hsourced : Sourced s c.plan given (c.loaded inputs)) (device : δ) :
    (c.execute device inputs).2.2.map (fun outs => outs.map fun t => (t.shape, t.data))
      = s.answer given >>= fun answer => (Device.synchronize device).2.map fun _ => answer := by
  have hcall := execute_of_accepts hc device hfits hfaithful haccepts hsourced
  rw [Slice.answer]
  cases hev : s.evaluate given with
  | error e =>
      rw [hev] at hcall
      obtain ⟨m', _, hexecute⟩ := hcall
      rw [hexecute]
      rfl
  | ok values =>
      rw [hev] at hcall
      obtain ⟨m₁, m₂, outs, htracks, hm₂, _, houts, hexecute⟩ := hcall
      have hm : m₂ = m₁ := by
        rw [hm₂, Slice.updates_eq_nil hno]
        rfl
      have hshown : outs.map (fun t => (t.shape, t.data))
          = s.outputs.map fun id => (s.graph.shapeOf id, values id) := by
        rw [houts, hm]
        refine List.map_congr_left fun id hid => ?_
        have hmem := hc.planned.checked.outputs_mem id hid
        rw [htracks.shown hc.planned hmem (hno id hmem) (.inl hid)]
      rw [hexecute]
      change _ = Except.map (fun _ => s.outputs.map fun id => (s.graph.shapeOf id, values id)) _
      rw [← hshown]
      rcases Device.synchronize device with ⟨device', e | _⟩
      · rfl
      · rfl

namespace Slice.Compiles

variable [Device δ α] {s : Slice α} {overwriting : Bool} {seed : UInt64} {c₀ : Computation α}
  {calls : List (Call α δ)}

/-- Without assignments, constants and variables begin every run as population left them. -/
theorem holds_initial (h : s.Compiles overwriting seed c₀) (hfaithful : s.Faithful)
    (hno : ∀ id ∈ s.order, s.runsLast id = false)
    (hcalls : ∀ name st, .replace name st ∈ calls → Computation.Replaceable c₀.plan name)
    (hrunning : (c₀.after calls).phase.running = true) :
    ∀ id ∈ s.order, ∀ n, s.graph.node? id = some n → (Draft.roleOf n.op).populated = true →
      (c₀.after calls).memory.shown (c₀.after calls).plan id = s.initial seed id := by
  obtain ⟨hbound, hseed, hphase⟩ := h.bound
  have hunpopulated : c₀.phase.running = true → c₀.HoldsInitial s := by
    intro hrun
    rw [hphase] at hrun
    cases hrun
  have hinitial := Computation.after_initial hbound hfaithful (updates_eq_nil hno) h.living_self
    hunpopulated hcalls hrunning
  intro id hid n hn hpopulated
  rw [hinitial id hid n hn hpopulated, (h.living calls).alike, hseed]

/-- Compilation preserves the meaning of slices without assignments.  In every
state in which the computation answers runs, and for all inputs that fit, a run
answers what the dense evaluator answers when constants and variables are as
population left them: the same error, or the same shapes and elements, provided
that the device gets its work done.  Earlier calls may have been any, failed or
not, as long as none put other storage behind a constant or a variable. -/
theorem run_eq_answer (h : s.Compiles overwriting seed c₀) (hfaithful : s.Faithful)
    (hno : ∀ id ∈ s.order, s.runsLast id = false)
    (hcalls : ∀ name st, .replace name st ∈ calls → Computation.Replaceable c₀.plan name)
    (hrunning : (c₀.after calls).phase.running = true) {inputs : List (Tensor α)}
    (haccepts : s.Accepts inputs) (device : δ) :
    ((c₀.after calls).run device inputs).2.2.map
        (fun outs => outs.map fun t => (t.shape, t.data))
      = s.answer (s.supply inputs (s.initial seed)) >>= fun answer =>
          (Device.synchronize device).2.map fun _ => answer := by
  have hliving := h.living calls
  have hc := hliving.bound h.bound.1
  have hfits : (c₀.after calls).memory.Fits (c₀.after calls).plan :=
    hliving.plan_eq ▸ hliving.fits (Phase.attached_of_running hrunning)
  have hheld := h.holds_initial hfaithful hno hcalls hrunning
  rw [Computation.run_of_running hrunning]
  exact Computation.execute_answer hc hfits hfaithful hno haccepts
    (Computation.supply_sourced hc hfits haccepts _ hheld) device

end Slice.Compiles

namespace Specimen

/-- A matrix plus its mirror image, weighted over the sum, in a row, added to itself
by an operator of the caller's. -/
def mirror : Specimen where
  operations := [.placeholder ⟨[2, 2]⟩, .constant ⟨[2, 2]⟩ #[1, 2, 3, 4], .reorder ⟨0⟩ [1, 0],
    .binary .add ⟨0⟩ ⟨2⟩, .binary .multiply ⟨3⟩ ⟨1⟩, .reshape ⟨4⟩ ⟨[4]⟩,
    .custom (.sum "sum") [⟨5⟩, ⟨5⟩]]
  order := [⟨0⟩, ⟨1⟩, ⟨2⟩, ⟨3⟩, ⟨4⟩, ⟨5⟩, ⟨6⟩]
  outputs := [⟨6⟩]
  parameters := [⟨0⟩]
  accepted := rfl
  roots := by cbv
  compiles := rfl
  faithful := by
    rintro f xs hmem
    obtain ⟨rfl, _⟩ : f = .sum "sum" ∧ xs = [⟨5⟩, ⟨5⟩] := by simpa using hmem
    exact CustomOperator.faithful_sum "sum"

def square : Tensor UInt8 := ⟨⟨[2, 2]⟩, #[1, 2, 3, 4], rfl⟩

/-- The answer to a run after one that was refused and one that was answered. -/
theorem mirror_run :
    ((mirror.compiled.after (opening ++ [.run .plain [], .run .plain [square]])).run
        (HostDevice.plain : HostDevice UInt8) [square]).2.2.map
        (fun outs => outs.map fun t => (t.shape, t.data))
      = .ok [(⟨[4]⟩, #[4, 20, 30, 64])] := by
  have haccepts : mirror.slice.Accepts [square] := .cons (by decide) .nil
  rw [mirror.slice_compiles.run_eq_answer mirror.slice_faithful (by decide) (by simp [opening])
    (by decide +kernel) haccepts]
  decide +kernel

end Specimen

namespace Slice.Compiles

variable [Device δ α] {s : Slice α} {overwriting : Bool} {seed : UInt64} {c₀ : Computation α}
  {calls : List (Call α δ)}

/-- What a run that succeeds leaves in the variables.  With every source at its
contents when the run began, the variable of an assignment holds the value of
the assigned node, unless that value lies in the buffer of a variable that an
assignment before this one overwrites; then it holds what the assigned node
shows after the run. -/
theorem assigned_contents (h : s.Compiles overwriting seed c₀) (hfaithful : s.Faithful)
    {device device' : δ} {inputs outs : List (Tensor α)} {c' : Computation α}
    (hrun : (c₀.after calls).run device inputs = (c', device', .ok outs)) :
    ∃ values,
      s.evaluate (s.supply inputs ((c₀.after calls).memory.shown c₀.plan)) = .ok values ∧
      ∀ before a after, s.order = before ++ a :: after → ∀ n target value,
        s.graph.node? a = some n → n.op = .assign target value →
        (¬ s.Overwrites c₀.plan before value →
          c'.memory.shown c₀.plan target = values value) ∧
        (s.Overwrites c₀.plan before value →
          c'.memory.shown c₀.plan target = c'.memory.shown c₀.plan value) := by
  have hliving := h.living calls
  have hc := hliving.bound h.bound.1
  obtain ⟨values, m₁, hev, htracks, hupdated, _, _⟩ :=
    Computation.run_eq_ok hc (hliving.plan_eq ▸ hliving.fits) hfaithful hrun
  rw [← hliving.plan_eq]
  refine ⟨values, hev, fun before a after ho n target value hn hop => ?_⟩
  have hp := hc.planned
  have hid : a ∈ s.order := by simp [ho]
  obtain ⟨q, v, ha⟩ := hp.assigns_of_node hid hn hop
  obtain ⟨hmem, hvalue, hneeded⟩ := hp.assigned_value hid ha
  have hsplit := updates_split ho (runsLast_of_targetOf ha.targetOf_eq)
  have hbefore : ∀ b ∈ before, b ∈ s.order := fun b hb => by simp [ho, hb]
  have hiff := hp.overwrites_iff hbefore hvalue ha.value_place
  rw [Memory.shown_of_place ha.target_place, Memory.shown_of_place ha.value_place, hiff]
  refine ⟨fun hout => ?_, hupdated.late _ a _ hsplit _ _ q v ha⟩
  rw [hupdated.timely _ a _ hsplit _ _ q v ha hout, ← Memory.shown_of_place ha.value_place]
  exact htracks.shown hp hmem hvalue (hneeded _)

end Slice.Compiles

namespace Specimen

/-- Two variables, each of which is assigned the other. -/
def exchange : Specimen where
  operations := [.persistent ⟨[2]⟩ (.fill 1), .persistent ⟨[2]⟩ (.fill 2), .assign ⟨0⟩ ⟨1⟩,
    .assign ⟨1⟩ ⟨0⟩]
  order := [⟨0⟩, ⟨1⟩, ⟨2⟩, ⟨3⟩]
  outputs := [⟨2⟩, ⟨3⟩]
  parameters := []
  accepted := rfl
  roots := by cbv
  compiles := rfl
  faithful := by simp

/-- The second assignment finds what the first one has written: the contents of the
first variable when the run began are lost. -/
theorem exchange_run : ∃ values, exchange.evaluated [] = .ok values ∧
    exchange.left [] ⟨0⟩ = values ⟨1⟩ ∧ exchange.left [] ⟨1⟩ = exchange.left [] ⟨0⟩ ∧
      exchange.left [] ⟨1⟩ ≠ values ⟨0⟩ := by
  have hok : (exchange.run []).2.2.isOk = true := by decide +kernel
  obtain ⟨values, hev, hcontents⟩ :=
    exchange.slice_compiles.assigned_contents exchange.slice_faithful (exchange.run_eq hok)
  have hfirst := (hcontents [⟨0⟩, ⟨1⟩] ⟨2⟩ [⟨3⟩] rfl _ ⟨0⟩ ⟨1⟩ rfl rfl).1
  have hsecond := (hcontents [⟨0⟩, ⟨1⟩, ⟨2⟩] ⟨3⟩ [] rfl _ ⟨1⟩ ⟨0⟩ rfl rfl).2
  have hnone : ∀ a ∈ [⟨0⟩, ⟨1⟩], exchange.slice.targetOf a = none := by decide
  have hbefore : ¬ exchange.slice.Overwrites exchange.compiled.plan [⟨0⟩, ⟨1⟩] ⟨1⟩ := by
    rintro ⟨a, ha, target, htarget, _⟩
    cases (hnone a ha).symm.trans htarget
  have hvalue : values ⟨0⟩ = #[1, 1] := value_eq hev (by decide +kernel)
  refine ⟨values, hev, hfirst hbefore, hsecond ⟨⟨2⟩, by decide, ⟨0⟩, rfl, .self⟩, ?_⟩
  rw [hvalue]
  decide +kernel

end Specimen

namespace Slice.Compiles

variable [Device δ α] {s : Slice α} {overwriting : Bool} {seed : UInt64} {c₀ : Computation α}
  {calls : List (Call α δ)}

/-- What a run that succeeds answers.  With every source at its contents when the
run began, an output that is not an assignment is the value of its node, unless
that lies in the buffer of an assigned variable; then it is what the node shows
after the run. -/
theorem output_values (h : s.Compiles overwriting seed c₀) (hfaithful : s.Faithful)
    {device device' : δ} {inputs outs : List (Tensor α)} {c' : Computation α}
    (hrun : (c₀.after calls).run device inputs = (c', device', .ok outs)) :
    ∃ values,
      s.evaluate (s.supply inputs ((c₀.after calls).memory.shown c₀.plan)) = .ok values ∧
      List.Forall₂ (fun id (t : Tensor α) => t.shape = s.graph.shapeOf id ∧
        (s.runsLast id = false →
          (¬ s.Overwrites c₀.plan s.order id → t.data = values id) ∧
          (s.Overwrites c₀.plan s.order id → t.data = c'.memory.shown c₀.plan id)))
        s.outputs outs := by
  have hliving := h.living calls
  have hc := hliving.bound h.bound.1
  obtain ⟨values, m₁, hev, htracks, hupdated, _, houts⟩ :=
    Computation.run_eq_ok hc (hliving.plan_eq ▸ hliving.fits) hfaithful hrun
  rw [← hliving.plan_eq]
  refine ⟨values, hev, ?_⟩
  have hp := hc.planned
  refine ((List.forall₂_and_left _ _).mpr
    ⟨fun _ hid => hid, List.Forall₂.of_map_eq houts.symm⟩).imp ?_
  rintro id t ⟨hid, ht⟩
  obtain ⟨hshape, hdata⟩ := Prod.mk.inj ht.symm
  refine ⟨hshape, fun hlast => ⟨fun hout => ?_, fun _ => hdata⟩⟩
  have hmem := hp.checked.outputs_mem id hid
  obtain ⟨q, hq⟩ := hp.place_of_mem hmem
  have hiff := hp.overwrites_iff (fun (_ : NodeId) (hb : _ ∈ s.order) => hb) hlast hq
  rw [hdata, ← htracks.shown hp hmem hlast (.inl hid)]
  refine Memory.shown_congr fun r hr => ?_
  cases hq.symm.trans hr
  exact hupdated.kept q (mt hiff.mpr hout)

end Slice.Compiles

namespace Specimen

/-- A variable that is assigned the caller's input, and asked for. -/
def renewal : Specimen where
  operations := [.placeholder ⟨[2]⟩, .persistent ⟨[2]⟩ (.fill 0), .assign ⟨1⟩ ⟨0⟩]
  order := [⟨0⟩, ⟨1⟩, ⟨2⟩]
  outputs := [⟨1⟩, ⟨2⟩]
  parameters := [⟨0⟩]
  accepted := rfl
  roots := by cbv
  compiles := rfl
  faithful := by simp

def pair : Tensor UInt8 := ⟨⟨[2]⟩, #[5, 6], rfl⟩

/-- The variable is answered with its new contents, not with those that it had when
the run began. -/
theorem renewal_run : ∃ values outs, renewal.evaluated [pair] = .ok values ∧
    (renewal.run [pair]).2.2 = .ok outs ∧
    outs.head?.map (·.data) = some (renewal.left [pair] ⟨1⟩) ∧
    outs.head?.map (·.data) ≠ some (values ⟨1⟩) := by
  have hok : (renewal.run [pair]).2.2.isOk = true := by decide +kernel
  obtain ⟨values, hev, houts⟩ :=
    renewal.slice_compiles.output_values renewal.slice_faithful (renewal.run_eq hok)
  obtain ⟨t, rest, ht, _, heq⟩ := List.forall₂_cons_left_iff.mp houts
  have hdata := (ht.2 rfl).2 ⟨⟨2⟩, by decide, ⟨1⟩, rfl, .self⟩
  have hvalue : values ⟨1⟩ = #[0, 0] := value_eq hev (by decide +kernel)
  refine ⟨values, _, hev, Except.eq_ok_get hok, ?_, ?_⟩
  · rw [heq, List.head?_cons, Option.map_some, hdata]
    rfl
  · rw [heq, List.head?_cons, Option.map_some, hdata, hvalue]
    decide +kernel

end Specimen

end TensorGraph
