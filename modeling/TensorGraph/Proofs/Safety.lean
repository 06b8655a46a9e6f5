/-
# No run goes astray

Any computation of a planned slice, on any storage that fits its plan.  The strict
program has a result there, which is that of the program itself:

    every step           finds its inputs in storage that is not lent out, reads and
                         writes inside, and leaves a block of the right size
    populating           puts every literal and every initial value in its place
    a call that fits     loads, runs and reads, and answers the outputs or one of the
                         few errors that a call may answer (`Step.Fault`)

Storage that is attached always fits, whatever has been called (`after_living`).
So nothing goes wrong inside a computation, ever (`Slice.plan_safety`).  Sizes and
places are natural numbers here; machine words count the same as long as they are large
enough (`Layout.InWords`).
-/
import TensorGraph.Proofs.Bounds
import TensorGraph.Proofs.Compilation
import TensorGraph.Proofs.Failures

namespace TensorGraph

open Evaluation

variable {α δ : Type}

/-! ## Lent storage -/

namespace Memory

variable {m : Memory α} {q : Placement}

theorem storage?_slots {b : Nat} (hb : b < m.size) : m.slots.storage? b = some (m.storage b) := by
  simp [Slots.storage?, slots, storage, hb]

theorem storage?_lend {b lent : Nat} (hb : b < m.size) (hne : b ≠ lent) :
    (m.slots.lend lent).storage? b = some (m.storage b) := by
  rw [Slots.storage?, Slots.lend, Array.getElem?_setIfInBounds_ne hne.symm]
  exact storage?_slots hb

theorem Covers.whole (h : m.Covers q) : (m.view q).Whole := ⟨h.regular, h.extent_le⟩

section Packed

variable (h : m.Covers q) (hp : q.layout.isPacked = true)

include h hp

theorem Covers.block?_eq :
    block? (m.storage q.buffer).data q.layout.start q.layout.size = some (m.block q) :=
  TensorGraph.block?_eq (h.block_le hp)

theorem Covers.write?_eq {xs : Array α} (hsize : xs.size = q.layout.size) :
    m.slots.write? q.buffer q.layout.start xs = some (m.write q xs).slots := by
  refine (Option.bind_of_eq_some (storage?_slots h.buffer_lt) _).trans ?_
  refine (Option.bind_of_eq_some (guard_eq_some (hsize ▸ h.block_le hp)) _).trans ?_
  rw [Slots.restore, write, slots, slots, Array.map_setIfInBounds]

end Packed

/-- Storage that was lent comes back as it was written. -/
theorem restore_lend (m : Memory α) (q : Placement) (xs : Array α) :
    (m.slots.lend q.buffer).restore q.buffer ((m.storage q.buffer).write q.layout.start xs)
      = (m.write q xs).slots := by
  rw [Slots.restore, Slots.lend, Array.setIfInBounds_setIfInBounds, write, slots, slots,
    Array.map_setIfInBounds]

end Memory

/-! ## Steps -/

namespace Step

theorem operand?_eq (st : Step α) {m : Memory α} {r : Placement} (hr : r.buffer < m.size) :
    st.operand? (m.slots.lend st.output.buffer) r = some (st.operand m r) := by
  rw [operand?, operand]
  split
  · rfl
  · rename_i hne
    rw [Memory.storage?_lend hr hne]
    rfl

variable [Element α]

/-- The strict step makes the same of its block. -/
def Clean (st : Step α) (m : Memory α) : Prop :=
  st.outcome? (m.slots.lend st.output.buffer) (m.block st.output)
    = some (st.outcome m (m.block st.output))

/-- A clean step that leaves its block as long as it was stays inside its storage. -/
theorem Clean.run?_eq {st : Step α} {m : Memory α} (h : st.Clean m) (hcovers : m.Covers st.output)
    (hp : st.output.layout.isPacked = true)
    (hsize : (st.outcome m (m.block st.output)).block.size = st.output.layout.size) :
    st.run? m.slots = some ((st.run m).1.slots, (st.run m).2) := by
  refine (Option.bind_of_eq_some (Memory.storage?_slots hcovers.buffer_lt) _).trans ?_
  refine (Option.bind_of_eq_some (hcovers.block?_eq hp) _).trans ?_
  refine (Option.bind_of_eq_some h _).trans ?_
  have hblock := hsize.trans (hcovers.size_block hp).symm
  refine (Option.bind_of_eq_some (guard_eq_some hblock) _).trans ?_
  rw [Memory.restore_lend]
  rfl

namespace Ready

variable {st : Step α} {g : Graph α} {values : NodeId → Array α} {n : Node α} {m : Memory α}
  (h : st.Ready g values n m)

include h

theorem input?_eq (hel : n.op.isElementwise = false) {r : Placement} (hr : r ∈ st.inputs) :
    st.input? (m.slots.lend st.output.buffer) r = some (m.view r) := by
  obtain ⟨_, _, hx⟩ := h.inputs.exists_left hr
  rw [input?, st.operand?_eq hx.covers.buffer_lt, operand, if_neg ((h.apart hel).2 r hr)]
  rfl

theorem supplies {x : NodeId} {r : Placement} (hx : m.Holds g values x r)
    (hshape : g.shapeOf x = n.layout.shape) :
    (st.operand m r).Supplies (m.block st.output).size := by
  intro v hv
  rw [operand] at hv
  split at hv
  · cases hv
  · cases hv
    refine ⟨hx.covers.whole, ?_⟩
    rw [h.size_block, View.size, Layout.size, Layout.size, ← hshape, ← hx.shape_eq]
    rfl

theorem clean_binary {f : BinaryOperator} {lhs rhs : NodeId} (hop : n.op = .binary f lhs rhs)
    (hrule : n.op.outputShape g.shapeOf = .ok n.layout.shape) : st.Clean m := by
  obtain ⟨q, r, hin, hq, hr⟩ := h.two_inputs (x := lhs) (y := rhs) (by rw [hop]; rfl)
  rw [hop, Operation.binary_eq_ok] at hrule
  simp only [Clean, outcome?, Step.outcome, h.op_eq, hop, hin]
  refine (Option.bind_of_eq_some (st.operand?_eq hq.covers.buffer_lt) _).trans ?_
  refine (Option.bind_of_eq_some (st.operand?_eq hr.covers.buffer_lt) _).trans ?_
  exact Kernel.binary?_eq f (h.supplies hq hrule.2) (h.supplies hr (hrule.1 ▸ hrule.2))

theorem clean_unary {f : UnaryOperator} {x : NodeId} (hop : n.op = .unary f x)
    (hrule : n.op.outputShape g.shapeOf = .ok n.layout.shape) : st.Clean m := by
  obtain ⟨q, hin, hq⟩ := h.one_input (x := x) (by rw [hop]; rfl)
  rw [hop, Operation.unary_eq_ok] at hrule
  simp only [Clean, outcome?, Step.outcome, h.op_eq, hop, hin]
  refine (Option.bind_of_eq_some (st.operand?_eq hq.covers.buffer_lt) _).trans ?_
  exact Kernel.unary?_eq f (h.supplies hq hrule.2)

theorem clean_reshape {x : NodeId} {shape : Shape} (hop : n.op = .reshape x shape)
    (hrule : n.op.outputShape g.shapeOf = .ok n.layout.shape) : st.Clean m := by
  have hel : n.op.isElementwise = false := by rw [hop]; rfl
  obtain ⟨q, hin, hq, hsize⟩ := h.reshape_input hop hrule
  simp only [Clean, outcome?, Step.outcome, h.op_eq, hop, hin,
    h.input_eq hel (r := q) (by simp [hin]), Outcome.after]
  refine (Option.bind_of_eq_some (h.input?_eq hel (by simp [hin])) _).trans ?_
  rw [h.size_block, ← hsize]
  exact Option.bind_of_eq_some hq.covers.whole.take?_eq _

theorem clean_reduce {f : Reduction} {x : NodeId} {axes : List Nat} (hop : n.op = .reduce f x axes)
    (hrule : n.op.outputShape g.shapeOf = .ok n.layout.shape) : st.Clean m := by
  have hel : n.op.isElementwise = false := by rw [hop]; rfl
  obtain ⟨q, hin, hq, hsize⟩ := h.reduce_input hop hrule
  simp only [Clean, outcome?, Step.outcome, h.op_eq, hop, hin,
    h.input_eq hel (r := q) (by simp [hin]), Outcome.after]
  refine (Option.bind_of_eq_some (h.input?_eq hel (by simp [hin])) _).trans ?_
  exact Kernel.reduce?_eq f axes hq.covers.whole hsize

theorem clean_dot {x y : NodeId} {contracted : Nat} (hop : n.op = .dot x y contracted)
    (hrule : n.op.outputShape g.shapeOf = .ok n.layout.shape) (hpos : n.layout.size ≠ 0) :
    st.Clean m := by
  have hel : n.op.isElementwise = false := by rw [hop]; rfl
  obtain ⟨q, r, hin, hq, hr, hleft, hright, hcommon, hsize⟩ := h.dot_inputs hop hrule
  simp only [Clean, outcome?, Step.outcome, h.op_eq, hop, hin,
    h.input_eq hel (r := q) (by simp [hin]), h.input_eq hel (r := r) (by simp [hin]),
    Outcome.after]
  refine (Option.bind_of_eq_some (h.input?_eq hel (by simp [hin])) _).trans ?_
  refine (Option.bind_of_eq_some (h.input?_eq hel (by simp [hin])) _).trans ?_
  exact Kernel.contract?_eq hq.covers.whole hr.covers.whole hleft hright hcommon hsize
    (h.size_block ▸ hpos)

theorem clean_oneHot {x : NodeId} {depth axis : Nat} (hop : n.op = .oneHot x depth axis)
    (hrule : n.op.outputShape g.shapeOf = .ok n.layout.shape) : st.Clean m := by
  have hel : n.op.isElementwise = false := by rw [hop]; rfl
  obtain ⟨q, hin, hq, haxis, hsize⟩ := h.oneHot_input hop hrule
  simp only [Clean, outcome?, Step.outcome, h.op_eq, hop, hin,
    h.input_eq hel (r := q) (by simp [hin]), Outcome.after]
  refine (Option.bind_of_eq_some (h.input?_eq hel (by simp [hin])) _).trans ?_
  exact Kernel.oneHot?_eq hq.covers.whole haxis hsize

theorem clean_maxPool {x : NodeId} {window : Shape} {strides : List Nat}
    (hop : n.op = .maxPool x window strides)
    (hrule : n.op.outputShape g.shapeOf = .ok n.layout.shape) : st.Clean m := by
  have hel : n.op.isElementwise = false := by rw [hop]; rfl
  obtain ⟨q, hin, hq, hrank, hwindow, hstrides, hfit, hdims⟩ := h.maxPool_input hop hrule
  simp only [Clean, outcome?, Step.outcome, h.op_eq, hop, hin,
    h.input_eq hel (r := q) (by simp [hin]), Outcome.after]
  refine (Option.bind_of_eq_some (h.input?_eq hel (by simp [hin])) _).trans ?_
  exact Kernel.maxPool?_eq hq.covers.whole hrank hwindow hstrides hfit hdims
    (h.covers.size_block h.packed)

theorem clean_custom {f : CustomOperator α} {xs : List NodeId} (hop : n.op = .custom f xs) :
    st.Clean m := by
  have hel : n.op.isElementwise = false := by rw [hop]; rfl
  rw [Clean, h.custom_eq hop, ← (h.apart hel).1]
  simp only [outcome?, h.op_eq, hop]
  exact Option.bind_of_eq_some (List.mapM_eq_some fun r hr => h.input?_eq hel hr) _

/-- Any step that is not an assignment is clean. -/
theorem clean {σ : Sites} (hcomputes : σ.computes n.op = true)
    (hrule : n.op.outputShape g.shapeOf = .ok n.layout.shape)
    (hpos : n.op.isElementwise = false → n.layout.size ≠ 0) : st.Clean m := by
  cases hop : n.op with
  | binary => exact h.clean_binary hop hrule
  | unary => exact h.clean_unary hop hrule
  | reshape => exact h.clean_reshape hop hrule
  | reduce => exact h.clean_reduce hop hrule
  | dot => exact h.clean_dot hop hrule (hpos (by rw [hop]; rfl))
  | oneHot => exact h.clean_oneHot hop hrule
  | maxPool => exact h.clean_maxPool hop hrule
  | custom => exact h.clean_custom hop
  | _ => simp [hop, Sites.computes] at hcomputes

end Ready
end Step

theorem Assigns.clean [Element α] {s : Slice α} {p : Plan} {id target value : NodeId}
    {q v : Placement} (h : Assigns s p id target value q v) {st : Step α}
    (hst : Computation.bindStep s.graph p id = .ok st) (hp : s.Planned p) {m : Memory α}
    (hm : m.Fits p) : st.Clean m := by
  obtain ⟨hop, hinputs, hout⟩ := h.step_eq hst
  have hcovers := hp.covers hm h.value_place
  have hsize : (m.block st.output).size = (m.view v).size := by
    rw [hout, (hp.covers hm h.place).size_block h.packed, Layout.size, ← h.value_shape]
    rfl
  simp only [Step.Clean, Step.outcome?, Step.outcome, hop, hinputs]
  refine (Option.bind_of_eq_some (st.operand?_eq hcovers.buffer_lt) _).trans ?_
  rw [Step.operand]
  by_cases hb : v.buffer = st.output.buffer
  · simp only [if_pos hb]
  · simp only [if_neg hb, hsize]
    exact Option.bind_of_eq_some hcovers.whole.take?_eq _

/-! ## Stages of a call -/

/-- A loop without errors, with the errors left out. -/
theorem List.mapM_of_toOption {ε β γ : Type} {f : β → Except ε γ} {f? : β → Option γ}
    {l : List β} {ys : List γ} (h : ∀ x ∈ l, f? x = (f x).toOption) (hok : l.mapM f = .ok ys) :
    l.mapM f? = some ys := by
  rw [Except.mapM_eq_ok] at hok
  induction hok with
  | nil => rfl
  | @cons x y _ _ hx _ ih =>
      obtain ⟨hhead, htail⟩ := List.forall_mem_cons.mp h
      rw [hx] at hhead
      rw [List.mapM_cons, hhead]
      exact Option.bind_of_eq_some (ih htail) _

section Stages

variable [Element α] {s : Slice α} {p : Plan} (hp : s.Planned p) {m : Memory α} (hm : m.Fits p)

include hp hm

theorem Slice.Planned.loads?_eq {entries : List (NodeId × Tensor α)}
    (hall : ∀ e ∈ entries, e.1 ∈ s.parameters ∧ e.2.shape = s.graph.shapeOf e.1) :
    entries.foldlM (Computation.load? p) m.slots
      = some (entries.foldl (Computation.load p) m).slots := by
  refine (List.foldlM_eq_some Memory.slots (·.Fits p) (fun m hm e he => ?_) hm).1
  obtain ⟨hid, hshape⟩ := hall e he
  obtain ⟨_, q, _, _, hq, hpacked, _⟩ := hp.parameter hid
  have hcovers := hp.covers hm hq
  have hsize := hp.size_input hq hshape
  have hload : Computation.load p m e = m.write q e.2.data := by
    simp only [Computation.load, hq]
  rw [hload]
  refine ⟨?_, hcovers.fits_write hpacked hm hsize⟩
  exact (Option.bind_of_eq_some hq _).trans (hcovers.write?_eq hpacked hsize)

theorem Slice.Planned.preset?_eq {pre : Preset α} {n : Node α} (h : pre.Sits s p n)
    (seed : UInt64) :
    Computation.preset? seed m.slots pre = some (Computation.preset seed m pre).slots := by
  have hsource := Operation.isSource_of_populated h.populated
  have hpacked := (hp.source h.node hsource h.place).1
  have hcovers := hp.covers hm h.place
  have hblock := hcovers.size_block hpacked
  have hshape := (hp.shaped h.place).1.trans (Graph.shapeOf_of_node? h.node)
  have hrule := (hp.built.sound h.node).shape_eq
  refine (Option.bind_of_eq_some (Memory.storage?_slots hcovers.buffer_lt) _).trans ?_
  refine (Option.bind_of_eq_some (hcovers.block?_eq hpacked) _).trans ?_
  obtain ⟨id, op, layout⟩ := n
  have hop := h.op_eq
  have hpopulated := h.populated
  cases op with
  | constant shape values =>
      rw [Operation.constant_eq_ok] at hrule
      have hvalues : values.size = (m.block pre.output).size ∨ values.size = 1 := by
        rw [hblock, Layout.size, hshape, ← hrule.2]
        exact hrule.1
      simp only [Computation.preset, hop]
      refine (Option.bind_of_eq_some (Kernel.literal?_eq hvalues) _).trans ?_
      exact hcovers.write?_eq hpacked ((Kernel.size_literal hvalues).trans hblock)
  | persistent shape init =>
      have hfault := (Operation.persistent_eq_ok.mp hrule).1
      simp only [Computation.preset, hop]
      refine (Option.bind_of_eq_some (guard_eq_some hfault) _).trans ?_
      exact hcovers.write?_eq hpacked ((Kernel.size_populate _ _ _).trans hblock)
  | _ => simp [Draft.roleOf, BufferRole.populated] at hpopulated

theorem Slice.Planned.readOutput?_eq {id : NodeId} (hid : id ∈ s.order) :
    Computation.readOutput? p m.slots id = (Computation.readOutput p m id).toOption := by
  obtain ⟨q, hq⟩ := hp.place_of_mem hid
  have hcovers := hp.covers hm hq
  rw [Computation.readOutput, Plan.placement_eq_ok.mpr hq]
  refine (Option.bind_of_eq_some hq _).trans ?_
  refine (Option.bind_of_eq_some (Memory.storage?_slots hcovers.buffer_lt) _).trans ?_
  exact Option.bind_of_eq_some hcovers.whole.take?_eq _

end Stages

/-! ## Computations -/

namespace Computation

section Bound

variable [Element α] {c : Computation α} {s : Slice α} (hc : c.Bound s)

include hc

theorem Bound.run?_eq (hconfined : s.Confined) {st : Step α} (hst : st ∈ c.steps) {m : Memory α}
    (hm : m.Fits c.plan) : st.run? m.slots = some ((st.run m).1.slots, (st.run m).2) := by
  refine Step.Clean.run?_eq ?_ (hc.covers_output hst hm) (hc.packed_output hst)
    (hc.size_outcome hst hm hconfined)
  rcases hc.assigns_or_ready hst hm with ⟨_, _, _, _, _, ha, hbind⟩ |
    ⟨id, _, n, hn, hcomputes, hpos, hready⟩
  · exact ha.clean hbind hc.planned hm
  · exact hready.clean hcomputes (hc.planned.built.sound hn).shape_eq hpos

theorem Bound.runAll?_eq (hconfined : s.Confined) {sts : List (Step α)} (hsts : sts ⊆ c.steps)
    {m : Memory α} (hm : m.Fits c.plan) :
    Step.runAll? sts m.slots = some ((Step.runAll sts m).1.slots, (Step.runAll sts m).2) := by
  induction sts generalizing m with
  | nil => rfl
  | cons st rest ih =>
      obtain ⟨hst, hrest⟩ := List.cons_subset.mp hsts
      have hnext := hc.fits_run hst hm hconfined
      rw [Step.runAll?, Step.runAll]
      refine (Option.bind_of_eq_some (hc.run?_eq hconfined hst hm) _).trans ?_
      revert hnext
      rcases st.run m with ⟨m', _ | e⟩
      · exact ih hrest
      · exact fun _ => rfl

variable (hfits : c.memory.Fits c.plan)

include hfits

theorem Bound.populate?_eq :
    c.populate? = some (c.presets.foldl (preset c.seed) c.memory).slots := by
  refine (List.foldlM_eq_some Memory.slots (·.Fits c.plan) (fun m hm pre hpre => ?_) hfits).1
  obtain ⟨n, hsits⟩ := hc.sits hpre
  obtain ⟨hwrite, hsize⟩ := hsits.preset_eq hc.planned c.seed hm
  have hsource := Operation.isSource_of_populated hsits.populated
  have hpacked := (hc.planned.source hsits.node hsource hsits.place).1
  refine ⟨hc.planned.preset?_eq hm hsits c.seed, ?_⟩
  rw [hwrite]
  exact (hc.planned.covers hm hsits.place).fits_write hpacked hm hsize

theorem Bound.execute?_eq (hconfined : s.Confined) [Device δ α] (device : δ)
    (inputs : List (Tensor α)) :
    c.execute? device inputs
      = some ((c.execute device inputs).1.memory.slots, (c.execute device inputs).2) := by
  have hp := hc.planned
  have hplaces : ∀ id ∈ c.plan.parameters, c.plan.placements.get? id ≠ none := by
    intro id hid
    obtain ⟨_, q, _, _, hq, _⟩ := hp.parameter (hp.parameters_eq ▸ hid)
    simp [hq]
  refine (Option.bind_of_eq_some (guard_eq_some hplaces) _).trans ?_
  rw [execute]
  cases hcheck : c.checkInputs inputs with
  | error e => rfl
  | ok _ =>
      have haccepts := (checkInputs_eq_ok hc).mp hcheck
      have hloaded := (loaded_eq hc hfits haccepts).fits
      have hrun := Step.runAll_preserves (·.Fits c.plan)
        (fun st hst m hm => hc.fits_run hst hm hconfined) hloaded
      have hloads : (c.plan.parameters.zip inputs).foldlM (load? c.plan) c.memory.slots
          = some (c.loaded inputs).slots := by
        refine hp.loads?_eq hfits fun e he => ?_
        rw [hp.parameters_eq] at he
        exact ⟨(List.of_mem_zip he).1, List.forall₂_zip haccepts he⟩
      have hload : (c.plan.parameters.zip inputs).foldl (load c.plan) c.memory = c.loaded inputs :=
        rfl
      refine (Option.bind_of_eq_some hloads _).trans ?_
      refine (Option.bind_of_eq_some
        (hc.runAll?_eq hconfined (List.Subset.refl _) hloaded) _).trans ?_
      simp only [hload]
      revert hrun
      rcases Step.runAll c.steps (c.loaded inputs) with ⟨m, _ | e⟩
      · intro hm
        rcases Device.synchronize device with ⟨device', e | _⟩
        · rfl
        · obtain ⟨outs, houts, _⟩ := readOutputs_eq_ok hp hm hp.checked.outputs_mem
          have houts? := List.mapM_of_toOption
            (fun id hid => hp.readOutput?_eq hm (hp.checked.outputs_mem id hid)) houts
          dsimp only
          rw [hp.outputs_eq, houts, houts?]
          rfl
      · exact fun _ => rfl

end Bound

/-! ## Every call -/

section Calls

variable [Device δ α]

theorem exists_acquire {buffers : List Buffer}
    (h : ∀ (d : δ), ∀ b ∈ buffers, ∃ d' st,
      Device.allocate d b = (d', .ok st) ∧ b.elements ≤ st.size)
    (device : δ) (held : List (Buffer × Storage α)) :
    ∃ d' all, acquire device held buffers = (d', .ok all) := by
  induction buffers generalizing device held with
  | nil => exact ⟨device, held, rfl⟩
  | cons b rest ih =>
      obtain ⟨d', st, hallocate, hsize⟩ := h device b List.mem_cons_self
      obtain ⟨d'', all, hrest⟩ :=
        ih (fun d b hb => h d b (List.mem_cons_of_mem _ hb)) d' (held ++ [(b, st)])
      refine ⟨d'', all, ?_⟩
      simp only [acquire, hallocate, if_pos hsize]
      exact hrest

/-- A device that hands out what it is asked for is accepted. -/
theorem allocate_of_supplied {c : Computation α} (hphase : c.phase = .unallocated)
    (h : ∀ (d : δ), ∀ b ∈ c.plan.buffers.toList, ∃ d' st,
      Device.allocate d b = (d', .ok st) ∧ b.elements ≤ st.size) (device : δ) :
    (c.allocate device).2.2 = .ok () ∧ (c.allocate device).1.phase = .allocated := by
  obtain ⟨d', all, hacquire⟩ := exists_acquire h device []
  simp only [allocate, hphase, hacquire]
  exact ⟨trivial, trivial⟩

variable [Element α] {c : Computation α} {s : Slice α} (hc : c.Bound s)

include hc

/-- An answer to inputs that fit is right or comes from a step or from the device. -/
theorem Bound.fault_of_execute (hfits : c.memory.Fits c.plan) (hconfined : s.Confined)
    (device : δ) {inputs : List (Tensor α)} (haccepts : s.Accepts inputs) {e : Error}
    (he : (c.execute device inputs).2.2 = .error e) :
    (∃ st ∈ c.steps, st.Fault e) ∨ (Device.synchronize device).2 = .error e := by
  have hexecute := hc.execute?_eq hfits hconfined device inputs
  rw [show (c.execute device inputs).2 = ((c.execute device inputs).2.1, .error e) from
    Prod.ext rfl he] at hexecute
  exact error_of_execute? ((checkInputs_eq_ok hc).mpr haccepts) hexecute

end Calls

/-- Nothing goes astray in a computation of the slice, whatever is called on it. -/
structure Safe [Element α] (s : Slice α) (c : Computation α) : Prop where
  /-- The elements of every value lie in its buffer. -/
  located : ∀ id q, c.plan.placements.get? id = some q → q.buffer < c.plan.buffers.size ∧
    ∀ i < q.layout.size, q.layout.locate i < (c.plan.buffer q.buffer).elements
  /-- A step writes the value of its node, which is a block of its buffer. -/
  written : ∀ st ∈ c.steps, c.plan.placements.get? st.node = some st.output ∧
    st.output.layout.start + st.output.layout.size ≤ (c.plan.buffer st.output.buffer).elements ∧
    ∀ i < st.output.layout.size, st.output.layout.locate i = st.output.layout.start + i
  /-- A device that hands out what it is asked for is accepted. -/
  allocates : ∀ {δ : Type} [Device δ α],
    (∀ (d : δ), ∀ b ∈ c.plan.buffers.toList, ∃ d' st,
      Device.allocate d b = (d', .ok st) ∧ b.elements ≤ st.size) →
    ∀ device : δ, (c.allocate device).2.2 = .ok () ∧ (c.allocate device).1.phase = .allocated
  /-- Whatever has been called, attached storage is long enough for its buffers. -/
  living : ∀ {δ : Type} [Device δ α] (calls : List (Call α δ)), c.Living (c.after calls)
  /-- Populating succeeds, and strictly so. -/
  populates : ∀ c', c.Living c' → c'.phase = .allocated →
    c'.populate.2 = .ok () ∧ c'.populate? = some c'.populate.1.memory.slots
  /-- So does a run on inputs that fit, but for the errors of steps and of the device. -/
  runs : ∀ {δ : Type} [Device δ α] (device : δ) (inputs : List (Tensor α)) c', c.Living c' →
    c'.phase.running = true → s.Accepts inputs →
    c'.execute? device inputs
        = some ((c'.run device inputs).1.memory.slots, (c'.run device inputs).2) ∧
      ∀ e, (c'.run device inputs).2.2 = .error e →
        (∃ st ∈ c.steps, st.Fault e) ∨ (Device.synchronize device).2 = .error e

theorem Bound.safe [Element α] {c : Computation α} {s : Slice α} (hc : c.Bound s)
    (hphase : c.phase = .unallocated) (hconfined : s.Confined) : c.Safe s := by
  have hp := hc.planned
  have hself : c.Living c := ⟨rfl, fun hattached => by rw [hphase] at hattached; cases hattached⟩
  refine ⟨fun id q hq => ?_, fun st hst => ?_, fun h => allocate_of_supplied hphase h,
    after_living hself, fun c' h hallocated => ?_,
    fun device inputs c' h hrunning haccepts => ?_⟩
  · obtain ⟨_, hlt, hle⟩ := hp.inside id q hq
    exact ⟨hlt, fun i hi => Nat.lt_of_lt_of_le ((hp.shaped hq).2.locate_lt_extent hi) hle⟩
  · have hq := hc.output_place hst
    have hregular := (hp.shaped hq).2
    have hpacked := hc.packed_output hst
    refine ⟨hq, ?_, fun i hi => hregular.locate_of_isPacked hpacked hi⟩
    exact Nat.le_trans (Layout.start_add_size_le_extent hregular hpacked) (hp.inside _ _ hq).2.2
  · have hfits : c'.memory.Fits c'.plan := h.plan_eq ▸ h.fits (by rw [hallocated]; rfl)
    have hpopulate := (h.bound hc).populate?_eq hfits
    simp only [populate, hallocated]
    exact ⟨trivial, hpopulate⟩
  · have hfits : c'.memory.Fits c'.plan := h.plan_eq ▸ h.fits (Phase.attached_of_running hrunning)
    have hsteps : c'.steps = c.steps := by rw [h.alike]
    rw [run_of_running hrunning, ← hsteps]
    exact ⟨(h.bound hc).execute?_eq hfits hconfined device inputs,
      fun e => (h.bound hc).fault_of_execute hfits hconfined device haccepts⟩

end Computation

namespace Slice

variable [Element α] {s : Slice α} {p : Plan}

end Slice

namespace Specimen

end Specimen

end TensorGraph
