/-
# States that cannot be told apart

A plan says how many elements a buffer needs; storage may be longer.  What one call hands on
to the next are the planned elements of the constants and variables, and nothing else:

    m.held p b                              the planned elements of the buffer `b`
    Resembles c₀ c d                        two states of one computation, of one phase and
                                            with the same held in all constants and variables
    Resembles c₀ c d, a run on both    ⟹    the same answer, and they still do   (`Resembles.run`)

Every value of a plan lies inside the planned elements (`Planned.gather_congr`), and so does
all that is written (`Planned.held_write`).  Inside a run the same relation is kept between
two memories (`Alike`), which also have to show the same for whatever is still needed; the
assignments at the end of a run write the same to both.
-/
import TensorGraph.Proofs.Compilation

namespace TensorGraph

open Evaluation

variable {α δ : Type}

/-! ## The planned elements -/

namespace Storage

theorem getElem?_write {s : Storage α} {start : Nat} {block : Array α}
    (h : start + block.size ≤ s.size) (j : Nat) :
    (s.write start block).data[j]?
      = if start ≤ j ∧ j < start + block.size then block[j - start]? else s.data[j]? := by
  simp only [size] at h
  simp only [write, Array.getElem?_append, Array.getElem?_extract, Array.size_append,
    Array.size_extract]
  grind

theorem block_zero_eq_iff {s t : Storage α} {k : Nat} :
    s.block 0 k = t.block 0 k ↔ ∀ j < k, s.data[j]? = t.data[j]? := by
  have get (s : Storage α) (j : Nat) :
      (s.block 0 k)[j]? = if j < k then s.data[j]? else none := by
    simp only [block, Array.getElem?_extract]
    grind
  constructor
  · intro h j hj
    have hget := congrArg (·[j]?) h
    simpa only [get, if_pos hj] using hget
  · intro h
    refine Array.ext_getElem? fun j => ?_
    rw [get, get]
    split
    · rename_i hj
      exact h j hj
    · rfl

/-- Storage that began with the same elements does so after it was written to. -/
theorem block_write_congr {s t : Storage α} {k start : Nat} {block : Array α}
    (h : s.block 0 k = t.block 0 k) (hs : k ≤ s.size) (ht : k ≤ t.size)
    (hk : start + block.size ≤ k) :
    (s.write start block).block 0 k = (t.write start block).block 0 k := by
  rw [block_zero_eq_iff] at h ⊢
  intro j hj
  rw [getElem?_write (Nat.le_trans hk hs), getElem?_write (Nat.le_trans hk ht), h j hj]

end Storage

/-- The planned elements of a buffer. -/
def Memory.held (m : Memory α) (p : Plan) (b : Nat) : Array α :=
  (m.storage b).block 0 (p.buffer b).elements

theorem Memory.held_congr {m n : Memory α} {p : Plan} {b : Nat}
    (h : m.storage b = n.storage b) : m.held p b = n.held p b := by
  rw [held, held, h]

namespace Slice.Planned

variable [Element α] {s : Slice α} {p : Plan} (hp : s.Planned p) {m n : Memory α}
  {id : NodeId} {q : Placement} (hq : p.placements.get? id = some q)

include hp hq

/-- What a place shows lies in the planned elements of its buffer. -/
theorem gather_congr (h : m.held p q.buffer = n.held p q.buffer) :
    (m.view q).gather = (n.view q).gather := by
  have hregular := (hp.shaped hq).2
  obtain ⟨_, _, hextent⟩ := hp.inside id q hq
  have hsame := Storage.block_zero_eq_iff.mp h
  rw [View.gather_eq_tabulate, View.gather_eq_tabulate]
  refine tabulate_congr fun i hi => ?_
  have hlt := Nat.lt_of_lt_of_le (hregular.locate_lt_extent hi) hextent
  simp only [View.get, Memory.view, Array.getD_eq_getD_getElem?, hsame _ hlt]

/-- A block that is written to a packed place lies there, too. -/
theorem held_write (hpacked : q.layout.isPacked = true) (hm : m.Fits p) (hn : n.Fits p)
    {xs : Array α} (hsize : xs.size = q.layout.size) {b : Nat} (h : m.held p b = n.held p b) :
    (m.write q xs).held p b = (n.write q xs).held p b := by
  have hregular := (hp.shaped hq).2
  obtain ⟨_, hlt, hextent⟩ := hp.inside id q hq
  rw [Memory.held, Memory.held, Memory.storage_write, Memory.storage_write, hm.size_eq, hn.size_eq]
  split
  · rename_i hb
    obtain ⟨rfl, -⟩ := hb
    refine Storage.block_write_congr h (hm.enough _ hlt) (hn.enough _ hlt) ?_
    rw [hsize]
    exact Nat.le_trans (Layout.start_add_size_le_extent hregular hpacked) hextent
  · exact h

end Slice.Planned

/-! ## Two memories in one run -/

/-- Two memories that differ in nothing that the rest of a run, or a later one, looks at. -/
structure Alike [Element α] (s : Slice α) (p : Plan) (m n : Memory α) : Prop where
  fits : m.Fits p ∧ n.Fits p
  populated : ∀ b r, p.sites.role b = some r → r.populated = true → m.held p b = n.held p b
  needed : ∀ id ∈ s.order, s.runsLast id = false → s.NeededFrom s.order.length id →
    m.shown p id = n.shown p id

section Alike

variable [Element α] {s : Slice α} {p : Plan} {m n : Memory α}

/-- An assignment writes the same to both. -/
theorem Alike.assign (h : Alike s p m n) (hp : s.Planned p) {a : NodeId} (ha : a ∈ s.updates) :
    Alike s p (m.assign s.graph p a) (n.assign s.graph p a) := by
  obtain ⟨haorder, hlast⟩ := List.mem_filter.mp ha
  obtain ⟨target, value, q, v, has⟩ := hp.assigns haorder hlast
  rw [has.assign_eq, has.assign_eq]
  obtain ⟨hmem, hcomputed, hneeded⟩ := hp.assigned_value haorder has
  have hvalue : (m.view v).gather = (n.view v).gather := by
    rw [← Memory.shown_of_place has.value_place, ← Memory.shown_of_place has.value_place]
    exact h.needed value hmem hcomputed (hneeded _)
  have hsize : (n.view v).gather.size = q.layout.size := by
    rw [View.size_gather, Layout.size, ← has.value_shape]
    rfl
  rw [hvalue]
  have hpopulated : ∀ b r, p.sites.role b = some r → r.populated = true →
      (m.write q (n.view v).gather).held p b = (n.write q (n.view v).gather).held p b :=
    fun b r hrole hr => hp.held_write has.place has.packed h.fits.1 h.fits.2 hsize
      (h.populated b r hrole hr)
  refine ⟨⟨(hp.covers h.fits.1 has.place).fits_write has.packed h.fits.1 hsize,
    (hp.covers h.fits.2 has.place).fits_write has.packed h.fits.2 hsize⟩, hpopulated,
    fun id hid hidlast hneeded => ?_⟩
  obtain ⟨r, hr⟩ := hp.place_of_mem hid
  rw [Memory.shown_of_place hr, Memory.shown_of_place hr]
  by_cases hb : r.buffer = q.buffer
  · exact hp.gather_congr hr (hpopulated r.buffer _ (hb ▸ has.role) rfl)
  · rw [Memory.view_write_of_ne _ _ hb, Memory.view_write_of_ne _ _ hb,
      ← Memory.shown_of_place hr, ← Memory.shown_of_place hr]
    exact h.needed id hid hidlast hneeded

theorem Alike.foldl (h : Alike s p m n) (hp : s.Planned p) {as : List NodeId}
    (has : ∀ a ∈ as, a ∈ s.updates) :
    Alike s p (as.foldl (Memory.assign s.graph p) m) (as.foldl (Memory.assign s.graph p) n) := by
  induction as generalizing m n with
  | nil => exact h
  | cons a rest ih =>
      obtain ⟨ha, hrest⟩ := List.forall_mem_cons.mp has
      exact ih (h.assign hp ha) hrest

/-- Both show the same outputs. -/
theorem Alike.outputs (h : Alike s p m n) (hp : s.Planned p) {id : NodeId} (hid : id ∈ s.outputs) :
    m.shown p id = n.shown p id := by
  have hmem := hp.checked.outputs_mem id hid
  cases hlast : s.runsLast id with
  | false => exact h.needed id hmem hlast (.inl hid)
  | true =>
      obtain ⟨target, value, q, v, has⟩ := hp.assigns hmem hlast
      rw [Memory.shown_of_place has.place, Memory.shown_of_place has.place]
      exact hp.gather_congr has.place (h.populated q.buffer _ has.role rfl)

/-- After the steps before the assignments, memories with the same values are alike. -/
theorem Tracks.alike (hp : s.Planned p) {values : NodeId → Array α} {start start' : Memory α}
    (hm : Tracks s p start s.order values m) (hn : Tracks s p start' s.order values n)
    (hpopulated : ∀ b r, p.sites.role b = some r → r.populated = true → m.held p b = n.held p b) :
    Alike s p m n := by
  refine ⟨⟨hm.undisturbed.fits, hn.undisturbed.fits⟩, hpopulated, fun id hid hlast hneeded => ?_⟩
  rw [hm.shown hp hid hlast hneeded, hn.shown hp hid hlast hneeded]

end Alike

/-! ## Two computations -/

theorem Tensor.shape_data_injective :
    Function.Injective fun t : Tensor α => (t.shape, t.data) := by
  rintro ⟨shape, data, _⟩ ⟨shape', data', _⟩ h
  cases h
  rfl

namespace Computation

theorem Living.checkInputs_eq {c₀ c : Computation α} (h : c₀.Living c) (inputs : List (Tensor α)) :
    c.checkInputs inputs = c₀.checkInputs inputs := by
  rw [h.alike]
  rfl

/-- Two states of one computation that hold the same in all constants and variables. -/
structure Resembles (c₀ c d : Computation α) : Prop where
  living : c₀.Living c ∧ c₀.Living d
  phase_eq : c.phase = d.phase
  populated : ∀ b r, c₀.plan.sites.role b = some r → r.populated = true →
    c.memory.held c₀.plan b = d.memory.held c₀.plan b

theorem Resembles.of_memory {c₀ : Computation α} {m n : Memory α} (hm : m.Fits c₀.plan)
    (hn : n.Fits c₀.plan) (ph : Phase) (hpopulated : ∀ b r, c₀.plan.sites.role b = some r →
      r.populated = true → m.held c₀.plan b = n.held c₀.plan b) :
    Resembles c₀ { c₀ with memory := m, phase := ph } { c₀ with memory := n, phase := ph } :=
  ⟨⟨⟨rfl, fun _ => hm⟩, ⟨rfl, fun _ => hn⟩⟩, rfl, hpopulated⟩

theorem Resembles.shown [Element α] {c₀ c d : Computation α} {s : Slice α} (h : Resembles c₀ c d)
    (hp : s.Planned c₀.plan) {id : NodeId} {n : Node α} (hn : s.graph.node? id = some n)
    (hpopulated : (Draft.roleOf n.op).populated = true) :
    d.memory.shown c₀.plan id = c.memory.shown c₀.plan id := by
  cases hq : c₀.plan.placements.get? id with
  | none => rw [Memory.shown, Memory.shown, hq]
  | some q =>
      have hrole := (hp.source hn (Operation.isSource_of_populated hpopulated) hq).2
      rw [Memory.shown_of_place hq, Memory.shown_of_place hq]
      exact hp.gather_congr hq (h.populated q.buffer _ hrole hpopulated).symm

section Runs

variable [Element α] [Device δ α] {c₀ c d : Computation α} {s : Slice α} (hc₀ : c₀.Bound s)
  (hfaithful : s.Faithful) (device : δ) (inputs : List (Tensor α))

include hc₀ hfaithful

/-- A run on two states that resemble each other has one answer, and they still do. -/
theorem Resembles.execute (h : Resembles c₀ c d) (hattached : c.phase.attached = true) :
    (c.execute device inputs).2 = (d.execute device inputs).2 ∧
      Resembles c₀ (c.execute device inputs).1 (d.execute device inputs).1 := by
  have hc := h.living.1.bound hc₀
  have hd := h.living.2.bound hc₀
  have hfc := h.living.1.fits hattached
  have hfd := h.living.2.fits (h.phase_eq ▸ hattached)
  cases hcheck : c₀.checkInputs inputs with
  | error e =>
      rw [execute_of_check device ((h.living.1.checkInputs_eq inputs).trans hcheck),
        execute_of_check device ((h.living.2.checkInputs_eq inputs).trans hcheck)]
      exact ⟨rfl, h⟩
  | ok _ =>
      have hp := hc₀.planned
      have haccepts := (checkInputs_eq_ok hc₀).mp hcheck
      have hshown : ∀ id ∈ s.order, ∀ n, s.graph.node? id = some n →
          (Draft.roleOf n.op).populated = true →
          d.memory.shown c₀.plan id = c.memory.shown c₀.plan id :=
        fun _ _ _ hn hpopulated => h.shown hp hn hpopulated
      -- both are the bound computation with a memory and a phase of their own
      obtain ⟨m₀, ph, rfl⟩ : ∃ m ph, c = { c₀ with memory := m, phase := ph } :=
        ⟨_, _, h.living.1.alike⟩
      obtain ⟨n₀, ph', rfl⟩ : ∃ m ph, d = { c₀ with memory := m, phase := ph } :=
        ⟨_, _, h.living.2.alike⟩
      obtain rfl : ph = ph' := h.phase_eq
      have hspared : ∀ m n : Memory α, Undisturbed c₀.plan _ m → Undisturbed c₀.plan _ n →
          ∀ b r, c₀.plan.sites.role b = some r → r.populated = true →
            m.held c₀.plan b = n.held c₀.plan b :=
        fun m n hm hn b r hb hr =>
          (Memory.held_congr (undisturbed_frame hc hfc haccepts hm hb hr)).trans
            ((h.populated b r hb hr).trans
              (Memory.held_congr (undisturbed_frame hd hfd haccepts hn hb hr)).symm)
      have hcallc := execute_of_accepts hc device hfc hfaithful haccepts
        (supply_sourced hc hfc haccepts (m₀.shown c₀.plan) fun _ _ _ _ _ => rfl)
      have hcalld := execute_of_accepts hd device hfd hfaithful haccepts
        (supply_sourced hd hfd haccepts _ hshown)
      cases hev : s.evaluate (s.supply inputs (m₀.shown c₀.plan)) with
      | error e =>
          simp only [hev] at hcallc hcalld
          obtain ⟨m, hm, hexc⟩ := hcallc
          obtain ⟨n, hn, hexd⟩ := hcalld
          rw [hexc, hexd]
          exact ⟨rfl, .of_memory hm.fits hn.fits ph (hspared m n hm hn)⟩
      | ok values =>
          simp only [hev] at hcallc hcalld
          obtain ⟨m₁, m₂, outs, hm₁, hm₂, hum, houts, hexc⟩ := hcallc
          obtain ⟨n₁, n₂, outs', hn₁, hn₂, hun, houts', hexd⟩ := hcalld
          have halike : Alike s c₀.plan m₂ n₂ := by
            have hbefore := hm₁.alike hp hn₁ (hspared _ _ hm₁.undisturbed hn₁.undisturbed)
            rw [hm₂, hn₂]
            exact hbefore.foldl hp fun _ ha => ha
          have heq : outs = outs' := by
            refine List.map_injective_iff.mpr Tensor.shape_data_injective ?_
            rw [houts, houts']
            exact List.map_congr_left fun id hid => by rw [halike.outputs hp hid]
          rw [hexc, hexd, heq]
          rcases Device.synchronize device with ⟨device', e | _⟩
          · exact ⟨rfl, .of_memory hum.fits hun.fits ph halike.populated⟩
          · exact ⟨rfl, .of_memory hum.fits hun.fits .ready halike.populated⟩

theorem Resembles.run (h : Resembles c₀ c d) :
    (c.run device inputs).2 = (d.run device inputs).2 ∧
      Resembles c₀ (c.run device inputs).1 (d.run device inputs).1 := by
  rw [Computation.run, Computation.run, ← h.phase_eq]
  cases hph : c.phase with
  | released | unallocated | allocated => exact ⟨rfl, h⟩
  | populated | ready => exact h.execute hc₀ hfaithful device inputs (by rw [hph]; rfl)

end Runs

end Computation
end TensorGraph
