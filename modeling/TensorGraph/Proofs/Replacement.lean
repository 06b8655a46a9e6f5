/-
# Other storage behind a buffer

A caller may put storage of its own behind any buffer of a computation, by name and of any
length that is enough.  What comes of it:

    the name         belongs to one buffer at most, as it ends with the number of its node
                                                                      (`Node.id_eq_of_name_eq`)
    the call         exchanges one slot, or does nothing              (`replace_cases`)
    afterwards       a parameter or an intermediate buffer: no further calls show a difference
                     a constant or a variable: they show what they would show if the
                     node held the first elements of the storage, as many as planned

The last two are one statement: before a call reads a parameter or an intermediate buffer it
has written to it, so states that hold the same in constants and variables cannot be told
apart (`Resembles.indistinguishable`).
-/
import TensorGraph.Proofs.Acceptance
import TensorGraph.Proofs.Histories
import TensorGraph.Proofs.Names

namespace TensorGraph

variable {α δ : Type}

/-! ## Names of buffers -/

namespace Slice.Planned

variable [Element α] {s : Slice α} {p : Plan} (hp : s.Planned p)

include hp

/-- No two buffers have one name. -/
theorem eq_of_name_eq {b b' : Nat} (hb : b < p.buffers.size) (hb' : b' < p.buffers.size)
    (h : (p.buffer b).name = (p.buffer b').name) : b = b' := by
  obtain ⟨n, hn, hplace, _, hopened⟩ := hp.opened b hb
  obtain ⟨n', hn', hplace', _, hopened'⟩ := hp.opened b' hb'
  rw [hopened, hopened'] at h
  have hid : n.id = n'.id := Node.id_eq_of_name_eq h
  rw [(hp.built.sound hn).id_eq, (hp.built.sound hn').id_eq] at hid
  rw [hid] at hplace
  exact congrArg Placement.buffer (Option.some.inj (hplace.symm.trans hplace'))

/-- What memory shows for the node of a buffer are the planned elements. -/
theorem shown_home {m : Memory α} (hm : m.Fits p) {b : Nat} (hb : b < p.buffers.size) :
    m.shown p (p.buffer b).node = m.held p b := by
  obtain ⟨n, hn, hplace, _⟩ := hp.opened b hb
  obtain ⟨n', hn', _, helements⟩ := hp.elements_eq hb
  cases hn.symm.trans hn'
  have hsound := hp.built.sound hn
  have hstart : n.layout.start = 0 := by rw [hsound.layout_eq, Layout.start_packed]
  rw [Memory.shown_of_place hplace,
    ← (hp.covers hm hplace).block_eq_gather hsound.isPacked, Memory.held, helements]
  show (m.storage b).block n.layout.start n.layout.size = _
  rw [hstart]

end Slice.Planned

theorem Plan.role_buffer {p : Plan} {b : Nat} (hb : b < p.buffers.size) :
    p.sites.role b = some (p.buffer b).role := by
  simp [sites, buffer, hb]

theorem Plan.lt_of_role {p : Plan} {b : Nat} {r : BufferRole} (h : p.sites.role b = some r) :
    b < p.buffers.size ∧ (p.buffer b).role = r := by
  by_cases hb : b < p.buffers.size
  · exact ⟨hb, Option.some.inj ((role_buffer hb).symm.trans h)⟩
  · simp [sites, hb] at h

/-! ## The call -/

namespace Computation

/-- Exactly the storage behind one buffer is exchanged. -/
structure Exchanged (c : Computation α) (b : Nat) (st : Storage α) (c' : Computation α) : Prop where
  rest_eq : c' = { c with memory := c'.memory }
  size_eq : c'.memory.size = c.memory.size
  storage_eq : c'.memory.storage b = st
  kept : ∀ b', b' ≠ b → c'.memory.storage b' = c.memory.storage b'

theorem exchanged {c : Computation α} {b : Nat} (hb : b < c.memory.size) (st : Storage α) :
    c.Exchanged b st { c with memory := c.memory.setIfInBounds b st } := by
  refine ⟨rfl, Array.size_setIfInBounds, ?_, fun b' hne => ?_⟩
  · rw [Memory.storage_setIfInBounds, if_pos ⟨rfl, hb⟩]
  · rw [Memory.storage_setIfInBounds, if_neg fun h => hne h.1]

section Replace

variable {c : Computation α}

theorem replace_of_attached (hattached : c.phase.attached = true) (name : String)
    (st : Storage α) : c.replace name st = c.exchange name st := by
  rw [replace]
  cases hph : c.phase with
  | unallocated | released => rw [hph] at hattached; cases hattached
  | allocated | populated | ready => rfl

/-- The slot of the named buffer is exchanged, or nothing happens. -/
theorem replace_cases (hattached : c.phase.attached = true) (name : String) (st : Storage α) :
    (∃ b < c.plan.buffers.size, (c.plan.buffer b).name = name ∧
      (c.plan.buffer b).elements ≤ st.size ∧
      c.replace name st
        = ({ c with memory := c.memory.setIfInBounds b st }, .ok (c.memory.storage b))) ∨
    (∃ e, c.replace name st = (c, .error e)) ∧
      ((∀ b < c.plan.buffers.size, (c.plan.buffer b).name ≠ name) ∨
        ∃ b < c.plan.buffers.size, (c.plan.buffer b).name = name ∧
          st.size < (c.plan.buffer b).elements) := by
  rw [replace_of_attached hattached, exchange]
  split
  · rename_i hnone
    refine .inr ⟨⟨_, rfl⟩, .inl fun b hb => ?_⟩
    have := Array.findIdx?_eq_none_iff.mp hnone c.plan.buffers[b] (Array.getElem_mem hb)
    simpa [Plan.buffer, hb] using this
  · rename_i b hfind
    obtain ⟨hb, hname, _⟩ := Array.findIdx?_eq_some_iff_getElem.mp hfind
    have hname : (c.plan.buffer b).name = name := by simpa [Plan.buffer, hb] using hname
    dsimp only
    split
    · rename_i hshort
      exact .inr ⟨⟨_, rfl⟩, .inr ⟨b, hb, hname, hshort⟩⟩
    · rename_i hlen
      exact .inl ⟨b, hb, hname, Nat.le_of_not_lt hlen, rfl⟩

/-- A name is that of one buffer, so it is known which one. -/
theorem replace_of_name [Element α] {s : Slice α} (hp : s.Planned c.plan)
    (hattached : c.phase.attached = true) {b : Nat} (hb : b < c.plan.buffers.size)
    {st : Storage α} (hlen : (c.plan.buffer b).elements ≤ st.size) :
    c.replace (c.plan.buffer b).name st
      = ({ c with memory := c.memory.setIfInBounds b st }, .ok (c.memory.storage b)) := by
  rcases c.replace_cases hattached (c.plan.buffer b).name st with
    ⟨b', hb', hname, _, hreplace⟩ | ⟨_, hno | ⟨b', hb', hname, hshort⟩⟩
  · rwa [hp.eq_of_name_eq hb' hb hname] at hreplace
  · exact absurd rfl (hno b hb)
  · rw [hp.eq_of_name_eq hb' hb hname] at hshort
    omega

end Replace

/-! ## All further calls -/

/-- No further calls tell the two computations apart: whatever has been called, with the same
arguments on both, a run has the same answer and leaves the device in the same state, any
call fails on both or on none, with the same error, and both are in the same phase and hold
the same in all constants and variables. -/
structure Indistinguishable [Element α] (c : Computation α) (δ : Type) [Device δ α]
    (d : Computation α) : Prop where
  run_eq : ∀ (more : List (Call α δ)) (device : δ) (inputs : List (Tensor α)),
    ((c.after more).run device inputs).2 = ((d.after more).run device inputs).2
  answer_eq : ∀ (more : List (Call α δ)) (call : Call α δ),
    (c.after more).answer call = (d.after more).answer call
  phase_eq : ∀ more : List (Call α δ), (c.after more).phase = (d.after more).phase
  held_eq : ∀ (more : List (Call α δ)) (b : Nat), b < c.plan.buffers.size →
    (c.plan.buffer b).role.populated = true →
      (c.after more).memory.held c.plan b = (d.after more).memory.held c.plan b

section Resembles

variable [Element α] [Device δ α] {c₀ c d : Computation α} {s : Slice α} (hc₀ : c₀.Bound s)
  (hfaithful : s.Faithful)

omit [Element α] [Device δ α] in
/-- The same storage is put behind the same buffer of both. -/
theorem Resembles.exchanged (h : Resembles c₀ c d) (hattached : c.phase.attached = true) {b : Nat}
    {st : Storage α} (hlen : (c₀.plan.buffer b).elements ≤ st.size) :
    Resembles c₀ { c with memory := c.memory.setIfInBounds b st }
      { d with memory := d.memory.setIfInBounds b st } := by
  have hfc := h.living.1.fits hattached
  have hfd := h.living.2.fits (h.phase_eq ▸ hattached)
  refine ⟨⟨⟨h.living.1.with_eq _ _, fun _ => hfc.replaced hlen⟩,
    ⟨h.living.2.with_eq _ _, fun _ => hfd.replaced hlen⟩⟩, h.phase_eq, fun b' r hb' hr => ?_⟩
  rw [Memory.held, Memory.held, Memory.storage_setIfInBounds, Memory.storage_setIfInBounds,
    hfc.size_eq, hfd.size_eq]
  split
  · rfl
  · exact h.populated b' r hb' hr

omit [Element α] [Device δ α] in
theorem Resembles.replace (h : Resembles c₀ c d) (name : String) (st : Storage α) :
    ((c.replace name st).2.map fun _ => ()) = ((d.replace name st).2.map fun _ => ()) ∧
      Resembles c₀ (c.replace name st).1 (d.replace name st).1 := by
  by_cases hattached : c.phase.attached = true
  · obtain ⟨m, ph, rfl⟩ : ∃ m ph, c = { c₀ with memory := m, phase := ph } :=
      ⟨_, _, h.living.1.alike⟩
    obtain ⟨n, ph', rfl⟩ : ∃ n ph, d = { c₀ with memory := n, phase := ph } :=
      ⟨_, _, h.living.2.alike⟩
    rw [replace_of_attached hattached, replace_of_attached (h.phase_eq ▸ hattached), exchange,
      exchange]
    dsimp only
    cases c₀.plan.buffers.findIdx? (·.name == name) with
    | none => exact ⟨rfl, h⟩
    | some b =>
        dsimp only
        by_cases hshort : st.size < (c₀.plan.buffer b).elements
        · rw [if_pos hshort, if_pos hshort]
          exact ⟨rfl, h⟩
        · rw [if_neg hshort, if_neg hshort]
          exact ⟨rfl, h.exchanged hattached (Nat.le_of_not_lt hshort)⟩
  · rw [Computation.replace, Computation.replace, ← h.phase_eq]
    cases hph : c.phase with
    | unallocated | released => exact ⟨rfl, h⟩
    | allocated | populated | ready => exact absurd (by rw [hph]; rfl) hattached

omit [Element α] in
theorem Resembles.release (h : Resembles c₀ c d) (device : δ) :
    Resembles c₀ (c.release device).1 (d.release device).1 := by
  rw [Computation.release, Computation.release, ← h.phase_eq]
  have hdetached : ¬ Phase.released.attached = true := by decide
  split
  · exact h
  · exact ⟨⟨⟨h.living.1.with_eq _ _, fun hph => absurd hph hdetached⟩,
      ⟨h.living.2.with_eq _ _, fun hph => absurd hph hdetached⟩⟩, rfl, fun _ _ _ _ => rfl⟩

/-- What has been done already is not done again. -/
theorem perform_settled (call : Call α δ) {ph : Phase} (hleads : call.leadsTo? = some ph)
    (hne : ph ≠ .ready) (hph : ph.rank ≤ c.phase.rank) : c.perform call = c := by
  rw [perform_eq, (conduct_settled hleads hne hph).1]

include hc₀ hfaithful

/-- A call on two states that resemble each other has one answer, and they still do. -/
theorem Resembles.perform (h : Resembles c₀ c d) (hpast : Phase.populated.rank ≤ c.phase.rank)
    (call : Call α δ) :
    c.answer call = d.answer call ∧ Resembles c₀ (c.perform call) (d.perform call) := by
  have hpast' : Phase.populated.rank ≤ d.phase.rank := h.phase_eq ▸ hpast
  cases call with
  | allocate device =>
      have hle : Phase.allocated.rank ≤ Phase.populated.rank := by decide
      rw [perform_settled (.allocate device) rfl (by decide) (hle.trans hpast),
        perform_settled (.allocate device) rfl (by decide) (hle.trans hpast')]
      refine ⟨?_, h⟩
      simp only [answer, Computation.conduct, allocate, ← h.phase_eq]
      cases hph : c.phase with
      | unallocated | allocated => exact absurd (hph ▸ hpast) (by decide)
      | populated | ready | released => rfl
  | populate =>
      rw [perform_settled .populate rfl (by decide) hpast,
        perform_settled .populate rfl (by decide) hpast']
      refine ⟨?_, h⟩
      simp only [answer, Computation.conduct, populate, ← h.phase_eq]
      cases hph : c.phase with
      | unallocated | allocated => exact absurd (hph ▸ hpast) (by decide)
      | populated | ready | released => rfl
  | run device inputs =>
      obtain ⟨hanswer, hnext⟩ := h.run hc₀ hfaithful device inputs
      exact ⟨congrArg (fun r : δ × _ => r.2.map fun _ => ()) hanswer, hnext⟩
  | replace name st => exact h.replace name st
  | release device => exact ⟨rfl, h.release device⟩

theorem Resembles.after (h : Resembles c₀ c d) (hpast : Phase.populated.rank ≤ c.phase.rank)
    (calls : List (Call α δ)) : Resembles c₀ (c.after calls) (d.after calls) ∧
      Phase.populated.rank ≤ (c.after calls).phase.rank := by
  induction calls generalizing c d with
  | nil => exact ⟨h, hpast⟩
  | cons call rest ih =>
      have hforward := ((turn c call).rank_iff .populated).mpr (.inl hpast)
      exact ih (h.perform hc₀ hfaithful hpast call).2 hforward

theorem Resembles.indistinguishable (h : Resembles c₀ c d)
    (hpast : Phase.populated.rank ≤ c.phase.rank) : c.Indistinguishable δ d := by
  refine ⟨fun more device inputs => ?_, fun more call => ?_, fun more => ?_,
    fun more b hb hr => ?_⟩
  · exact ((h.after hc₀ hfaithful hpast more).1.run hc₀ hfaithful device inputs).1
  · obtain ⟨hnext, hpast'⟩ := h.after hc₀ hfaithful hpast more
    exact (hnext.perform hc₀ hfaithful hpast' call).1
  · exact (h.after hc₀ hfaithful hpast more).1.phase_eq
  · rw [h.living.1.plan_eq] at hb hr ⊢
    exact (h.after hc₀ hfaithful hpast more).1.populated b _ (Plan.role_buffer hb) hr

end Resembles

/-! ## After an exchange -/

section Exchanged

variable {c₀ c c' d : Computation α} {b : Nat} {st : Storage α} (h : c.Exchanged b st c')

include h

theorem Exchanged.phase_eq : c'.phase = c.phase := by
  rw [h.rest_eq]

theorem Exchanged.held_eq (p : Plan) : c'.memory.held p b = st.block 0 (p.buffer b).elements := by
  rw [Memory.held, h.storage_eq]

/-- What lies in a parameter or an intermediate buffer does not matter between calls. -/
theorem Exchanged.resembles (hc : c₀.Living c) (hc' : c₀.Living c')
    (hrole : (c₀.plan.buffer b).role.populated = false) : Resembles c₀ c' c := by
  refine ⟨⟨hc', hc⟩, h.phase_eq, fun i r hi hr => ?_⟩
  obtain ⟨_, hrole'⟩ := Plan.lt_of_role hi
  refine Memory.held_congr (h.kept i ?_)
  rintro rfl
  rw [hrole', hr] at hrole
  cases hrole

/-- Of a constant or a variable, only the contents matter. -/
theorem Exchanged.resembles_of_shown [Element α] {s : Slice α} (hp : s.Planned c₀.plan)
    (hc : c₀.Living c) (hc' : c₀.Living c') (hd : c₀.Living d) (hph : d.phase = c.phase)
    (hattached : c.phase.attached = true)
    (hshown : ∀ i < c₀.plan.buffers.size, (c₀.plan.buffer i).role.populated = true →
      d.memory.shown c₀.plan (c₀.plan.buffer i).node
        = if i = b then st.block 0 (c₀.plan.buffer b).elements
          else c.memory.shown c₀.plan (c₀.plan.buffer i).node) : Resembles c₀ c' d := by
  have hfits := hc.fits hattached
  have hfitsd := hd.fits (hph ▸ hattached)
  refine ⟨⟨hc', hd⟩, h.phase_eq.trans hph.symm, fun i r hi hr => ?_⟩
  obtain ⟨hlt, hrole⟩ := Plan.lt_of_role hi
  have heq := hshown i hlt (hrole ▸ hr)
  rw [hp.shown_home hfitsd hlt, hp.shown_home hfits hlt] at heq
  rw [heq]
  split
  · rename_i hib
    rw [hib]
    exact h.held_eq c₀.plan
  · rename_i hib
    exact Memory.held_congr (h.kept i hib)

end Exchanged

end Computation

/-! ## Compiled computations -/

namespace Slice.Compiles

variable [Element α] [Device δ α] {s : Slice α} {overwriting : Bool} {seed : UInt64}
  {c₀ : Computation α}

/-- In every state in which a compiled computation answers runs, other storage can be put
behind the buffers of its plan, by name, as long as it is long enough; otherwise the call
fails and changes nothing.  It exchanges exactly the one slot and answers with what was
there.

* Behind a parameter or an intermediate buffer no further calls show a difference.
* Behind a constant or a variable, its node holds the first elements of the storage, as many
  as planned, and no further calls tell the computation from any other state of it, in the
  same phase, in which the node holds those elements and the other constants and variables
  hold what they did. -/
theorem replacement (h : s.Compiles overwriting seed c₀) (hfaithful : s.Faithful)
    (calls : List (Call α δ)) (hrunning : (c₀.after calls).phase.running = true) (name : String)
    (st : Storage α) :
    ((∃ c' old, (c₀.after calls).replace name st = (c', .ok old)) ↔
      ∃ b < c₀.plan.buffers.size, (c₀.plan.buffer b).name = name ∧
        (c₀.plan.buffer b).elements ≤ st.size) ∧
    (∀ c' e, (c₀.after calls).replace name st = (c', .error e) → c' = c₀.after calls) ∧
    ∀ b < c₀.plan.buffers.size, (c₀.plan.buffer b).name = name →
      (c₀.plan.buffer b).elements ≤ st.size →
      ∃ c', (c₀.after calls).replace name st = (c', .ok ((c₀.after calls).memory.storage b)) ∧
        (c₀.after calls).Exchanged b st c' ∧
        ((c₀.plan.buffer b).role.populated = false →
          c'.Indistinguishable δ (c₀.after calls)) ∧
        ((c₀.plan.buffer b).role.populated = true →
          c'.memory.shown c₀.plan (c₀.plan.buffer b).node
            = st.block 0 (c₀.plan.buffer b).elements ∧
          ∀ d, c₀.Living d → d.phase = (c₀.after calls).phase →
            (∀ i < c₀.plan.buffers.size, (c₀.plan.buffer i).role.populated = true →
              d.memory.shown c₀.plan (c₀.plan.buffer i).node
                = if i = b then st.block 0 (c₀.plan.buffer b).elements
                  else (c₀.after calls).memory.shown c₀.plan (c₀.plan.buffer i).node) →
            c'.Indistinguishable δ d) := by
  have hbound := h.bound.1
  have hp := hbound.planned
  have hliving := h.living calls
  have hattached := Phase.attached_of_running hrunning
  have hpast : Phase.populated.rank ≤ (c₀.after calls).phase.rank := by
    cases hph : (c₀.after calls).phase with
    | populated | ready => decide
    | unallocated | allocated | released => rw [hph] at hrunning; cases hrunning
  generalize c₀.after calls = c at *
  have hplan := hliving.plan_eq
  have hcases := c.replace_cases hattached name st
  refine ⟨⟨?answered, ?planned⟩, ?failed, ?exchanged⟩
  case answered =>
      rintro ⟨c', old, hok⟩
      rcases hcases with ⟨b, hb, hname, hlen, -⟩ | ⟨⟨e, herror⟩, -⟩
      · rw [hplan] at hb hname hlen
        exact ⟨b, hb, hname, hlen⟩
      · cases hok.symm.trans herror
  case planned =>
      rintro ⟨b, hb, rfl, hlen⟩
      rw [← hplan] at hp hb hlen ⊢
      exact ⟨_, _, Computation.replace_of_name hp hattached hb hlen⟩
  case failed =>
      intro c' e herror
      rcases hcases with ⟨b, hb, hname, hlen, hok⟩ | ⟨⟨e, herror'⟩, -⟩
      · cases hok.symm.trans herror
      · exact (congrArg Prod.fst (herror.symm.trans herror'))
  case exchanged =>
      rintro b hb rfl hlen
      have hfits := hliving.fits hattached
      have hreplace : c.replace (c₀.plan.buffer b).name st
          = ({ c with memory := c.memory.setIfInBounds b st }, .ok (c.memory.storage b)) := by
        rw [← hplan] at hp hb hlen ⊢
        exact Computation.replace_of_name hp hattached hb hlen
      have hliving' : c₀.Living { c with memory := c.memory.setIfInBounds b st } :=
        ⟨hliving.with_eq _ _, fun _ => hfits.replaced hlen⟩
      have hexchanged := c.exchanged (hfits.size_eq ▸ hb) st
      refine ⟨_, hreplace, hexchanged, fun hrole => ?_, fun _ => ⟨?_, fun d hd hph hshown => ?_⟩⟩
      · exact (hexchanged.resembles hliving hliving' hrole).indistinguishable hbound hfaithful
          hpast
      · rw [hp.shown_home (hliving'.fits hattached) hb]
        exact hexchanged.held_eq c₀.plan
      · exact (hexchanged.resembles_of_shown hp hliving hliving' hd hph hattached
          hshown).indistinguishable hbound hfaithful hpast

end Slice.Compiles

namespace Specimen

/-- The state of `quotient` after a run on the given divisors. -/
def quotientAfter (x y : UInt8) : Computation UInt8 :=
  quotient.compiled.after (opening ++ [.run .plain [row x y]])

/-- With storage of three elements behind its variable of two, the computation is like the one
that has divided by two and three; behind its parameter, nothing has changed. -/
theorem quotient_replaced :
    (∃ c', (quotientAfter 1 1).replace "variable_1" ⟨#[6, 4, 99], 3⟩ = (c', .ok ⟨#[12, 12], 2⟩) ∧
      c'.Indistinguishable (HostDevice UInt8) (quotientAfter 2 3)) ∧
    ∃ c', (quotientAfter 1 1).replace "placeholder_0" ⟨#[7, 8, 9], 3⟩ = (c', .ok ⟨#[1, 1], 2⟩) ∧
      c'.Indistinguishable (HostDevice UInt8) (quotientAfter 1 1) := by
  have hrunning : (quotientAfter 1 1).phase.running = true := by decide +kernel
  have hvariable : (quotientAfter 1 1).memory.storage 1 = ⟨#[12, 12], 2⟩ := by decide +kernel
  have hparameter : (quotientAfter 1 1).memory.storage 0 = ⟨#[1, 1], 2⟩ := by decide +kernel
  constructor
  · obtain ⟨-, -, hexchange⟩ := quotient.slice_compiles.replacement quotient.slice_faithful
      _ hrunning "variable_1" ⟨#[6, 4, 99], 3⟩
    obtain ⟨c', hreplace, -, -, hcontents⟩ :=
      hexchange 1 (by decide +kernel) (by decide +kernel) (by decide +kernel)
    have hliving := quotient.slice_compiles.living
      (opening ++ [.run .plain [row 2 3]])
    refine ⟨c', hvariable ▸ hreplace, ?_⟩
    exact (hcontents (by decide +kernel)).2 _ hliving (by decide +kernel) (by decide +kernel)
  · obtain ⟨-, -, hexchange⟩ := quotient.slice_compiles.replacement quotient.slice_faithful
      _ hrunning "placeholder_0" ⟨#[7, 8, 9], 3⟩
    obtain ⟨c', hreplace, -, hunseen, -⟩ :=
      hexchange 0 (by decide +kernel) (by decide +kernel) (by decide +kernel)
    exact ⟨c', hparameter ▸ hreplace, hunseen (by decide +kernel)⟩

end Specimen

end TensorGraph
