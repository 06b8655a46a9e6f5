/-
# What outlives a call

Constants and variables are all that one call hands on to the next.  A run that fails
leaves a computation that agrees on them with the one before it (`Agree`), and two states
that agree cannot be told apart by any runs.  So failed runs may be struck from a record of
runs, and no other answer changes.

    a run fails, the device having worked  ⟹  before and after agree         (`agree_of_error`)
    c and d agree                          ⟹  any runs have the same answers (`Resembles.serve_eq`)
    so the failed ones can be struck                                         (`serve_answered`)
-/
import TensorGraph.Proofs.Resemblance

namespace TensorGraph

variable {α δ : Type}

/-! ## Runs that fail -/

namespace Computation

/-- Two states of one computation with the same constants and variables. -/
structure Agree (c₀ c d : Computation α) : Prop where
  living : c₀.Living c ∧ c₀.Living d
  phase_eq : c.phase = d.phase
  populated : ∀ b r, c₀.plan.sites.role b = some r → r.populated = true →
    c.memory.storage b = d.memory.storage b

theorem Agree.refl {c₀ c : Computation α} (h : c₀.Living c) : Agree c₀ c c :=
  ⟨⟨h, h⟩, rfl, fun _ _ _ _ => rfl⟩

theorem Agree.of_memory {c₀ : Computation α} {m n : Memory α} (hm : m.Fits c₀.plan)
    (hn : n.Fits c₀.plan) (ph : Phase) (hpopulated : ∀ b r, c₀.plan.sites.role b = some r →
      r.populated = true → m.storage b = n.storage b) :
    Agree c₀ { c₀ with memory := m, phase := ph } { c₀ with memory := n, phase := ph } :=
  ⟨⟨⟨rfl, fun _ => hm⟩, ⟨rfl, fun _ => hn⟩⟩, rfl, hpopulated⟩

theorem Agree.resembles {c₀ c d : Computation α} (h : Agree c₀ c d) : Resembles c₀ c d :=
  ⟨h.living, h.phase_eq, fun b r hb hr => Memory.held_congr (h.populated b r hb hr)⟩

section Runs

variable [Element α] [Device δ α] {c₀ c : Computation α} {s : Slice α} (hc₀ : c₀.Bound s)
  (hfaithful : s.Faithful) (device : δ) (inputs : List (Tensor α))

include hc₀ hfaithful

/-- A run that fails, other than for the device, leaves the phase, the storage and
all constants and variables as they were. -/
theorem agree_of_error (h : c₀.Living c) (hsync : (Device.synchronize device).2 = .ok ())
    {e : Error} (herror : (c.run device inputs).2.2 = .error e) :
    Agree c₀ (c.run device inputs).1 c := by
  rcases c.run_cases device inputs with ⟨_, hrun⟩ | ⟨hrunning, hrun⟩
  · rw [hrun]
    exact .refl h
  · rw [hrun] at herror ⊢
    have hc := h.bound hc₀
    have hfits := h.fits (Phase.attached_of_running hrunning)
    obtain ⟨m₀, ph, rfl⟩ : ∃ m ph, c = { c₀ with memory := m, phase := ph } := ⟨_, _, h.alike⟩
    by_cases haccepts : s.Accepts inputs
    · have hcall := execute_of_accepts hc device hfits hfaithful haccepts
        (supply_sourced hc hfits haccepts (m₀.shown c₀.plan) fun _ _ _ _ _ => rfl)
      cases hev : s.evaluate (s.supply inputs (m₀.shown c₀.plan)) with
      | error e' =>
          simp only [hev] at hcall
          obtain ⟨m, hm, hexecute⟩ := hcall
          rw [hexecute]
          exact .of_memory hm.fits hfits ph fun b r hb hr =>
            undisturbed_frame hc hfits haccepts hm hb hr
      | ok values =>
          simp only [hev] at hcall
          obtain ⟨m₁, m₂, outs, _, _, _, _, hexecute⟩ := hcall
          rw [hexecute] at herror
          rcases hdevice : Device.synchronize device with ⟨device', e' | _⟩
          · rw [hdevice] at hsync
            cases hsync
          · rw [hdevice] at herror
            cases herror
    · obtain ⟨e', hexecute⟩ := execute_of_not_accepts hc device haccepts
      rw [hexecute]
      exact .refl h

/-- A run that fails detaches no storage. -/
theorem size_memory_of_error (h : c₀.Living c) (hsync : (Device.synchronize device).2 = .ok ())
    {e : Error} (herror : (c.run device inputs).2.2 = .error e) :
    (c.run device inputs).1.memory.size = c.memory.size := by
  have hagree := agree_of_error hc₀ hfaithful device inputs h hsync herror
  rcases c.run_cases device inputs with ⟨_, hrun⟩ | ⟨hrunning, _⟩
  · rw [hrun]
  · have hattached := Phase.attached_of_running hrunning
    rw [(h.fits hattached).size_eq]
    exact (hagree.living.1.fits (hagree.phase_eq ▸ hattached)).size_eq

/-- No run changes a constant, or a variable that is not assigned. -/
theorem storage_run (h : c₀.Living c) {q : Placement} {r : BufferRole}
    (hrole : c₀.plan.sites.role q.buffer = some r) (hr : r.populated = true)
    (hout : ¬ c₀.plan.Within s.updates q) :
    (c.run device inputs).1.memory.storage q.buffer = c.memory.storage q.buffer := by
  rcases c.run_cases device inputs with ⟨_, hrun⟩ | ⟨hrunning, hrun⟩
  · rw [hrun]
  · obtain ⟨m, ph, heffect, _, _, hkept⟩ := execute_effect (h.bound hc₀) device inputs
      (h.plan_eq ▸ h.fits (Phase.attached_of_running hrunning)) hfaithful
    rw [h.plan_eq] at hkept
    rw [hrun, heffect]
    exact hkept q r hrole hr hout

/-- An output that is an assignment is what its variable holds after the run. -/
theorem assigned_outputs (h : c₀.Living c) {device' : δ} {c' : Computation α}
    {outs : List (Tensor α)} (hrun : c.run device inputs = (c', device', .ok outs)) :
    List.Forall₂ (fun id (t : Tensor α) => ∀ target, s.targetOf id = some target →
      t.data = c'.memory.shown c₀.plan target) s.outputs outs := by
  have hp := hc₀.planned
  obtain ⟨_, _, _, _, _, _, houts⟩ :=
    run_eq_ok (h.bound hc₀) (h.plan_eq ▸ h.fits) hfaithful hrun
  rw [h.plan_eq] at houts
  refine ((List.forall₂_and_left _ _).mpr
    ⟨fun _ hid => hid, List.Forall₂.of_map_eq houts.symm⟩).imp ?_
  rintro id t ⟨hid, ht⟩ target he
  obtain ⟨_, _, q, _, has⟩ :=
    hp.assigns (hp.checked.outputs_mem id hid) (Slice.runsLast_of_targetOf he)
  cases has.targetOf_eq.symm.trans he
  rw [← (Prod.mk.inj ht).2, Memory.shown_of_place has.place, Memory.shown_of_place has.target_place]

end Runs

/-! ## A record of runs -/

/-- The answers to some runs, one after the other, each with the device as it is then. -/
def serve [Element α] [Device δ α] (c : Computation α) :
    List (δ × List (Tensor α)) → List (Except Error (List (Tensor α)))
  | [] => []
  | (device, inputs) :: rest =>
    let (c, _, answer) := c.run device inputs
    answer :: c.serve rest

/-- The runs that were answered with outputs. -/
def answered [Element α] [Device δ α] (c : Computation α) (runs : List (δ × List (Tensor α))) :
    List (δ × List (Tensor α)) :=
  ((runs.zip (c.serve runs)).filter (·.2.isOk)).map (·.1)

section Record

variable [Element α] [Device δ α] {c₀ c d : Computation α} {s : Slice α} (hc₀ : c₀.Bound s)
  (hfaithful : s.Faithful)

include hc₀ hfaithful

theorem Resembles.serve_eq (h : Resembles c₀ c d) (runs : List (δ × List (Tensor α))) :
    c.serve runs = d.serve runs := by
  induction runs generalizing c d with
  | nil => rfl
  | cons r rest ih =>
      obtain ⟨device, inputs⟩ := r
      obtain ⟨hanswer, hnext⟩ := h.run hc₀ hfaithful device inputs
      simp only [serve, hanswer, ih hnext]

/-- Failed runs may be struck from a record. -/
theorem serve_answered (h : c₀.Living c) {runs : List (δ × List (Tensor α))}
    (hsync : ∀ r ∈ runs, (Device.synchronize r.1).2 = .ok ()) :
    c.serve (c.answered runs) = (c.serve runs).filter (·.isOk) := by
  induction runs generalizing c with
  | nil => rfl
  | cons r rest ih =>
      obtain ⟨device, inputs⟩ := r
      obtain ⟨hdevice, hrest⟩ := List.forall_mem_cons.mp hsync
      have hnext : c₀.Living (c.run device inputs).1 :=
        h.perform (.run device inputs : Call α δ)
      cases hanswer : (c.run device inputs).2.2 with
      | error e =>
          have hagree := agree_of_error hc₀ hfaithful device inputs h hdevice hanswer
          have hserve := hagree.resembles.serve_eq hc₀ hfaithful rest
          have : c.answered ((device, inputs) :: rest) = c.answered rest := by
            simp [answered, serve, hanswer, hserve, Except.isOk, Except.toBool]
          rw [this, ih h hrest]
          simp [serve, hanswer, hserve, Except.isOk, Except.toBool]
      | ok outs =>
          have : c.answered ((device, inputs) :: rest)
              = (device, inputs) :: (c.run device inputs).1.answered rest := by
            simp [answered, serve, hanswer, Except.isOk, Except.toBool]
          rw [this]
          simp [serve, hanswer, ih hnext hrest, Except.isOk, Except.toBool]

end Record

end Computation

/-! ## Compiled computations -/

namespace Slice

/-- The buffers that assignments overwrite are those of their variables. -/
theorem Planned.within_updates [Element α] {s : Slice α} {p : Plan} (hp : s.Planned p)
    {v : Placement} (h : p.Within s.updates v) :
    (p.buffer v.buffer).role = .persistent ∧
      ∃ a ∈ s.order, s.targetOf a = some (p.buffer v.buffer).node := by
  obtain ⟨a, ha, q, hq, hb⟩ := h
  obtain ⟨haorder, hlast⟩ := List.mem_filter.mp ha
  obtain ⟨target, value, q', _, has⟩ := hp.assigns haorder hlast
  cases has.place.symm.trans hq
  obtain ⟨n, hn, hpersistent⟩ := has.target_node
  have hrole : (p.buffer q.buffer).role = .persistent :=
    Option.some.inj ((hp.role_eq hq).symm.trans has.role)
  obtain ⟨n', hn', hplace, hrole'⟩ := hp.home (hp.inside a q hq).2.1
  rw [← hb]
  refine ⟨hrole, a, haorder, ?_⟩
  rw [has.targetOf_eq]
  by_contra hne
  refine hp.source_buffer_ne hn hn' (Operation.isSource_of_isPersistent hpersistent)
    (Operation.isSource_of_populated ?_) has.target_place hplace (fun he => hne (he ▸ rfl)) rfl
  rw [← hrole', hrole]
  rfl

variable [Element α] [Device δ α] {s : Slice α} {overwriting : Bool} {seed : UInt64}
  {c₀ : Computation α}

/-- Persistent state changes by assignments of successful runs and in no other way.
In every state of a compiled computation:

* a run that fails, other than for the device, changes neither the phase nor any
  constant or variable, and all storage stays attached;
* a run that succeeds changes no constant, and no variable that the slice does
  not assign;
* an output that is an assignment is what its variable holds after the run;
* striking the failed runs from a record of runs changes no other answer. -/
theorem Compiles.persistent_state (h : s.Compiles overwriting seed c₀) (hfaithful : s.Faithful)
    (calls : List (Call α δ)) :
    (∀ (device device' : δ) inputs c' e, (Device.synchronize device).2 = .ok () →
      (c₀.after calls).run device inputs = (c', device', .error e) →
      c'.phase = (c₀.after calls).phase ∧
      c'.memory.size = (c₀.after calls).memory.size ∧
      ∀ b < c₀.plan.buffers.size, (c₀.plan.buffer b).role.populated = true →
        c'.memory.storage b = (c₀.after calls).memory.storage b) ∧
    (∀ (device device' : δ) inputs c' outs,
      (c₀.after calls).run device inputs = (c', device', .ok outs) →
      (∀ b < c₀.plan.buffers.size, (c₀.plan.buffer b).role = .constant →
        c'.memory.storage b = (c₀.after calls).memory.storage b) ∧
      (∀ b < c₀.plan.buffers.size, (c₀.plan.buffer b).role = .persistent →
        (∀ a ∈ s.order, s.targetOf a ≠ some (c₀.plan.buffer b).node) →
        c'.memory.storage b = (c₀.after calls).memory.storage b) ∧
      List.Forall₂ (fun id (t : Tensor α) => ∀ target, s.targetOf id = some target →
        t.data = c'.memory.shown c₀.plan target) s.outputs outs) ∧
    (∀ runs : List (δ × List (Tensor α)),
      (∀ r ∈ runs, (Device.synchronize r.1).2 = .ok ()) →
      (c₀.after calls).serve ((c₀.after calls).answered runs)
        = ((c₀.after calls).serve runs).filter (·.isOk)) := by
  have hbound := h.bound.1
  have hp := hbound.planned
  have hliving := h.living calls
  have role_eq : ∀ b < c₀.plan.buffers.size,
      c₀.plan.sites.role b = some (c₀.plan.buffer b).role := by
    intro b hb
    simp [Plan.sites, Plan.buffer, hb]
  refine ⟨?failed, ?succeeded, fun runs hsync =>
    Computation.serve_answered hbound hfaithful hliving hsync⟩
  case failed =>
      intro device device' inputs c' e hsync hrun
      have herror : ((c₀.after calls).run device inputs).2.2 = .error e := by rw [hrun]
      have hagree := Computation.agree_of_error hbound hfaithful device inputs hliving hsync herror
      have hsize :=
        Computation.size_memory_of_error hbound hfaithful device inputs hliving hsync herror
      rw [hrun] at hagree hsize
      exact ⟨hagree.phase_eq, hsize, fun b hb hr => hagree.populated b _ (role_eq b hb) hr⟩
  case succeeded =>
      intro device device' inputs c' outs hrun
      have hspared : ∀ b < c₀.plan.buffers.size, (c₀.plan.buffer b).role.populated = true →
          ¬ c₀.plan.Within s.updates ⟨b, default⟩ →
          c'.memory.storage b = (c₀.after calls).memory.storage b := by
        intro b hb hr hout
        have hkept := Computation.storage_run hbound hfaithful device inputs hliving
          (q := ⟨b, default⟩) (role_eq b hb) hr hout
        rwa [hrun] at hkept
      refine ⟨fun b hb hr => ?_, fun b hb hr hno => ?_,
        Computation.assigned_outputs hbound hfaithful device inputs hliving hrun⟩
      · refine hspared b hb (by rw [hr]; rfl) fun hin => ?_
        rw [(hp.within_updates hin).1] at hr
        cases hr
      · refine hspared b hb (by rw [hr]; rfl) fun hin => ?_
        obtain ⟨a, ha, htarget⟩ := (hp.within_updates hin).2
        exact hno a ha htarget

end Slice

namespace Specimen

/-- A variable that is divided by the caller's input, again and again. -/
def quotient : Specimen where
  operations := [.placeholder ⟨[2]⟩, .persistent ⟨[2]⟩ (.fill 12), .binary .divide ⟨1⟩ ⟨0⟩,
    .assign ⟨1⟩ ⟨2⟩]
  order := [⟨0⟩, ⟨1⟩, ⟨2⟩, ⟨3⟩]
  outputs := [⟨3⟩]
  parameters := [⟨0⟩]
  accepted := rfl
  roots := by cbv
  compiles := rfl
  faithful := by simp

def row (x y : UInt8) : Tensor UInt8 := ⟨⟨[2]⟩, #[x, y], rfl⟩

/-- Two of four runs divide by zero, one of them after an element was divided. -/
def divisions : List (HostDevice UInt8 × List (Tensor UInt8)) :=
  [(.plain, [row 2 0]), (.plain, [row 2 3]), (.plain, [row 0 0]), (.plain, [row 2 2])]

/-- The divisions by zero leave no trace. -/
theorem quotient_divisions :
    (∀ b < quotient.compiled.plan.buffers.size,
      (quotient.compiled.plan.buffer b).role.populated = true →
      (quotient.run [row 2 0]).1.memory.storage b
        = (quotient.compiled.after opening).memory.storage b) ∧
    ((quotient.compiled.after opening).serve divisions).filter (·.isOk)
      = [.ok [row 6 4], .ok [row 3 2]] := by
  obtain ⟨hfailed, _, hstruck⟩ :=
    quotient.slice_compiles.persistent_state quotient.slice_faithful opening
  constructor
  · have herror : (quotient.run [row 2 0]).2.2 = .error (.plain (.noResult .divide .u8)) := by
      decide +kernel
    exact (hfailed .plain _ _ _ _ rfl (Prod.ext rfl (Prod.ext rfl herror))).2.2
  · rw [← hstruck divisions fun _ _ => rfl]
    decide +kernel

end Specimen

end TensorGraph
