/-
# The states that a computation can come to

A computation is bound once and then called, in any order and with any
arguments.  These are the statements that hold of all states that it can come to:

    the plan, the steps and the presets are those that were bound, and
    while storage is attached, it fits the plan                          (`after_living`)
    as long as nobody puts other storage behind constants and variables
    and no node of the slice is an assignment, they hold what they
    began with                                                           (`after_initial`)

Each is an invariant of a single call (`Living.perform`, `perform_shown`).  The first
one asks nothing of plans, devices and custom operators.
-/
import TensorGraph.Proofs.Phases
import TensorGraph.Proofs.Population

namespace TensorGraph

open Evaluation

variable {α δ : Type}

namespace Computation

/-! ## One call -/

theorem release_phase [Device δ α] (c : Computation α) (device : δ) :
    (c.release device).1.phase = .released := by
  rw [release]
  split
  · assumption
  · rfl

/-- A run is refused because of the phase, and does nothing, or it is executed. -/
theorem run_cases [Element α] [Device δ α] (c : Computation α) (device : δ)
    (inputs : List (Tensor α)) :
    (∃ e, c.run device inputs = (c, device, .error e)) ∨
      c.phase.running = true ∧ c.run device inputs = c.execute device inputs := by
  rw [run]
  cases c.phase with
  | released | unallocated | allocated => exact .inl ⟨_, rfl⟩
  | populated | ready => exact .inr ⟨rfl, rfl⟩

theorem run_of_running [Element α] [Device δ α] {c : Computation α} (h : c.phase.running = true)
    (device : δ) (inputs : List (Tensor α)) : c.run device inputs = c.execute device inputs := by
  rw [run]
  cases hph : c.phase with
  | released | unallocated | allocated => simp [hph, Phase.running] at h
  | populated | ready => rfl

/-- The computation `c` is `c₀` at some time of its life. -/
structure Living (c₀ c : Computation α) : Prop where
  alike : c = { c₀ with memory := c.memory, phase := c.phase }
  fits : c.phase.attached = true → c.memory.Fits c₀.plan

theorem Living.bound [Element α] {c₀ c : Computation α} (h : c₀.Living c) {s : Slice α}
    (hc : c₀.Bound s) : c.Bound s := by
  rw [h.alike]
  exact ⟨hc.planned, hc.steps, hc.presets⟩

theorem Living.plan_eq {c₀ c : Computation α} (h : c₀.Living c) : c.plan = c₀.plan := by
  rw [h.alike]

theorem Living.with_eq {c₀ c : Computation α} (h : c₀.Living c) (m : Memory α) (ph : Phase) :
    ({ c with memory := m, phase := ph } : Computation α)
      = { c₀ with memory := m, phase := ph } := by
  rw [h.alike]

section Living

variable [Element α] [Device δ α] {c₀ c : Computation α} (h : c₀.Living c)

include h

theorem Turn.living {c' : Computation α} {call : Call α δ} {a : Except Error Unit}
    (hturn : Turn c call c' a) : c₀.Living c' := by
  have hplan := h.plan_eq
  cases hturn with
  | late | early | settled => exact h
  | @failed _ m e hretains =>
      exact ⟨h.with_eq m c.phase, fun hph => hretains.fits (h.fits hph)⟩
  | allocated _ hm =>
      rw [hplan] at hm
      exact ⟨h.with_eq _ _, fun _ => hm⟩
  | populated hph =>
      have hm := h.fits (by rw [hph]; rfl)
      exact ⟨h.with_eq _ _, fun _ => (Memory.Retains.foldl (.preset c.seed) _ _).fits hm⟩
  | ran hph hretains =>
      have hm := h.fits (Phase.attached_of_running hph)
      exact ⟨h.with_eq _ _, fun _ => hretains.fits hm⟩
  | replaced hph _ hlen =>
      rw [hplan] at hlen
      exact ⟨h.with_eq _ _, fun _ => (h.fits hph).replaced hlen⟩
  | released => exact ⟨h.with_eq _ _, nofun⟩

theorem Living.perform (call : Call α δ) : c₀.Living (c.perform call) :=
  (turn c call).living h

/-- Whatever is called, the plan stays what it is, and attached storage fits it. -/
theorem after_living (calls : List (Call α δ)) : c₀.Living (c.after calls) := by
  induction calls generalizing c with
  | nil => exact h
  | cons call rest ih => exact ih (h.perform call)

end Living

/-- Storage behind the buffer of the given name may be replaced as long as the
buffer holds no constant and no variable. -/
def Replaceable (p : Plan) (name : String) : Prop :=
  ∀ i, p.buffers.findIdx? (·.name == name) = some i → (p.buffer i).role.populated = false

/-- Constants and variables are as they were when the computation was populated. -/
def HoldsInitial [Element α] (c : Computation α) (s : Slice α) : Prop :=
  ∀ id ∈ s.order, ∀ n, s.graph.node? id = some n → (Draft.roleOf n.op).populated = true →
    c.memory.shown c.plan id = s.initial c.seed id

section Perform

variable [Element α] [Device δ α] {c : Computation α} {s : Slice α} (hc : c.Bound s)

include hc

/-- What memory shows for constants and variables before and after a call that is no
run and puts no other storage behind them. -/
theorem Turn.shown (hfits : c.phase.attached = true → c.memory.Fits c.plan) {call : Call α δ}
    (hrun : call.leadsTo? ≠ some .ready)
    (hcall : ∀ name st, call = .replace name st → Replaceable c.plan name)
    (h : c.phase.running = true → HoldsInitial c s) {c' : Computation α} {a : Except Error Unit}
    (hturn : Turn c call c' a) : c'.phase.running = true → HoldsInitial c' s := by
  have hp := hc.planned
  cases hturn with
  | late | early | settled => exact h
  | failed _ hsame =>
      rw [hsame hrun]
      exact h
  | allocated | released => exact nofun
  | ran => exact absurd rfl hrun
  | populated hph =>
      intro _ id hid n hn hpopulated
      exact hc.shown_presets (hfits (by rw [hph]; rfl)) hid hn hpopulated c.seed
  | @replaced name st i _ hi _ =>
      intro hph id hid n hn hpopulated
      rw [← h hph id hid n hn hpopulated]
      refine Memory.shown_congr fun q hq => ?_
      have hrole := (hp.source hn (Operation.isSource_of_populated hpopulated) hq).2
      have hne : q.buffer ≠ i := by
        rintro rfl
        have hunpopulated := hcall name st rfl q.buffer hi
        rw [Option.some.inj ((hp.role_eq hq).symm.trans hrole), hpopulated] at hunpopulated
        cases hunpopulated
      rw [Memory.storage_setIfInBounds, if_neg fun hb => hne hb.1]

/-- Neither does a run change them, unless there are assignments. -/
theorem perform_shown (hfaithful : s.Faithful) (hno : s.updates = [])
    (hfits : c.phase.attached = true → c.memory.Fits c.plan) {call : Call α δ}
    (hcall : ∀ name st, call = .replace name st → Replaceable c.plan name)
    (h : c.phase.running = true → HoldsInitial c s) :
    (c.perform call).phase.running = true → HoldsInitial (c.perform call) s := by
  have hp := hc.planned
  cases call with
  | allocate | populate | replace | release =>
      refine Turn.shown hc hfits ?_ hcall h (turn c _)
      nofun
  | run device inputs =>
      rw [perform]
      rcases c.run_cases device inputs with ⟨e, he⟩ | ⟨hph, he⟩
      · rwa [he]
      · obtain ⟨m, ph, heffect, _, _, hkept⟩ := Computation.execute_effect hc device inputs
          (hfits (Phase.attached_of_running hph)) hfaithful
        rw [he, heffect]
        intro _ id hid n hn hpopulated
        rw [← h hph id hid n hn hpopulated]
        refine Memory.shown_congr fun q hq => ?_
        have hrole := (hp.source hn (Operation.isSource_of_populated hpopulated) hq).2
        exact hkept q _ hrole hpopulated (by simp [Plan.Within, hno])

end Perform

section After

variable [Element α] [Device δ α] {c₀ : Computation α} {s : Slice α} (hc : c₀.Bound s)

include hc

/-- Without assignments and without other storage behind them, constants and
variables stay as they began. -/
theorem after_initial (hfaithful : s.Faithful) (hno : s.updates = []) {c : Computation α}
    (h : c₀.Living c)
    (hinitial : c.phase.running = true → HoldsInitial c s) {calls : List (Call α δ)}
    (hcalls : ∀ name st, .replace name st ∈ calls → Replaceable c₀.plan name) :
    (c.after calls).phase.running = true → HoldsInitial (c.after calls) s := by
  induction calls generalizing c with
  | nil => exact hinitial
  | cons call rest ih =>
      have hfits : c.phase.attached = true → c.memory.Fits c.plan := h.plan_eq ▸ h.fits
      refine ih (h.perform call) ?_ fun name st hmem =>
        hcalls name st (List.mem_cons_of_mem _ hmem)
      refine perform_shown (h.bound hc) hfaithful hno hfits (fun name st he => ?_) hinitial
      rw [h.plan_eq]
      exact hcalls name st (he ▸ List.mem_cons_self)

end After

end Computation

end TensorGraph
