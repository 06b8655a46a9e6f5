/-
# What a call can do

A computation is bound once and then called in any order, with any arguments and
on any devices; a call may fail.  `Computation.after` is the state that a list of calls
leads to.  What comes of one call is said by one relation, `Turn`, which has a case for
everything that it can do:

    late        after release                             `released`, nothing changes
    early       before the phase that the call needs      `notReady`, nothing changes
    settled     what the call does is done already        nothing changes
    failed      an error of another kind                  nothing changes, but a run may have
                                                          written to storage
    allocated, populated, ran, replaced, released         the call does what it is for

Nothing is assumed of the plan, of the devices or of custom operators; in particular an
operator may leave a block of the wrong length.
-/
import TensorGraph.Proofs.Calls

namespace TensorGraph

variable {α δ : Type}

/-- A call on a computation, with what the caller passes in. -/
inductive Call (α δ : Type) where
  | allocate (device : δ)
  | populate
  | run (device : δ) (inputs : List (Tensor α))
  | replace (name : String) (storage : Storage α)
  | release (device : δ)

/-- Storage is attached. -/
def Phase.attached : Phase → Bool
  | allocated | populated | ready => true
  | unallocated | released => false

/-- Runs are answered. -/
def Phase.running : Phase → Bool
  | populated | ready => true
  | unallocated | allocated | released => false

theorem Phase.attached_of_running {ph : Phase} (h : ph.running = true) : ph.attached = true := by
  cases ph with
  | populated | ready => rfl
  | _ => cases h

namespace Computation

/-- The computation after a call, whatever the answer is. -/
def perform [Element α] [Device δ α] (c : Computation α) : Call α δ → Computation α
  | .allocate device => (c.allocate device).1
  | .populate => c.populate.1
  | .run device inputs => (c.run device inputs).1
  | .replace name s => (c.replace name s).1
  | .release device => (c.release device).1

/-- The computation after some calls. -/
def after [Element α] [Device δ α] (c : Computation α) (calls : List (Call α δ)) : Computation α :=
  calls.foldl perform c

/-! ## Acquiring storage -/

/-- Storage that was acquired is long enough for its buffer. -/
theorem acquire_eq_ok [Device δ α] {buffers : List Buffer} {device device' : δ}
    {held all : List (Buffer × Storage α)} (h : acquire device held buffers = (device', .ok all)) :
    ∃ new, all = held ++ new ∧ new.map (·.1) = buffers ∧ ∀ e ∈ new, e.1.elements ≤ e.2.size := by
  induction buffers generalizing device held with
  | nil =>
      cases h
      exact ⟨[], by simp, rfl, nofun⟩
  | cons b rest ih =>
      rw [acquire] at h
      split at h
      · cases h
      · rename_i device₁ s _
        split at h
        · rename_i hlen
          obtain ⟨new, rfl, hnew, hall⟩ := ih h
          exact ⟨(b, s) :: new, by simp, by simp [hnew], List.forall_mem_cons.mpr ⟨hlen, hall⟩⟩
        · cases h

/-- Storage that was acquired for all buffers of a plan fits it. -/
theorem fits_of_acquire [Device δ α] {p : Plan} {device device' : δ}
    {held : List (Buffer × Storage α)}
    (h : acquire device [] p.buffers.toList = (device', .ok held)) :
    Memory.Fits p (held.map (·.2)).toArray := by
  obtain ⟨new, hheld, hnew, hall⟩ := acquire_eq_ok h
  rw [List.nil_append] at hheld
  subst hheld
  have hlen : held.length = p.buffers.size := by
    simpa using congrArg List.length hnew
  refine ⟨by simpa using hlen, fun b hb => ?_⟩
  have hb' : b < held.length := hlen ▸ hb
  have hbuffer : p.buffers[b] = held[b].1 := by
    have := List.getElem_of_eq hnew (i := b) (by simpa using hb')
    simpa using this.symm
  simpa [Plan.buffer, Memory.storage, hb, hb', hbuffer] using hall held[b] (List.getElem_mem hb')

end Computation

/-! ## Storage that is kept -/

namespace Memory

/-- Every buffer keeps its storage, or gets some that is no shorter. -/
structure Retains (m m' : Memory α) : Prop where
  size_eq : m'.size = m.size
  le : ∀ b, (m.storage b).size ≤ (m'.storage b).size

namespace Retains

variable {m m' m'' : Memory α}

theorem refl (m : Memory α) : m.Retains m := ⟨rfl, fun _ => Nat.le_refl _⟩

theorem trans (h : m.Retains m') (h' : m'.Retains m'') : m.Retains m'' :=
  ⟨h'.size_eq.trans h.size_eq, fun b => Nat.le_trans (h.le b) (h'.le b)⟩

theorem fits {p : Plan} (h : m.Retains m') (hm : m.Fits p) : m'.Fits p :=
  ⟨h.size_eq.trans hm.size_eq, fun b hb => Nat.le_trans (hm.enough b hb) (h.le b)⟩

/-- Writing a block of any length shortens nothing: a block that is too long makes the
storage longer. -/
theorem write (m : Memory α) (q : Placement) (block : Array α) :
    m.Retains (m.write q block) := by
  refine ⟨m.size_write q block, fun b => ?_⟩
  rw [storage_write]
  split
  · simp only [Storage.size, Storage.write, Array.size_append, Array.size_extract]
    omega
  · exact Nat.le_refl _

theorem foldl {β : Type} {f : Memory α → β → Memory α} (hf : ∀ m x, Retains m (f m x))
    (m : Memory α) (xs : List β) : m.Retains (xs.foldl f m) := by
  induction xs generalizing m with
  | nil => exact refl m
  | cons x rest ih => exact (hf m x).trans (ih (f m x))

theorem load (p : Plan) (m : Memory α) (entry : NodeId × Tensor α) :
    m.Retains (Computation.load p m entry) := by
  rw [Computation.load]
  split
  · exact write m _ _
  · exact refl m

theorem preset [Element α] (seed : UInt64) (m : Memory α) (pre : Preset α) :
    m.Retains (Computation.preset seed m pre) := by
  rw [Computation.preset]
  split
  · exact write m _ _
  · exact write m _ _
  · exact refl m

theorem runAll [Element α] (sts : List (Step α)) (m : Memory α) :
    m.Retains (Step.runAll sts m).1 := by
  refine Step.runAll_preserves (fun m' => m.Retains m') ?_ (refl m)
  intro st _ m' h
  exact h.trans (write m' _ _)

end Retains

/-- Storage that is long enough takes the place of other storage. -/
theorem Fits.replaced {p : Plan} {m : Memory α} (hm : m.Fits p) {i : Nat} {s : Storage α}
    (h : (p.buffer i).elements ≤ s.size) : Fits p (m.setIfInBounds i s) := by
  refine ⟨by rw [Array.size_setIfInBounds, hm.size_eq], fun b hb => ?_⟩
  rw [storage_setIfInBounds]
  split
  · rename_i hbi
    rw [hbi.1]
    exact h
  · exact hm.enough b hb

end Memory

/-! ## Errors that tell of the phase -/

/-- The classes of errors with which calls are refused for the phase. -/
def Error.ofPhase : Error → Bool
  | .notReady _ | .released _ => true
  | _ => false

theorem Outcome.failure_after {β : Type} {prepared : Except Error β} {block : Array α}
    {next : β → Outcome α} {e : Error} (h : (after prepared block next).failure = some e) :
    prepared = .error e ∨ ∃ x, prepared = .ok x ∧ (next x).failure = some e := by
  cases prepared with
  | error e' => exact .inl (congrArg Except.error (Option.some.inj h))
  | ok x => exact .inr ⟨x, rfl, h⟩

namespace Kernel

variable [Element α] {block : Array α} {e : Error}

theorem ofPhase_binary {operator : BinaryOperator} {lhs rhs : Operand α}
    (h : (binary operator lhs rhs block).failure = some e) : e.ofPhase = false := by
  rw [binary] at h
  split at h
  · cases h
  · cases h
    rfl

theorem ofPhase_oneHot {depth axis : Nat} {v : View α}
    (h : (oneHot depth axis v block).failure = some e) : e.ofPhase = false := by
  rw [oneHot] at h
  revert h
  generalize List.range v.size = positions
  generalize Array.replicate block.size (Element.zero : α) = written
  induction positions generalizing written with
  | nil =>
      intro h
      cases h
  | cons i rest ih =>
      intro h
      rw [markCategories] at h
      split at h
      · exact ih _ h
      · cases h
        rfl

end Kernel

namespace Step

variable [Element α] {st : Step α} {m : Memory α} {e : Error}

omit [Element α] in
theorem ofPhase_input {q : Placement} (h : st.input m q = .error e) : e.ofPhase = false := by
  rw [input] at h
  split at h
  · cases h
    rfl
  · cases h

omit [Element α] in
theorem failure_after_input {q : Placement} {block : Array α} {next : View α → Outcome α}
    (h : (Outcome.after (st.input m q) block next).failure = some e) (he : e.ofPhase = true) :
    ∃ v, (next v).failure = some e := by
  rcases Outcome.failure_after h with hq | ⟨v, _, hv⟩
  · cases (ofPhase_input hq).symm.trans he
  · exact ⟨v, hv⟩

/-- A step stops with such an error only when a custom operator has made it. -/
theorem custom_of_failure {block : Array α} (h : (st.outcome m block).failure = some e)
    (he : e.ofPhase = true) :
    ∃ f xs views, st.op = .custom f xs ∧ st.inputs.mapM (st.input m) = .ok views ∧
      (f.compute views st.output.layout block).failure = some e := by
  have refute {P : Prop} (hno : e.ofPhase = false) : P := nomatch hno.symm.trans he
  unfold outcome at h
  split at h
  case h_1 => exact refute (Kernel.ofPhase_binary h)
  case h_2 => cases h
  case h_3 =>
    obtain ⟨v, hv⟩ := failure_after_input h he
    cases hv
  case h_4 =>
    obtain ⟨v, hv⟩ := failure_after_input h he
    cases hv
  case h_5 =>
    obtain ⟨lhs, hlhs⟩ := failure_after_input h he
    obtain ⟨rhs, hrhs⟩ := failure_after_input hlhs he
    cases hrhs
  case h_6 =>
    obtain ⟨v, hv⟩ := failure_after_input h he
    exact refute (Kernel.ofPhase_oneHot hv)
  case h_7 =>
    obtain ⟨v, hv⟩ := failure_after_input h he
    cases hv
  case h_8 f xs hop =>
    rcases Outcome.failure_after h with hq | ⟨views, hviews, hf⟩
    · obtain ⟨q, _, hq⟩ := Except.exists_of_mapM_eq_error hq
      exact refute (ofPhase_input hq)
    · exact ⟨f, xs, views, hop, hviews, hf⟩
  case h_9 =>
    split at h
    · cases h
    · cases h
  case h_10 =>
    cases h
    cases he

/-- When steps are stopped, one of them is, after those before it were not. -/
theorem failure_of_runAll {sts : List (Step α)} (h : (runAll sts m).2 = some e) :
    ∃ before st after m', sts = before ++ st :: after ∧ runAll before m = (m', none) ∧
      (st.outcome m' (m'.block st.output)).failure = some e := by
  induction sts generalizing m with
  | nil => cases h
  | cons st rest ih =>
      rw [runAll] at h
      split at h
      · rename_i m' hrun
        obtain ⟨before, st', after, m'', rfl, hbefore, hfailure⟩ := ih h
        refine ⟨st :: before, st', after, m'', rfl, ?_, hfailure⟩
        rw [runAll, hrun]
        exact hbefore
      · rename_i m' e' hrun
        refine ⟨[], st, rest, m, rfl, rfl, ?_⟩
        exact (congrArg Prod.snd hrun).trans h

end Step

namespace Computation

theorem ofPhase_placement {p : Plan} {id : NodeId} {e : Error} (h : p.placement id = .error e) :
    e.ofPhase = false := by
  rw [Plan.placement] at h
  split at h
  · cases h
  · cases h
    rfl

theorem ofPhase_checkInputs {c : Computation α} {inputs : List (Tensor α)} {e : Error}
    (h : c.checkInputs inputs = .error e) : e.ofPhase = false := by
  have entry : ∀ {entry : NodeId × Tensor α},
      c.checkInput entry = .error e → e.ofPhase = false := by
    intro entry h
    rcases Except.bind_eq_error.mp h with hplace | ⟨q, _, h⟩
    · exact ofPhase_placement hplace
    · split at h
      · cases h
        rfl
      · cases h
  rw [checkInputs] at h
  split at h
  · cases h
    rfl
  · obtain ⟨x, _, hx⟩ := Except.exists_of_forM_eq_error h
    exact entry hx

theorem ofPhase_readOutput [Element α] {p : Plan} {m : Memory α} {id : NodeId} {e : Error}
    (h : readOutput p m id = .error e) : e.ofPhase = false := by
  rcases Except.bind_eq_error.mp h with hplace | ⟨q, _, h⟩
  · exact ofPhase_placement hplace
  · rw [Tensor.ofData?] at h
    split at h
    · cases h
    · cases h
      rfl

end Computation

/-! ## Calls and answers -/

theorem Phase.rank_le_released (ph : Phase) : ph.rank ≤ Phase.released.rank := by
  cases ph with
  | unallocated | allocated | populated | ready | released => decide

theorem Phase.eq_released {ph : Phase} (h : Phase.released.rank ≤ ph.rank) : ph = .released := by
  cases ph with
  | released => rfl
  | unallocated | allocated | populated | ready => exact absurd h (by decide)

theorem Phase.rank_allocated_le {ph : Phase} (h : ph ≠ .unallocated) :
    Phase.allocated.rank ≤ ph.rank := by
  cases ph with
  | unallocated => exact absurd rfl h
  | allocated | populated | ready | released => decide

namespace Call

/-- The phase that a call leads to when it succeeds; a replacement leads nowhere. -/
def leadsTo? : Call α δ → Option Phase
  | allocate _ => some .allocated
  | populate => some .populated
  | run .. => some .ready
  | replace .. => none
  | release _ => some .released

/-- The phase before which a call comes too early, and what it is refused with then. -/
def needs? : Call α δ → Option (Phase × ReadinessFault)
  | populate => some (.allocated, .initBeforeAllocate)
  | run .. => some (.populated, .computeBeforeInit)
  | replace name _ => some (.allocated, .updateBeforeAllocate name)
  | allocate _ | release _ => none

/-- The device that comes with a call. -/
def device? : Call α δ → Option δ
  | allocate device | run device _ | release device => some device
  | populate | replace .. => none

end Call

namespace Computation

variable [Element α] [Device δ α]

/-- The computation after a call, the device that came with it as it is then, and
whether the call failed. -/
def conduct (c : Computation α) : Call α δ → Computation α × Option δ × Except Error Unit
  | .allocate device =>
    let (c, device, result) := c.allocate device
    (c, some device, result)
  | .populate =>
    let (c, result) := c.populate
    (c, none, result)
  | .run device inputs =>
    let (c, device, result) := c.run device inputs
    (c, some device, result.map fun _ => ())
  | .replace name s =>
    let (c, result) := c.replace name s
    (c, none, result.map fun _ => ())
  | .release device =>
    let (c, device) := c.release device
    (c, some device, .ok ())

theorem perform_eq (c : Computation α) (call : Call α δ) :
    c.perform call = (c.conduct call).1 := by
  cases call with
  | allocate | populate | run | replace | release => rfl

/-- Whether a call fails, and with what. -/
def answer (c : Computation α) (call : Call α δ) : Except Error Unit := (c.conduct call).2.2

/-- Errors that a computation hands on: the device has refused storage for one of the
buffers or failed in the end, or a custom operator has stopped its step. -/
inductive Foreign (c : Computation α) : Call α δ → Error → Prop
  | refused {device : δ} {before after : List Buffer} {b : Buffer} {e : Error} :
      c.phase = .unallocated → c.plan.buffers.toList = before ++ b :: after →
      (Device.allocate (before.foldl (fun d b => (Device.allocate d b).1) device) b).2 = .error e →
      Foreign c (.allocate device) e
  | custom {device : δ} {inputs : List (Tensor α)} {before after : List (Step α)} {st : Step α}
      {m : Memory α} {f : CustomOperator α} {xs : List NodeId} {views : List (View α)} {e : Error} :
      c.phase.running = true → c.steps = before ++ st :: after →
      Step.runAll before (c.loaded inputs) = (m, none) → st.op = .custom f xs →
      st.inputs.mapM (st.input m) = .ok views →
      (f.compute views st.output.layout (m.block st.output)).failure = some e →
      Foreign c (.run device inputs) e
  | lost {device : δ} {inputs : List (Tensor α)} {e : Error} :
      c.phase.running = true → (Device.synchronize device).2 = .error e →
      Foreign c (.run device inputs) e

/-- What a call can do: the computation after it, and the answer. -/
inductive Turn (c : Computation α) : Call α δ → Computation α → Except Error Unit → Prop
  | late {call : Call α δ} :
      c.phase = .released → call.leadsTo? ≠ some .released → Turn c call c (.error releasedError)
  | early {call : Call α δ} {needed : Phase} {fault : ReadinessFault} :
      call.needs? = some (needed, fault) → c.phase.rank < needed.rank →
      Turn c call c (.error (.notReady fault))
  | settled {call : Call α δ} {ph : Phase} :
      call.leadsTo? = some ph → ph ≠ .ready → ph.rank ≤ c.phase.rank →
      (c.phase = .released → ph = .released) → Turn c call c (.ok ())
  | failed {call : Call α δ} {m : Memory α} {e : Error} :
      c.memory.Retains m → (call.leadsTo? ≠ some .ready → m = c.memory) →
      (e.ofPhase = true → Foreign c call e) →
      Turn c call { c with memory := m } (.error e)
  | allocated {device : δ} {m : Memory α} :
      c.phase = .unallocated → m.Fits c.plan →
      Turn c (.allocate device) { c with memory := m, phase := .allocated } (.ok ())
  | populated :
      c.phase = .allocated →
      Turn c .populate
        { c with memory := c.presets.foldl (preset c.seed) c.memory, phase := .populated } (.ok ())
  | ran {device : δ} {inputs : List (Tensor α)} {m : Memory α} :
      c.phase.running = true → c.memory.Retains m →
      Turn c (.run device inputs) { c with memory := m, phase := .ready } (.ok ())
  | replaced {name : String} {s : Storage α} {i : Nat} :
      c.phase.attached = true → c.plan.buffers.findIdx? (·.name == name) = some i →
      (c.plan.buffer i).elements ≤ s.size →
      Turn c (.replace name s) { c with memory := c.memory.setIfInBounds i s } (.ok ())
  | released {device : δ} :
      c.phase ≠ .released →
      Turn c (.release device) { c with memory := #[], phase := .released } (.ok ())

/-! ## One call -/

omit [Element α] in
/-- The error of a refused allocation is that of the device, or storage came out short. -/
theorem acquire_eq_error {buffers : List Buffer} {device device' : δ}
    {held : List (Buffer × Storage α)} {e : Error}
    (h : acquire device held buffers = (device', .error e)) (he : e.ofPhase = true) :
    ∃ before b after, buffers = before ++ b :: after ∧
      (Device.allocate (before.foldl (fun d b => (Device.allocate d b).1) device) b).2
        = .error e := by
  induction buffers generalizing device held with
  | nil => cases h
  | cons b rest ih =>
      rw [acquire] at h
      split at h
      · rename_i device₁ e' hallocate
        cases h
        exact ⟨[], b, rest, rfl, congrArg Prod.snd hallocate⟩
      · rename_i device₁ s hallocate
        split at h
        · obtain ⟨before, b', after, rfl, hrefused⟩ := ih h
          refine ⟨b :: before, b', after, rfl, ?_⟩
          rw [List.foldl_cons, hallocate]
          exact hrefused
        · cases h
          cases he

theorem turn_allocate (c : Computation α) (device : δ) :
    Turn c (.allocate device) (c.allocate device).1 (c.allocate device).2.2 := by
  rw [allocate]
  split
  case h_1 hph => exact .late hph nofun
  case h_2 hph =>
    split
    · rename_i device' e hacquire
      refine .failed (.refl _) (fun _ => rfl) fun he => ?_
      obtain ⟨before, b, after, hbuffers, hrefused⟩ := acquire_eq_error hacquire he
      exact .refused hph hbuffers hrefused
    · rename_i device' held hacquire
      exact .allocated hph (fits_of_acquire hacquire)
  case h_3 hreleased hunallocated =>
    refine .settled rfl nofun ?_ fun hph => absurd hph hreleased
    exact Phase.rank_allocated_le hunallocated

theorem turn_populate (c : Computation α) :
    Turn c (.populate : Call α δ) c.populate.1 c.populate.2 := by
  rw [populate]
  split
  case h_1 hph => exact .late hph nofun
  case h_2 hph => exact .early rfl (by rw [hph]; decide)
  case h_3 hph => exact .populated hph
  case h_4 hreleased hunallocated hallocated =>
    refine .settled rfl nofun ?_ fun hph => absurd hph hreleased
    cases hph : c.phase with
    | unallocated => exact absurd hph hunallocated
    | allocated => exact absurd hph hallocated
    | populated | ready | released => decide

theorem turn_execute {c : Computation α} (hph : c.phase.running = true) (device : δ)
    (inputs : List (Tensor α)) :
    Turn c (.run device inputs) (c.execute device inputs).1
      ((c.execute device inputs).2.2.map fun _ => ()) := by
  rw [execute]
  split
  · rename_i e hcheck
    exact .failed (.refl _) (fun _ => rfl)
      fun he => absurd ((ofPhase_checkInputs hcheck).symm.trans he) Bool.false_ne_true
  · -- whatever the steps do, they start from the loaded memory and shorten nothing
    have hretains : c.memory.Retains (Step.runAll c.steps (c.loaded inputs)).1 :=
      (Memory.Retains.foldl (Memory.Retains.load c.plan) _ _).trans (.runAll _ _)
    dsimp only
    rw [← loaded]
    split
    · rename_i m e hrun
      rw [hrun] at hretains
      refine .failed hretains (fun hrun => absurd rfl hrun) fun he => ?_
      obtain ⟨before, st, after, m', hsteps, hbefore, hfailure⟩ :=
        Step.failure_of_runAll (congrArg Prod.snd hrun)
      obtain ⟨f, xs, views, hop, hviews, hf⟩ := Step.custom_of_failure hfailure he
      exact .custom hph hsteps hbefore hop hviews hf
    · rename_i m hrun
      rw [hrun] at hretains
      split
      · rename_i device' e hsync
        exact .failed hretains (fun hrun => absurd rfl hrun)
          fun _ => .lost hph (congrArg Prod.snd hsync)
      · split
        · rename_i e houtputs
          obtain ⟨id, _, hid⟩ := Except.exists_of_mapM_eq_error houtputs
          exact .failed hretains (fun hrun => absurd rfl hrun)
            fun he => absurd ((ofPhase_readOutput hid).symm.trans he) Bool.false_ne_true
        · exact .ran hph hretains

theorem turn_run (c : Computation α) (device : δ) (inputs : List (Tensor α)) :
    Turn c (.run device inputs) (c.run device inputs).1
      ((c.run device inputs).2.2.map fun _ => ()) := by
  rw [run]
  split
  case h_1 hph => exact .late hph nofun
  case h_2 hph => exact .early rfl (by rw [hph]; decide)
  case h_3 hph => exact .early rfl (by rw [hph]; decide)
  case h_4 hph => exact turn_execute (by rw [hph]; rfl) device inputs
  case h_5 hph => exact turn_execute (by rw [hph]; rfl) device inputs

theorem turn_replace (c : Computation α) (name : String) (s : Storage α) :
    Turn c (.replace name s : Call α δ) (c.replace name s).1
      ((c.replace name s).2.map fun _ => ()) := by
  rw [replace]
  split
  case h_1 hph => exact .late hph (by simp [Call.leadsTo?])
  case h_2 hph => exact .early rfl (by rw [hph]; decide)
  case h_3 hreleased hunallocated =>
    rw [exchange]
    split
    · exact .failed (.refl _) (fun _ => rfl) fun he => absurd he Bool.false_ne_true
    · rename_i i hi
      dsimp only
      split
      · exact .failed (.refl _) (fun _ => rfl) fun he => absurd he Bool.false_ne_true
      · rename_i hlen
        refine .replaced ?_ hi (Nat.le_of_not_lt hlen)
        cases hph : c.phase with
        | unallocated => exact absurd hph hunallocated
        | released => exact absurd hph hreleased
        | allocated | populated | ready => rfl

theorem turn_release (c : Computation α) (device : δ) :
    Turn c (.release device) (c.release device).1 (.ok ()) := by
  rw [release]
  split
  · rename_i hph
    exact .settled rfl nofun (hph ▸ Nat.le_refl _) fun _ => rfl
  · rename_i hph
    exact .released hph

/-- What any call does. -/
theorem turn (c : Computation α) (call : Call α δ) :
    Turn c call (c.perform call) (c.answer call) := by
  cases call with
  | allocate device => exact turn_allocate c device
  | populate => exact turn_populate c
  | run device inputs => exact turn_run c device inputs
  | replace name s => exact turn_replace c name s
  | release device => exact turn_release c device

/-! ## Calls that change nothing -/

/-- After release every call but another release is refused. -/
theorem conduct_late {c : Computation α} {call : Call α δ} (hph : c.phase = .released)
    (hcall : call.leadsTo? ≠ some .released) :
    c.conduct call = (c, call.device?, .error releasedError) := by
  cases call with
  | allocate device =>
      rw [conduct, allocate, hph]
      rfl
  | populate =>
      rw [conduct, populate, hph]
      rfl
  | run device inputs =>
      rw [conduct, run, hph]
      rfl
  | replace name s =>
      rw [conduct, replace, hph]
      rfl
  | release device => exact absurd rfl hcall

/-- A call that comes too early is refused. -/
theorem conduct_early {c : Computation α} {call : Call α δ} {needed : Phase}
    {fault : ReadinessFault} (hneeds : call.needs? = some (needed, fault))
    (hph : c.phase.rank < needed.rank) :
    c.conduct call = (c, call.device?, .error (.notReady fault)) := by
  cases call with
  | allocate device => cases hneeds
  | release device => cases hneeds
  | populate =>
      cases hneeds
      rw [conduct, populate]
      cases h : c.phase with
      | unallocated => rfl
      | allocated | populated | ready | released =>
          rw [h] at hph
          exact absurd hph (by decide)
  | run device inputs =>
      cases hneeds
      rw [conduct, run]
      cases h : c.phase with
      | unallocated | allocated => rfl
      | populated | ready | released =>
          rw [h] at hph
          exact absurd hph (by decide)
  | replace name s =>
      cases hneeds
      rw [conduct, replace]
      cases h : c.phase with
      | unallocated => rfl
      | allocated | populated | ready | released =>
          rw [h] at hph
          exact absurd hph (by decide)

/-- What has been done already is not done again. -/
theorem conduct_settled {c : Computation α} {call : Call α δ} {ph : Phase}
    (hleads : call.leadsTo? = some ph) (hne : ph ≠ .ready) (hph : ph.rank ≤ c.phase.rank) :
    (c.conduct call).1 = c ∧ (c.conduct call).2.1 = call.device? := by
  cases call with
  | replace name s => cases hleads
  | run device inputs =>
      cases hleads
      exact absurd rfl hne
  | allocate device =>
      cases hleads
      rw [conduct, allocate]
      cases h : c.phase with
      | unallocated =>
          rw [h] at hph
          exact absurd hph (by decide)
      | allocated | populated | ready | released => exact ⟨rfl, rfl⟩
  | populate =>
      cases hleads
      rw [conduct, populate]
      cases h : c.phase with
      | unallocated | allocated =>
          rw [h] at hph
          exact absurd hph (by decide)
      | populated | ready | released => exact ⟨rfl, rfl⟩
  | release device =>
      cases hleads
      rw [conduct, release, if_pos (Phase.eq_released hph)]
      exact ⟨rfl, rfl⟩

theorem execute_presets (c : Computation α) (device : δ) (inputs : List (Tensor α))
    (presets : List (Preset α)) (seed : UInt64) :
    ({ c with presets, seed } : Computation α).execute device inputs
      = ({ (c.execute device inputs).1 with presets, seed }, (c.execute device inputs).2) := by
  have hcheck : ({ c with presets, seed } : Computation α).checkInputs inputs
      = c.checkInputs inputs := rfl
  rw [execute, execute, hcheck]
  split
  · rfl
  · dsimp only
    split
    · rfl
    · split
      · rfl
      · split
        · rfl
        · rfl

/-- Literals, initial values and the seed are looked at by `populate` alone. -/
theorem conduct_presets {call : Call α δ} (hcall : call.leadsTo? ≠ some .populated)
    (c : Computation α) (presets : List (Preset α)) (seed : UInt64) :
    ({ c with presets, seed } : Computation α).conduct call
      = ({ (c.conduct call).1 with presets, seed }, (c.conduct call).2) := by
  cases call with
  | populate => exact absurd rfl hcall
  | allocate device =>
      simp only [conduct, allocate]
      split
      · rfl
      · split
        · rfl
        · rfl
      · rfl
  | run device inputs =>
      simp only [conduct, run]
      split
      · rfl
      · rfl
      · rfl
      · rw [execute_presets]
      · rw [execute_presets]
  | replace name s =>
      simp only [conduct, replace, exchange]
      split
      · rfl
      · rfl
      · split
        · rfl
        · split
          · rfl
          · rfl
  | release device =>
      simp only [conduct, release]
      split
      · rfl
      · rfl

end Computation

end TensorGraph
