/-
# The bytes that are out

A host device counts the bytes of the buffers that are out.  An engine takes
storage and gives it back on many paths, some of them in the middle of a failure;
the count is nevertheless always the planned size of the computations that have not
been released:

    bytes that are out   =   Σ  total bytes of the plan,  over computations not released

What is needed of a device is said by `Device.Meters`: a count that grows by the bytes
of every buffer handed out and shrinks by those of every buffer taken back, as long as
at least as many are out.  The host device has one (`meters_host`), and so has a host
device that remembers when more came back than was out (`AuditedDevice`,
`meters_audited`); that the two see the same is a matter of the operations of a device
alone (`Device.Hom`).

`Balanced` is the invariant, `Balanced.act` its step lemma, `Balanced.after` the run.
-/
import TensorGraph.Proofs.Histories
import TensorGraph.Proofs.Isolation

namespace TensorGraph

variable {α δ δ' : Type}

/-! ## Metered devices -/

/-- `Out d n` says that `n` bytes are out. -/
structure Device.Meters [Device δ α] (Out : δ → Nat → Prop) : Prop where
  allocate : ∀ {d n b s}, Out d n → (Device.allocate d b).2 = .ok s →
    Out (Device.allocate d b).1 (n + b.bytes)
  refuse : ∀ {d n b e}, Out d n → (Device.allocate d b).2 = .error e →
    Out (Device.allocate d b).1 n
  free : ∀ {d n b} (s : Storage α), Out d (n + b.bytes) → Out (Device.free d b s) n
  synchronize : ∀ {d n}, Out d n → Out (Device.synchronize d).1 n

/-- A host device that remembers whether more bytes have come back than were out. -/
structure AuditedDevice (α : Type) where
  host : HostDevice α
  overdrawn : Bool

instance [Element α] : Device (AuditedDevice α) α where
  name _ := "cpu"
  allocate d b := ({ d with host := (d.host.allocate b).1 }, (d.host.allocate b).2)
  free d b s := ⟨d.host.free b s, d.overdrawn || decide (d.host.liveBytes < b.bytes)⟩
  synchronize d := (d, .ok ())

theorem HostDevice.liveBytes_allocate [Element α] (d : HostDevice α) (b : Buffer) :
    (d.allocate b).1.liveBytes
      = if (d.allocate b).2.isOk then d.liveBytes + b.bytes else d.liveBytes := by
  rw [HostDevice.allocate]
  split
  · rfl
  · dsimp only
    split
    · rfl
    · rfl

theorem meters_host [Element α] :
    Device.Meters fun (d : HostDevice α) n => d.liveBytes = n where
  allocate {d n b s} h hserved := by
    have hlive := d.liveBytes_allocate b
    rw [show (d.allocate b).2 = .ok s from hserved] at hlive
    rw [← h]
    exact hlive
  refuse {d n b e} h hrefused := by
    have hlive := d.liveBytes_allocate b
    rw [show (d.allocate b).2 = .error e from hrefused] at hlive
    rw [← h]
    exact hlive
  free {d n b} s h := by
    show d.liveBytes - b.bytes = n
    rw [h]
    exact Nat.add_sub_cancel _ _
  synchronize h := h

theorem meters_audited [Element α] :
    Device.Meters fun (d : AuditedDevice α) n => d.host.liveBytes = n ∧ d.overdrawn = false where
  allocate h hserved := ⟨meters_host.allocate h.1 hserved, h.2⟩
  refuse h hrefused := ⟨meters_host.refuse h.1 hrefused, h.2⟩
  free {d n b} s h := by
    refine ⟨meters_host.free s h.1, ?_⟩
    show (d.overdrawn || decide (d.host.liveBytes < b.bytes)) = false
    rw [h.2, h.1, Bool.false_or, decide_eq_false_iff_not]
    omega
  synchronize h := h

/-! ## Storage on its way -/

namespace Computation

/-- Bytes of the buffers that storage was asked for with. -/
def heldBytes (held : List (Buffer × Storage α)) : Nat := total Buffer.bytes (held.map (·.1))

section Storage

variable [Device δ α] {Out : δ → Nat → Prop} (hmeters : Device.Meters Out)

include hmeters

theorem out_giveBack {d : δ} {n : Nat} {held : List (Buffer × Storage α)}
    (h : Out d (n + heldBytes held)) : Out (giveBack d held) n := by
  induction held generalizing d with
  | nil => exact h
  | cons entry rest ih =>
      rw [heldBytes, List.map_cons, total_cons, Nat.add_comm entry.1.bytes, ← Nat.add_assoc] at h
      exact ih (hmeters.free entry.2 h)

/-- What a failed request leaves behind is what was there before it. -/
theorem out_acquire {buffers : List Buffer} {d d' : δ} {n : Nat}
    {held : List (Buffer × Storage α)} {result : Except Error (List (Buffer × Storage α))}
    (h : Out d (n + heldBytes held)) (hacquire : acquire d held buffers = (d', result)) :
    match result with
    | .error _ => Out d' n
    | .ok _ => Out d' (n + heldBytes held + total Buffer.bytes buffers) := by
  induction buffers generalizing d held with
  | nil =>
      cases hacquire
      exact h
  | cons b rest ih =>
      rw [acquire] at hacquire
      split at hacquire
      · rename_i d₁ e hrefused
        cases hacquire
        have hout := hmeters.refuse h (congrArg Prod.snd hrefused)
        rw [hrefused] at hout
        exact out_giveBack hmeters hout
      · rename_i d₁ s hserved
        have hout := hmeters.allocate h (congrArg Prod.snd hserved)
        rw [hserved] at hout
        split at hacquire
        · have hheld : heldBytes (held ++ [(b, s)]) = heldBytes held + b.bytes := by
            simp [heldBytes]
          have hrest := ih (by rwa [hheld, ← Nat.add_assoc]) hacquire
          rw [hheld] at hrest
          cases result with
          | error e => exact hrest
          | ok all =>
              rw [total_cons]
              have hsum : n + heldBytes held + (b.bytes + total Buffer.bytes rest)
                  = n + (heldBytes held + b.bytes) + total Buffer.bytes rest := by omega
              rw [hsum]
              exact hrest
        · cases hacquire
          exact out_giveBack hmeters (hmeters.free s hout)

end Storage

/-! ## One computation -/

/-- Bytes that are out for a computation that an engine has taken on. -/
def bytesOut (c : Computation α) : Nat := if c.phase = .released then 0 else c.plan.totalBytes

/-- Storage is attached to all buffers of the plan, or was given back. -/
structure Held (c : Computation α) : Prop where
  standing : c.Standing c
  taken : c.phase ≠ .unallocated

theorem Held.attached {c : Computation α} (h : c.Held) (hph : c.phase ≠ .released) :
    c.phase.attached = true := by
  cases hc : c.phase with
  | unallocated => exact absurd hc h.taken
  | released => exact absurd hc hph
  | allocated | populated | ready => rfl

section Perform

variable [Element α] [Device δ α]

theorem Held.perform {c : Computation α} (h : c.Held) (call : Call α δ) :
    (c.perform call).Held := by
  refine ⟨(h.standing.perform call).self, fun hno => ?_⟩
  have hrank := ((turn c call).rank_iff .allocated).mpr (.inl (Phase.rank_allocated_le h.taken))
  rw [hno] at hrank
  exact absurd hrank (by decide)

/-- Only a release makes a computation released. -/
theorem perform_released {c : Computation α} {call : Call α δ}
    (hcall : call.leadsTo? ≠ some .released) :
    (c.perform call).phase = .released ↔ c.phase = .released := by
  have hrank := (turn c call).rank_iff .released
  constructor
  · intro hph
    rcases hrank.mp (Nat.le_of_eq (by rw [hph])) with h | ⟨_, h | h⟩
    · exact Phase.eq_released h
    · exact absurd h hcall
    · exact absurd h hcall
  · intro hph
    exact Phase.eq_released (hrank.mpr (.inl (Nat.le_of_eq (by rw [hph]))))

theorem bytesOut_perform {c : Computation α} (h : c.Held) {call : Call α δ}
    (hcall : call.leadsTo? ≠ some .released) : (c.perform call).bytesOut = c.bytesOut := by
  rw [bytesOut, bytesOut, (h.standing.perform call).living.plan_eq]
  simp only [perform_released hcall]

end Perform

section Out

variable [Device δ α] {Out : δ → Nat → Prop} (hmeters : Device.Meters Out) {d : δ} {n : Nat}

include hmeters

theorem out_release {c : Computation α} (hc : c.Held) (h : Out d (n + c.bytesOut)) :
    Out (c.release d).2 n := by
  rw [release]
  split
  · rename_i hph
    rw [bytesOut, if_pos hph] at h
    exact h
  · rename_i hph
    rw [bytesOut, if_neg hph, Plan.totalBytes_eq] at h
    refine out_giveBack hmeters ?_
    have hsize := (hc.standing.living.fits (hc.attached hph)).size_eq
    rw [heldBytes, List.map_fst_zip (by simp [hsize])]
    exact h

/-- Allocation takes the bytes of the whole plan, or none. -/
theorem out_allocate {c : Computation α} (hph : c.phase = .unallocated) (h : Out d n) :
    (∃ e, (c.allocate d).2.2 = .error e ∧ Out (c.allocate d).2.1 n) ∨
      (c.allocate d).2.2 = .ok () ∧ Out (c.allocate d).2.1 (n + c.plan.totalBytes) ∧
        ∃ m, m.Fits c.plan ∧ (c.allocate d).1 = { c with memory := m, phase := .allocated } := by
  have hstart : Out d (n + heldBytes ([] : List (Buffer × Storage α))) := h
  rw [allocate, hph]
  dsimp only
  split
  · rename_i d' e hacquire
    exact .inl ⟨e, rfl, out_acquire hmeters hstart hacquire⟩
  · rename_i d' held hacquire
    have hout := out_acquire hmeters hstart hacquire
    rw [Plan.totalBytes_eq]
    exact .inr ⟨rfl, hout, _, fits_of_acquire hacquire, rfl⟩

theorem out_run [Element α] (c : Computation α) (inputs : List (Tensor α)) (h : Out d n) :
    Out (c.run d inputs).2.1 n := by
  have hsync := hmeters.synchronize h
  have hexecute : Out (c.execute d inputs).2.1 n := by
    rw [execute]
    split
    · exact h
    · dsimp only
      split
      · exact h
      · split
        · rename_i hanswer
          rw [hanswer] at hsync
          exact hsync
        · rename_i hanswer
          rw [hanswer] at hsync
          split
          · exact hsync
          · exact hsync
  rw [run]
  split
  · exact h
  · exact h
  · exact h
  · exact hexecute
  · exact hexecute

end Out

end Computation

/-! ## Engines -/

namespace Engine

/-- Bytes that are out for the computations of an engine. -/
def bytesOut (e : Engine α) : Nat := total Computation.bytesOut e.computations.toList

/-- The count of the device is the planned size of the computations that have not been
released, and all of them have been when the engine is closed. -/
structure Balanced (Out : δ → Nat → Prop) (e : Engine α) (d : δ) : Prop where
  out : Out d e.bytesOut
  held : ∀ c ∈ e.computations.toList, c.Held
  closed : e.closed = true → ∀ c ∈ e.computations.toList, c.phase = .released

/-- What is out for one computation, and what is out for the others. -/
theorem bytesOut_update {e : Engine α} {i : Nat} {c : Computation α}
    (hc : e.computation? i = some c) :
    ∃ others, e.bytesOut = others + c.bytesOut ∧
      ∀ c', (e.update i c').bytesOut = others + c'.bytesOut := by
  obtain ⟨hi, hget⟩ := Array.getElem?_eq_some_iff.mp hc
  have hi' : i < e.computations.toList.length := by simpa using hi
  have hsplit : e.computations.toList
      = e.computations.toList.take i ++ c :: e.computations.toList.drop (i + 1) := by
    have hget' : e.computations.toList[i] = c := by simpa using hget
    rw [← hget', List.getElem_cons_drop, List.take_append_drop]
  refine ⟨total Computation.bytesOut (e.computations.toList.take i)
    + total Computation.bytesOut (e.computations.toList.drop (i + 1)), ?_, fun c' => ?_⟩
  · conv => lhs; rw [bytesOut, hsplit]
    rw [total_append, total_cons]
    omega
  · rw [bytesOut, update, Array.toList_setIfInBounds, List.set_eq_take_append_cons_drop,
      if_pos hi', total_append, total_cons]
    omega

section Balanced

variable [Element α] [Device δ α] {Out : δ → Nat → Prop}
  (hmeters : Device.Meters Out) {e : Engine α} {d : δ} (h : Balanced Out e d)

include h

omit [Element α] [Device δ α] in
/-- One computation changes, and with it what is out for it. -/
theorem Balanced.update {i : Nat} {c c' : Computation α} {d' : δ}
    (hc : e.computation? i = some c) (hheld : c'.Held)
    (hreleased : c.phase = .released → c'.phase = .released)
    (hout : ∀ n, Out d (n + c.bytesOut) → Out d' (n + c'.bytesOut)) :
    Balanced Out (e.update i c') d' := by
  obtain ⟨others, hbefore, hafter⟩ := bytesOut_update hc
  have hmem : ∀ c₁ ∈ (e.update i c').computations.toList,
      c₁ ∈ e.computations.toList ∨ c₁ = c' := by
    intro c₁ hc₁
    rw [Engine.update, Array.toList_setIfInBounds] at hc₁
    exact List.mem_or_eq_of_mem_set hc₁
  refine ⟨?_, fun c₁ hc₁ => ?_, fun hclosed c₁ hc₁ => ?_⟩
  · rw [hafter]
    have hsame := h.out
    rw [hbefore] at hsame
    exact hout others hsame
  · rcases hmem c₁ hc₁ with hold | rfl
    · exact h.held c₁ hold
    · exact hheld
  · rcases hmem c₁ hc₁ with hold | rfl
    · exact h.closed hclosed c₁ hold
    · exact hreleased (h.closed hclosed c (Array.mem_toList_iff.mpr (Array.mem_of_getElem? hc)))

omit [Element α] [Device δ α] in
theorem Balanced.held_of_computation? {i : Nat} {c : Computation α}
    (hc : e.computation? i = some c) : c.Held :=
  h.held c (Array.mem_toList_iff.mpr (Array.mem_of_getElem? hc))

theorem Balanced.replace (i : Nat) (name : String) (s : Storage α) :
    Balanced Out (e.replace i name s).1 d := by
  rw [Engine.replace]
  split
  · exact h
  · rename_i c hc
    have hheld := h.held_of_computation? hc
    have hcall : (Call.replace name s : Call α δ).leadsTo? ≠ some .released := by
      simp [Call.leadsTo?]
    refine h.update hc (hheld.perform (Call.replace name s : Call α δ))
      (Computation.perform_released hcall).mpr fun n hn => ?_
    have hsame := Computation.bytesOut_perform hheld hcall
    rw [← hsame] at hn
    exact hn

include hmeters

theorem Balanced.call (i : Nat) (inputs : List (Tensor α)) :
    Balanced Out (e.call d i inputs).1 (e.call d i inputs).2.1 := by
  rw [Engine.call]
  split
  · exact h
  · rename_i c hc
    have hheld := h.held_of_computation? hc
    have hcall : (Call.run d inputs).leadsTo? ≠ some .released := by
      simp [Call.leadsTo?]
    refine h.update hc (hheld.perform (Call.run d inputs))
      (Computation.perform_released hcall).mpr fun n hn => ?_
    have hsame := Computation.bytesOut_perform hheld hcall
    rw [← hsame] at hn
    exact Computation.out_run hmeters c inputs hn

theorem Balanced.release (i : Nat) :
    Balanced Out (e.release d i).1 (e.release d i).2 := by
  rw [Engine.release]
  split
  · exact h
  · rename_i c hc
    have hheld := h.held_of_computation? hc
    have hph := c.release_phase d
    refine h.update hc (hheld.perform (Call.release d)) (fun _ => hph) fun n hn => ?_
    have hnone : (c.release d).1.bytesOut = 0 := by rw [Computation.bytesOut, if_pos hph]
    rw [hnone]
    exact Computation.out_release hmeters hheld hn

omit h in
theorem out_releaseAll {cs : List (Computation α)} (hheld : ∀ c ∈ cs, c.Held) {d : δ}
    (hout : Out d (total Computation.bytesOut cs)) :
    Out (releaseAll d cs).2 0 ∧
      ∀ c ∈ (releaseAll d cs).1, c.Held ∧ c.phase = .released := by
  induction cs generalizing d with
  | nil => exact ⟨hout, nofun⟩
  | cons c rest ih =>
      obtain ⟨hc, hrest⟩ := List.forall_mem_cons.mp hheld
      rw [total_cons, Nat.add_comm] at hout
      obtain ⟨hnone, hall⟩ := ih hrest (Computation.out_release hmeters hc hout)
      refine ⟨hnone, List.forall_mem_cons.mpr ⟨⟨?_, c.release_phase d⟩, hall⟩⟩
      exact hc.perform (Call.release d)

omit h hmeters [Element α] in
theorem bytesOut_of_released (hreleased : ∀ c ∈ e.computations.toList, c.phase = .released) :
    e.bytesOut = 0 := by
  rw [bytesOut]
  revert hreleased
  generalize e.computations.toList = cs
  intro hreleased
  induction cs with
  | nil => rfl
  | cons c rest ih =>
      obtain ⟨hc, hrest⟩ := List.forall_mem_cons.mp hreleased
      rw [total_cons, ih hrest, Computation.bytesOut, if_pos hc]

theorem Balanced.close : Balanced Out (e.close d).1 (e.close d).2 := by
  obtain ⟨hnone, hall⟩ := out_releaseAll hmeters h.held h.out
  refine ⟨?_, fun c hc => (hall c hc).1, fun _ c hc => (hall c hc).2⟩
  rw [bytesOut_of_released fun c hc => (hall c hc).2]
  exact hnone

/-- What a compilation does: it fails and leaves the engine and the count as they are,
or it adds one computation, which is populated. -/
theorem Balanced.compile (w : Workspace α) (outputs parameters : List Handle) :
    (∃ error, (e.compile d w outputs parameters).2.2 = .error error ∧
      (e.compile d w outputs parameters).1 = e ∧
      Out (e.compile d w outputs parameters).2.1 e.bytesOut) ∨
    ∃ c, (e.compile d w outputs parameters).2.2 = .ok e.computations.size ∧
      (e.compile d w outputs parameters).1 = { e with computations := e.computations.push c } ∧
      e.closed = false ∧ c.Held ∧ c.phase = .populated ∧
      Out (e.compile d w outputs parameters).2.1 (e.bytesOut + c.plan.totalBytes) := by
  rw [Engine.compile]
  split
  · exact .inl ⟨_, rfl, rfl, h.out⟩
  · rename_i hopen
    split
    · exact .inl ⟨_, rfl, rfl, h.out⟩
    · rename_i c hprepare
      obtain ⟨slice, _, hcompile⟩ := Except.bind_eq_ok.mp hprepare
      obtain ⟨plan, _, hbind⟩ := Except.bind_eq_ok.mp hcompile
      obtain ⟨hstanding, hph⟩ := Computation.standing_of_bind hbind
      have hattached : c.Standing (c.allocate d).1 :=
        hstanding.perform (.allocate d)
      have hcases := Computation.out_allocate hmeters hph h.out
      revert hattached hcases
      rcases c.allocate d with ⟨c₁, d₁, result⟩
      intro hattached hcases
      rcases hcases with ⟨error, hresult, hout⟩ | ⟨hresult, hout, m, _, hc₁⟩
      · obtain rfl : result = .error error := hresult
        exact .inl ⟨error, rfl, rfl, hout⟩
      · obtain rfl : result = .ok () := hresult
        obtain rfl : c₁ = { c with memory := m, phase := .allocated } := hc₁
        -- population of what has just been allocated succeeds
        have hpopulated := Computation.Held.perform ⟨hattached.self, by simp⟩ (.populate : Call α δ)
        exact .inr ⟨_, rfl, rfl, by simpa using hopen, hpopulated, rfl, hout⟩

theorem Balanced.act (a : Action α) : Balanced Out (e.act d a).1 (e.act d a).2.1 := by
  cases a with
  | compile w outputs parameters =>
      show Balanced Out (e.compile d w outputs parameters).1 (e.compile d w outputs parameters).2.1
      rcases h.compile hmeters w outputs parameters with
        ⟨error, _, he, hout⟩ | ⟨c, _, he, hopen, hheld, hph, hout⟩
      · rw [he]
        exact ⟨hout, h.held, h.closed⟩
      · rw [he]
        refine ⟨?_, fun c₁ hc₁ => ?_, fun hclosed => ?_⟩
        · rw [bytesOut, Array.toList_push, total_append, total_cons, total_nil,
            Computation.bytesOut, hph]
          exact hout
        · rw [Array.toList_push, List.mem_append, List.mem_singleton] at hc₁
          rcases hc₁ with hold | rfl
          · exact h.held c₁ hold
          · exact hheld
        · cases hopen.symm.trans hclosed
  | call i inputs => exact h.call hmeters i inputs
  | replace i name s => exact h.replace i name s
  | release i => exact h.release hmeters i
  | close => exact h.close hmeters

end Balanced

/-! ## Runs -/

section After

variable [Element α] [Device δ α]

/-- The engine and its device after some actions. -/
def after : Engine α → δ → List (Action α) → Engine α × δ
  | e, device, [] => (e, device)
  | e, device, a :: rest => after (e.act device a).1 (e.act device a).2.1 rest

theorem Balanced.after {Out : δ → Nat → Prop} (hmeters : Device.Meters Out) {e : Engine α}
    {d : δ} (h : Balanced Out e d) (actions : List (Action α)) :
    Balanced Out (e.after d actions).1 (e.after d actions).2 := by
  induction actions generalizing e d with
  | nil => exact h
  | cons a rest ih => exact ih (h.act hmeters a)

omit [Element α] [Device δ α] in
theorem balanced_new (config : EngineConfig) {Out : δ → Nat → Prop} {d : δ} (h : Out d 0) :
    Balanced Out (.new config : Engine α) d :=
  ⟨h, nofun, nofun⟩

theorem closed_act (e : Engine α) (d : δ) (a : Action α) :
    (e.act d a).1.closed = true ↔ e.closed = true ∨ .close = a := by
  cases a with
  | compile w outputs parameters =>
      simp only [act, compile]
      split
      · simp
      · split
        · simp
        · split
          · simp
          · split
            · simp
            · simp
  | call i inputs =>
      simp only [act, call]
      split
      · simp
      · simp [Engine.update]
  | replace i name s =>
      simp only [act, replace]
      split
      · simp
      · simp [Engine.update]
  | release i =>
      simp only [act, release]
      split
      · simp
      · simp [Engine.update]
  | close => simp [act, close]

/-- An engine is closed when it has been, and stays so. -/
theorem closed_after (e : Engine α) (d : δ) (actions : List (Action α)) :
    (e.after d actions).1.closed = true ↔ e.closed = true ∨ .close ∈ actions := by
  induction actions generalizing e d with
  | nil => simp [Engine.after]
  | cons a rest ih =>
      rw [Engine.after, ih, closed_act, List.mem_cons, or_assoc]

end After

end Engine

/-! ## What a device is to an engine -/

/-- The operations of two devices correspond. -/
structure Device.Hom [Device δ α] [Device δ' α] (f : δ → δ') : Prop where
  allocate : ∀ d b, Device.allocate (f d) b = (f (Device.allocate d b).1, (Device.allocate d b).2)
  free : ∀ d b (s : Storage α), Device.free (f d) b s = f (Device.free d b s)
  synchronize : ∀ d, Device.synchronize (f d)
    = (f (Device.synchronize d).1, (Device.synchronize d).2)

theorem hom_host [Element α] : Device.Hom (AuditedDevice.host (α := α)) :=
  ⟨fun _ _ => rfl, fun _ _ _ => rfl, fun _ => rfl⟩

section Hom

variable [Device δ α] [Device δ' α] {f : δ → δ'} (hf : Device.Hom f)

include hf

namespace Computation

theorem giveBack_hom (d : δ) (held : List (Buffer × Storage α)) :
    giveBack (f d) held = f (giveBack d held) := by
  induction held generalizing d with
  | nil => rfl
  | cons entry rest ih =>
      show giveBack (Device.free (f d) entry.1 entry.2) rest = _
      rw [hf.free]
      exact ih _

theorem acquire_hom (d : δ) (held : List (Buffer × Storage α)) (buffers : List Buffer) :
    acquire (f d) held buffers
      = (f (acquire d held buffers).1, (acquire d held buffers).2) := by
  induction buffers generalizing d held with
  | nil => rfl
  | cons b rest ih =>
      rw [acquire, acquire, hf.allocate]
      rcases Device.allocate d b with ⟨d', e | s⟩
      · simp only [giveBack_hom hf]
      · dsimp only
        split
        · exact ih d' _
        · rw [hf.free, giveBack_hom hf]

theorem allocate_hom (c : Computation α) (d : δ) :
    c.allocate (f d) = ((c.allocate d).1, f (c.allocate d).2.1, (c.allocate d).2.2) := by
  rw [allocate, allocate, acquire_hom hf]
  split
  · rfl
  · rcases acquire d [] c.plan.buffers.toList with ⟨d', e | held⟩
    · rfl
    · rfl
  · rfl

theorem release_hom (c : Computation α) (d : δ) :
    c.release (f d) = ((c.release d).1, f (c.release d).2) := by
  rw [release, release, giveBack_hom hf]
  split
  · rfl
  · rfl

variable [Element α]

theorem execute_hom (c : Computation α) (d : δ) (inputs : List (Tensor α)) :
    c.execute (f d) inputs
      = ((c.execute d inputs).1, f (c.execute d inputs).2.1, (c.execute d inputs).2.2) := by
  rw [execute, execute, hf.synchronize]
  split
  · rfl
  · dsimp only
    split
    · rfl
    · rcases Device.synchronize d with ⟨d', e | _⟩
      · rfl
      · dsimp only
        split
        · rfl
        · rfl

theorem run_hom (c : Computation α) (d : δ) (inputs : List (Tensor α)) :
    c.run (f d) inputs
      = ((c.run d inputs).1, f (c.run d inputs).2.1, (c.run d inputs).2.2) := by
  rw [run, run, execute_hom hf]
  split
  · rfl
  · rfl
  · rfl
  · rfl
  · rfl

end Computation

namespace Engine

theorem releaseAll_hom (d : δ) (cs : List (Computation α)) :
    releaseAll (f d) cs = ((releaseAll d cs).1, f (releaseAll d cs).2) := by
  induction cs generalizing d with
  | nil => rfl
  | cons c rest ih =>
      simp only [releaseAll, Computation.release_hom hf, ih]

variable [Element α]

theorem compile_hom (e : Engine α) (d : δ) (w : Workspace α) (outputs parameters : List Handle) :
    e.compile (f d) w outputs parameters
      = ((e.compile d w outputs parameters).1, f (e.compile d w outputs parameters).2.1,
          (e.compile d w outputs parameters).2.2) := by
  rw [compile, compile]
  split
  · rfl
  · split
    · rfl
    · rename_i c _
      rw [Computation.allocate_hom hf]
      rcases c.allocate d with ⟨c₁, d₁, e₁ | _⟩
      · rfl
      · dsimp only
        rcases c₁.populate with ⟨c₂, e₂ | _⟩
        · dsimp only
          rw [Computation.release_hom hf]
        · rfl

theorem act_hom (e : Engine α) (d : δ) (a : Action α) :
    e.act (f d) a = ((e.act d a).1, f (e.act d a).2.1, (e.act d a).2.2) := by
  cases a with
  | compile w outputs parameters => simp only [act, compile_hom hf]
  | call i inputs =>
      simp only [act, call]
      split
      · rfl
      · simp only [Computation.run_hom hf]
  | replace i name s => rfl
  | release i =>
      simp only [act, release]
      split
      · rfl
      · simp only [Computation.release_hom hf]
  | close => simp only [act, close, releaseAll_hom hf]

/-- An engine sees its device through its operations alone. -/
theorem after_hom (e : Engine α) (d : δ) (actions : List (Action α)) :
    e.after (f d) actions = ((e.after d actions).1, f (e.after d actions).2) := by
  induction actions generalizing e d with
  | nil => rfl
  | cons a rest ih =>
      rw [after, after, act_hom hf]
      exact ih _ _

end Engine

end Hom

/-! ## Engines on a host device -/

namespace Engine

variable [Element α]

/-- A call on a computation that has been released, or that there never was. -/
theorem call_of_released [Device δ α] {e : Engine α} {i : Nat}
    (h : ∀ c, e.computation? i = some c → c.phase = .released) (d : δ)
    (inputs : List (Tensor α)) :
    e.call d i inputs = (e, d, .error Computation.releasedError) := by
  rw [call]
  split
  · rfl
  · rename_i c hc
    have hsame : e.update i c = e := by
      obtain ⟨hi, rfl⟩ := Array.getElem?_eq_some_iff.mp hc
      simp only [update, Array.setIfInBounds_def, hi, dite_true, Array.set_getElem_self]
    rw [Computation.run, h c hc]
    dsimp only
    rw [hsame]
    rfl

/-- The books of an engine on a host device, pooled or not, balance after any actions:

* the bytes that are out are those of the plans of the computations that have not been
  released, and never have more come back than were out;
* a compilation that fails leaves the engine and the count as they are, and one that
  succeeds adds one computation;
* once the engine has been closed, all computations are released, nothing is out, and
  every compilation and every call is refused. -/
theorem resource_balance (config : EngineConfig) (pool : Option (Pool α))
    (actions : List (Action α)) :
    ∃ (e : Engine α) (d : HostDevice α),
      (Engine.new config).after (⟨pool, 0⟩ : HostDevice α) actions = (e, d) ∧
      (Engine.new config).after (⟨⟨pool, 0⟩, false⟩ : AuditedDevice α) actions
        = (e, ⟨d, false⟩) ∧
      d.liveBytes = e.bytesOut ∧
      (∀ w outputs parameters error,
        (e.compile d w outputs parameters).2.2 = .error error →
        (e.compile d w outputs parameters).1 = e ∧
          (e.compile d w outputs parameters).2.1.liveBytes = d.liveBytes) ∧
      (∀ w outputs parameters i,
        (e.compile d w outputs parameters).2.2 = .ok i →
        i = e.computations.size ∧ ∃ c : Computation α, c.phase = .populated ∧
          (e.compile d w outputs parameters).1
            = { e with computations := e.computations.push c } ∧
          (e.compile d w outputs parameters).2.1.liveBytes
            = d.liveBytes + c.plan.totalBytes) ∧
      (.close ∈ actions →
        (∀ c ∈ e.computations, c.phase = .released) ∧ d.liveBytes = 0 ∧
        (∀ w outputs parameters,
          e.compile d w outputs parameters = (e, d, .error (.released "transformer"))) ∧
        ∀ i inputs, e.call d i inputs = (e, d, .error Computation.releasedError)) := by
  have hrun := Balanced.after meters_audited
    (balanced_new config (d := (⟨⟨pool, 0⟩, false⟩ : AuditedDevice α)) ⟨rfl, rfl⟩) actions
  have hhom := after_hom hom_host (.new config) ⟨⟨pool, 0⟩, false⟩ actions
  have hclosed := closed_after (.new config) (⟨⟨pool, 0⟩, false⟩ : AuditedDevice α) actions
  revert hrun hhom hclosed
  rcases (Engine.new config).after (⟨⟨pool, 0⟩, false⟩ : AuditedDevice α) actions
    with ⟨e, ⟨d, overdrawn⟩⟩
  intro hrun hhom hclosed
  obtain ⟨hlive, hnever⟩ := hrun.out
  have hbalanced : Balanced (fun (d : HostDevice α) n => d.liveBytes = n) e d :=
    ⟨hlive, hrun.held, hrun.closed⟩
  refine ⟨e, d, hhom, ?_, hlive, ?failed, ?compiled, ?closed⟩
  · obtain rfl : overdrawn = false := hnever
    rfl
  case failed =>
    intro w outputs parameters error herror
    rcases hbalanced.compile meters_host w outputs parameters with
      ⟨_, _, he, hout⟩ | ⟨_, hok, _⟩
    · exact ⟨he, hout.trans hlive.symm⟩
    · cases hok.symm.trans herror
  case compiled =>
    intro w outputs parameters i hi
    rcases hbalanced.compile meters_host w outputs parameters with
      ⟨_, herror, _⟩ | ⟨c, hok, he, _, _, hph, hout⟩
    · cases herror.symm.trans hi
    · refine ⟨(Except.ok.inj (hok.symm.trans hi)).symm, c, hph, he, ?_⟩
      rw [hlive]
      exact hout
  case closed =>
    intro hclose
    have hshut : e.closed = true := hclosed.mpr (.inr hclose)
    have hreleased := hbalanced.closed hshut
    refine ⟨fun c hc => hreleased c (Array.mem_toList_iff.mpr hc), ?_,
      fun w outputs parameters => ?_, fun i inputs => call_of_released (fun c hc => ?_) d inputs⟩
    · exact hlive.trans (bytesOut_of_released hreleased)
    · rw [compile, if_pos hshut]
    · exact hreleased c (Array.mem_toList_iff.mpr (Array.mem_of_getElem? hc))

end Engine

end TensorGraph
