/-
# The life of a computation

What holds after any calls in any order, whatever they are made with and whether or not
they succeed:

    storage is attached to every buffer of the plan or to none      (`Standing`)
    the phase tells which calls have succeeded so far               (`reached_iff`)

and from these what another call does (`Orderly`).  Both follow from what one call can do
(`Turn`) by induction on the calls.

Attached means that every buffer has its storage.  In the strict program, where a step takes
the storage that it writes for as long as it runs, this is so again after every call, with
an error or without one (`populate?_unlent`, `execute?_unlent`).
-/
import Mathlib.Data.List.Induction
import TensorGraph.Proofs.Persistence
import TensorGraph.Proofs.Strict

namespace TensorGraph

variable {α δ : Type}

namespace Computation

variable [Element α] [Device δ α]

/-! ## Histories -/

/-- The computation `c` is `c₀` at some time of its life: storage is attached to every
buffer of the plan, or to none. -/
structure Standing (c₀ c : Computation α) : Prop where
  living : c₀.Living c
  detached : c.phase.attached = false → c.memory = #[]

omit [Element α] in
theorem Standing.self {c₀ c : Computation α} (h : c₀.Standing c) : c.Standing c :=
  ⟨⟨rfl, fun hph => h.living.plan_eq ▸ h.living.fits hph⟩, h.detached⟩

theorem Turn.detached {c c' : Computation α} {call : Call α δ} {a : Except Error Unit}
    (hturn : Turn c call c' a) (h : c.phase.attached = false → c.memory = #[]) :
    c'.phase.attached = false → c'.memory = #[] := by
  intro hph
  cases hturn with
  | late | early | settled => exact h hph
  | failed hretains =>
      have hsize := hretains.size_eq
      rw [h hph] at hsize
      exact Array.eq_empty_of_size_eq_zero hsize
  | allocated | populated | ran => cases hph
  | replaced hattached => cases hattached.symm.trans hph
  | released => rfl

theorem Standing.perform {c₀ c : Computation α} (h : c₀.Standing c) (call : Call α δ) :
    c₀.Standing (c.perform call) :=
  ⟨h.living.perform call, (turn c call).detached h.detached⟩

theorem after_standing {c₀ c : Computation α} (h : c₀.Standing c) (calls : List (Call α δ)) :
    c₀.Standing (c.after calls) := by
  induction calls generalizing c with
  | nil => exact h
  | cons call rest ih => exact ih (h.perform call)

/-- In the course of the calls one that leads to the given phase succeeds. -/
def Reached (c₀ : Computation α) (calls : List (Call α δ)) (ph : Phase) : Prop :=
  ∃ before call after, calls = before ++ call :: after ∧ call.leadsTo? = some ph ∧
    (c₀.after before).answer call = .ok ()

theorem after_concat (c₀ : Computation α) (calls : List (Call α δ)) (call : Call α δ) :
    c₀.after (calls ++ [call]) = (c₀.after calls).perform call := by
  simp only [after, List.foldl_append, List.foldl_cons, List.foldl_nil]

theorem reached_concat {c₀ : Computation α} {calls : List (Call α δ)} {call : Call α δ}
    {ph : Phase} : c₀.Reached (calls ++ [call]) ph ↔
      c₀.Reached calls ph ∨
        call.leadsTo? = some ph ∧ (c₀.after calls).answer call = .ok () := by
  constructor
  · rintro ⟨before, call', later, hcalls, hleads, hok⟩
    rcases List.snoc_eq_append_cons hcalls with ⟨rfl, rfl, rfl⟩ | ⟨later', rfl, hcalls'⟩
    · exact .inr ⟨hleads, hok⟩
    · exact .inl ⟨before, call', later', hcalls', hleads, hok⟩
  · rintro (⟨before, call', later, rfl, hleads, hok⟩ | ⟨hleads, hok⟩)
    · exact ⟨before, call', later ++ [call], by simp, hleads, hok⟩
    · exact ⟨calls, call, [], rfl, hleads, hok⟩

/-- A call takes the phase as far as it leads, if it succeeds, and no call takes it back. -/
theorem Turn.rank_iff {c c' : Computation α} {call : Call α δ} {a : Except Error Unit}
    (hturn : Turn c call c' a) (ph : Phase) :
    ph.rank ≤ c'.phase.rank ↔ ph.rank ≤ c.phase.rank ∨
      a = .ok () ∧ (call.leadsTo? = some ph ∨ call.leadsTo? = some .released) := by
  cases hturn with
  | late | early | failed => simp
  | replaced => simp [Call.leadsTo?]
  | @settled _ ph' hleads _ hrank =>
      refine ⟨.inl, fun h => ?_⟩
      rcases h with h | ⟨_, h | h⟩
      · exact h
      · obtain rfl : ph' = ph := Option.some.inj (hleads.symm.trans h)
        exact hrank
      · obtain rfl : ph' = .released := Option.some.inj (hleads.symm.trans h)
        exact Nat.le_trans ph.rank_le_released hrank
  | allocated hph =>
      rw [hph]
      cases ph with
      | unallocated | allocated | populated | ready | released =>
          simp [Call.leadsTo?, Phase.rank]
  | populated hph =>
      rw [hph]
      cases ph with
      | unallocated | allocated | populated | ready | released =>
          simp [Call.leadsTo?, Phase.rank]
  | ran hph =>
      cases hc : c.phase with
      | unallocated | allocated | released => rw [hc] at hph; cases hph
      | populated | ready =>
          cases ph with
          | unallocated | allocated | populated | ready | released =>
              simp [Call.leadsTo?, Phase.rank]
  | released => simp [Call.leadsTo?, ph.rank_le_released]

/-- The phase tells which calls have succeeded. -/
theorem reached_iff {c₀ : Computation α} (hbegin : c₀.phase = .unallocated)
    (calls : List (Call α δ)) {ph : Phase} (hne : ph ≠ .unallocated) :
    ph.rank ≤ (c₀.after calls).phase.rank ↔
      c₀.Reached calls ph ∨ c₀.Reached calls .released := by
  induction calls using List.reverseRecOn with
  | nil =>
      have none_reached {ph : Phase} : ¬ c₀.Reached ([] : List (Call α δ)) ph := by
        rintro ⟨before, call, later, hcalls, _⟩
        cases before with
        | nil | cons => cases hcalls
      have hrank : ¬ ph.rank ≤ c₀.phase.rank := by
        rw [hbegin]
        cases ph with
        | unallocated => exact absurd rfl hne
        | allocated | populated | ready | released => decide
      exact ⟨fun h => absurd h hrank, fun h => (h.elim none_reached none_reached).elim⟩
  | append_singleton calls call ih =>
      rw [after_concat, (turn (c₀.after calls) call).rank_iff ph, ih, reached_concat,
        reached_concat]
      tauto

/-- A call is answered that it comes too early only when it does, or by somebody else. -/
theorem Turn.notReady {c c' : Computation α} {call : Call α δ} {a : Except Error Unit}
    (hturn : Turn c call c' a) {fault : ReadinessFault} (ha : a = .error (.notReady fault)) :
    (∃ needed, call.needs? = some (needed, fault) ∧ c.phase.rank < needed.rank) ∨
      Foreign c call (.notReady fault) := by
  cases hturn with
  | late => cases ha
  | early hneeds hph =>
      cases ha
      exact .inl ⟨_, hneeds, hph⟩
  | failed _ _ hforeign =>
      cases ha
      exact .inr (hforeign rfl)
  | settled | allocated | populated | ran | replaced | released => cases ha

/-- A call is answered that it comes too late only when it does, or by somebody else. -/
theorem Turn.ended {c c' : Computation α} {call : Call α δ} {a : Except Error Unit}
    (hturn : Turn c call c' a) {what : String} (ha : a = .error (.released what)) :
    (c.phase = .released ∧ call.leadsTo? ≠ some .released ∧ what = "computation") ∨
      Foreign c call (.released what) := by
  cases hturn with
  | late hph hcall =>
      cases ha
      exact .inl ⟨hph, hcall, rfl⟩
  | failed _ _ hforeign =>
      cases ha
      exact .inr (hforeign rfl)
  | early | settled | allocated | populated | ran | replaced | released => cases ha

/-- Only a run can fail and leave a trace. -/
theorem Turn.kept {c c' : Computation α} {call : Call α δ} {a : Except Error Unit} {e : Error}
    (hturn : Turn c call c' a) (ha : a = .error e) (hcall : call.leadsTo? ≠ some .ready) :
    c' = c := by
  cases hturn with
  | late | early => rfl
  | failed _ hmemory => rw [hmemory hcall]
  | settled | allocated | populated | ran | replaced | released => cases ha

theorem Turn.running {c c' : Computation α} {call : Call α δ} {a : Except Error Unit}
    (hturn : Turn c call c' a) (hleads : call.leadsTo? = some .ready) (ha : a = .ok ()) :
    c.phase.running = true := by
  cases hturn with
  | late | early | failed => cases ha
  | settled hleads' hne => exact absurd (Option.some.inj (hleads'.symm.trans hleads)) hne
  | allocated | populated | replaced | released => cases hleads
  | ran hph => exact hph

/-- Only a run that succeeds makes a computation ready. -/
theorem Turn.ready_iff {c c' : Computation α} {call : Call α δ} {a : Except Error Unit}
    (hturn : Turn c call c' a) :
    c.phase ≠ .ready ∧ c'.phase = .ready ↔
      call.leadsTo? = some .ready ∧ a = .ok () ∧ c.phase = .populated := by
  cases hturn with
  | late | early | failed => simp
  | replaced => simp [Call.leadsTo?]
  | settled hleads hne =>
      refine ⟨fun h => absurd h.2 h.1, fun h => ?_⟩
      exact absurd (Option.some.inj (hleads.symm.trans h.1)) hne
  | allocated | populated | released => simp [Call.leadsTo?]
  | ran hph =>
      cases hc : c.phase with
      | unallocated | allocated | released =>
          rw [hc] at hph
          cases hph
      | populated | ready => simp [Call.leadsTo?]

/-! ## The life of a computation -/

/-- What another call does to a computation that began as `c₀`, after some calls. -/
structure Orderly (c₀ : Computation α) (calls : List (Call α δ)) (call : Call α δ) : Prop where
  /-- While storage is attached there is some for every buffer of the plan, as long as
  planned; before allocation and after release there is none. -/
  standing : c₀.Standing (c₀.after calls)
  /-- No call takes the phase back. -/
  forward : (c₀.after calls).phase.rank ≤ ((c₀.after calls).perform call).phase.rank
  /-- A phase has been reached exactly when a call that leads to it has succeeded, or
  the computation was released. -/
  told : ∀ ph, ph ≠ .unallocated →
    (ph.rank ≤ (c₀.after calls).phase.rank ↔ c₀.Reached calls ph ∨ c₀.Reached calls .released)
  /-- A call that comes too early is refused and changes nothing. -/
  early : ∀ needed fault, call.needs? = some (needed, fault) →
    (c₀.after calls).phase.rank < needed.rank →
    (c₀.after calls).conduct call
      = (c₀.after calls, call.device?, .error (.notReady fault))
  /-- After release every call but a release is refused and changes nothing. -/
  late : (c₀.after calls).phase = .released → call.leadsTo? ≠ some .released →
    (c₀.after calls).conduct call = (c₀.after calls, call.device?, .error releasedError)
  /-- No other call is answered that it comes too early. -/
  notReady : ∀ fault, (c₀.after calls).answer call = .error (.notReady fault) →
    (∃ needed, call.needs? = some (needed, fault) ∧
      (c₀.after calls).phase.rank < needed.rank) ∨
    Foreign (c₀.after calls) call (.notReady fault)
  /-- No other call is answered that it comes too late. -/
  released : ∀ what, (c₀.after calls).answer call = .error (.released what) →
    ((c₀.after calls).phase = .released ∧ call.leadsTo? ≠ some .released ∧
      what = "computation") ∨
    Foreign (c₀.after calls) call (.released what)
  /-- No other call that fails changes anything either, but that a run may have written to
  storage. -/
  failed : ∀ e, (c₀.after calls).answer call = .error e → call.leadsTo? ≠ some .ready →
    (c₀.after calls).perform call = c₀.after calls
  /-- Allocation, population and release change nothing when they have succeeded before. -/
  once : ∀ ph, ph ≠ .ready → call.leadsTo? = some ph → c₀.Reached calls ph →
    ((c₀.after calls).conduct call).1 = c₀.after calls ∧
      ((c₀.after calls).conduct call).2.1 = call.device?
  /-- The first population that succeeds puts literals and initial values in place, and
  does nothing else. -/
  first : call = .populate → (c₀.after calls).answer call = .ok () →
    ¬ c₀.Reached calls .populated →
    (c₀.after calls).perform call
      = { c₀ with
          memory := c₀.presets.foldl (preset c₀.seed) (c₀.after calls).memory
          phase := .populated }
  /-- No call but a population looks at literals and initial values. -/
  elsewhere : call ≠ .populate → ∀ presets seed,
    ({ c₀.after calls with presets, seed } : Computation α).conduct call
      = ({ ((c₀.after calls).conduct call).1 with presets, seed },
          ((c₀.after calls).conduct call).2)
  /-- The computation becomes ready by the first run that succeeds, and only by it. -/
  ready : ((c₀.after calls).phase ≠ .ready ∧ ((c₀.after calls).perform call).phase = .ready) ↔
    call.leadsTo? = some .ready ∧ (c₀.after calls).answer call = .ok () ∧
      ¬ c₀.Reached calls .ready

omit [Element α] in
theorem standing_of_bind {g : Graph α} {p : Plan} {seed : UInt64} {c₀ : Computation α}
    (h : bind g p seed = .ok c₀) : c₀.Standing c₀ ∧ c₀.phase = .unallocated := by
  obtain ⟨steps, _, h⟩ := Except.bind_eq_ok.mp h
  obtain ⟨presets, _, h⟩ := Except.bind_eq_ok.mp h
  cases h
  exact ⟨⟨⟨rfl, nofun⟩, fun _ => rfl⟩, rfl⟩

/-- A computation that was bound to a plan, whatever is called on it afterwards and
whether or not that succeeds: the phase only advances and tells which calls have
succeeded; storage is attached from allocation to release, for all buffers of the
plan; calls are refused exactly for coming too early or too late, other than by the
device or a custom operator, and then change nothing; and literals and initial values
are put in place once. -/
theorem lifecycle {g : Graph α} {p : Plan} {seed : UInt64} {c₀ : Computation α}
    (h : bind g p seed = .ok c₀) (calls : List (Call α δ)) (call : Call α δ) :
    Orderly c₀ calls call := by
  obtain ⟨hself, hbegin⟩ := standing_of_bind h
  have hstanding := after_standing hself calls
  have hturn := turn (c₀.after calls) call
  have told (ph : Phase) (hne : ph ≠ .unallocated) := reached_iff hbegin calls hne
  refine ⟨hstanding, ?forward, told, fun _ _ => conduct_early, conduct_late,
    fun _ => hturn.notReady, fun _ => hturn.ended, fun _ => hturn.kept, ?once, ?first,
    ?elsewhere, ?ready⟩
  case forward => exact (hturn.rank_iff _).mpr (.inl (Nat.le_refl _))
  case once =>
    intro ph hne hleads hreached
    refine conduct_settled hleads hne ((told ph ?_).mpr (.inl hreached))
    rintro rfl
    cases call with
    | allocate | populate | run | replace | release => cases hleads
  case first =>
    rintro rfl hok hnot
    have hpresets : (c₀.after calls).presets = c₀.presets := by rw [hstanding.living.alike]
    have hseed : (c₀.after calls).seed = c₀.seed := by rw [hstanding.living.alike]
    rw [hok] at hturn
    generalize (c₀.after calls).perform (.populate : Call α δ) = c' at hturn
    cases hturn with
    | settled hleads hne hrank hlate =>
        cases hleads
        rcases (told .populated nofun).mp hrank with hreached | hreached
        · exact absurd hreached hnot
        · have hph := Phase.eq_released ((told .released nofun).mpr (.inr hreached))
          exact nomatch hlate hph
    | populated hph =>
        refine (hstanding.living.with_eq _ _).trans ?_
        rw [hpresets, hseed]
  case elsewhere =>
    intro hcall presets seed'
    refine conduct_presets ?_ _ presets seed'
    cases call with
    | populate => exact absurd rfl hcall
    | allocate | run | replace | release => nofun
  case ready =>
    rw [hturn.ready_iff]
    refine and_congr_right fun hleads => and_congr_right fun hok => ?_
    constructor
    · intro hph hreached
      have hrank := (told .ready nofun).mpr (.inl hreached)
      rw [hph] at hrank
      exact absurd hrank (by decide)
    · intro hnot
      cases hph : (c₀.after calls).phase with
      | populated => rfl
      | unallocated | allocated | released =>
          have hrunning := hturn.running hleads hok
          rw [hph] at hrunning
          cases hrunning
      | ready =>
          rcases (told .ready nofun).mp (Nat.le_of_eq (by rw [hph])) with hreached | hreached
          · exact absurd hreached hnot
          · have hlate := Phase.eq_released ((told .released nofun).mpr (.inr hreached))
            cases hph.symm.trans hlate

end Computation

/-! ## Storage that is lent -/

/-- No storage is lent out. -/
def Slots.Unlent (slots : Slots α) : Prop := ∀ b : Nat, slots[b]? ≠ some none

theorem Memory.unlent_slots (m : Memory α) : m.slots.Unlent := by
  intro b
  simp [Memory.slots]

namespace Slots

variable {slots slots' : Slots α} {b : Nat}

/-- The storage that a step writes is missing for as long as the step runs. -/
theorem not_unlent_lend (hb : b < slots.size) : ¬ (slots.lend b).Unlent := by
  intro h
  exact h b (by simp [lend, hb])

theorem Unlent.restore (h : slots.Unlent) (b : Nat) (x : Storage α) :
    (slots.restore b x).Unlent := by
  intro k
  rw [Slots.restore, Array.getElem?_setIfInBounds]
  split
  · split
    · nofun
    · nofun
  · exact h k

theorem Unlent.restore_lend (h : slots.Unlent) (b : Nat) (x : Storage α) :
    ((slots.lend b).restore b x).Unlent := by
  rw [Slots.restore, lend, Array.setIfInBounds_setIfInBounds]
  exact h.restore b x

/-- The slots are those of before, of which none is lent out, with other contents. -/
structure Keeps (slots slots' : Slots α) : Prop where
  unlent : slots.Unlent → slots'.Unlent
  size_eq : slots'.size = slots.size

theorem Keeps.refl (slots : Slots α) : slots.Keeps slots := ⟨id, rfl⟩

theorem Keeps.trans {slots'' : Slots α} (h : slots.Keeps slots') (h' : slots'.Keeps slots'') :
    slots.Keeps slots'' :=
  ⟨fun hunlent => h'.unlent (h.unlent hunlent), h'.size_eq.trans h.size_eq⟩

theorem keeps_of_write? {start : Nat} {block : Array α}
    (h : slots.write? b start block = some slots') : slots.Keeps slots' := by
  obtain ⟨storage, _, h⟩ := Option.bind_eq_some_iff.mp h
  obtain ⟨_, _, h⟩ := Option.bind_eq_some_iff.mp h
  cases h
  exact ⟨fun hunlent => hunlent.restore b _, Array.size_setIfInBounds⟩

theorem keeps_of_foldlM {β : Type} {f : Slots α → β → Option (Slots α)}
    (hf : ∀ slots x slots', f slots x = some slots' → slots.Keeps slots') {xs : List β}
    (h : xs.foldlM f slots = some slots') : slots.Keeps slots' := by
  induction xs generalizing slots with
  | nil =>
      cases h
      exact .refl _
  | cons x rest ih =>
      obtain ⟨next, hnext, h⟩ := Option.bind_eq_some_iff.mp h
      exact (hf _ _ _ hnext).trans (ih h)

end Slots

namespace Step

variable [Element α] {slots slots' : Slots α} {failure : Option Error}

/-- Whether or not the step got to its end, the storage that it was lent is back. -/
theorem keeps_of_run? {st : Step α} (h : st.run? slots = some (slots', failure)) :
    slots.Keeps slots' := by
  obtain ⟨storage, _, h⟩ := Option.bind_eq_some_iff.mp h
  obtain ⟨block, _, h⟩ := Option.bind_eq_some_iff.mp h
  obtain ⟨result, _, h⟩ := Option.bind_eq_some_iff.mp h
  obtain ⟨_, _, h⟩ := Option.bind_eq_some_iff.mp h
  cases h
  refine ⟨fun hunlent => hunlent.restore_lend _ _, ?_⟩
  rw [Slots.restore, Slots.lend, Array.size_setIfInBounds, Array.size_setIfInBounds]

theorem keeps_of_runAll? {sts : List (Step α)} (h : runAll? sts slots = some (slots', failure)) :
    slots.Keeps slots' := by
  induction sts generalizing slots with
  | nil =>
      cases h
      exact .refl _
  | cons st rest ih =>
      obtain ⟨⟨next, stopped⟩, hrun, h⟩ := Option.bind_eq_some_iff.mp h
      have hnext := keeps_of_run? hrun
      cases stopped with
      | none => exact hnext.trans (ih h)
      | some e =>
          cases h
          exact hnext

end Step

namespace Computation

variable [Element α] {slots slots' : Slots α} {c : Computation α}

theorem keeps_of_preset? {seed : UInt64} {pre : Preset α}
    (h : preset? seed slots pre = some slots') : slots.Keeps slots' := by
  obtain ⟨storage, _, h⟩ := Option.bind_eq_some_iff.mp h
  obtain ⟨block, _, h⟩ := Option.bind_eq_some_iff.mp h
  split at h
  · obtain ⟨_, _, h⟩ := Option.bind_eq_some_iff.mp h
    exact Slots.keeps_of_write? h
  · obtain ⟨_, _, h⟩ := Option.bind_eq_some_iff.mp h
    exact Slots.keeps_of_write? h
  · cases h
    exact .refl _

omit [Element α] in
theorem keeps_of_load? {p : Plan} {entry : NodeId × Tensor α}
    (h : load? p slots entry = some slots') : slots.Keeps slots' := by
  obtain ⟨place, _, h⟩ := Option.bind_eq_some_iff.mp h
  exact Slots.keeps_of_write? h

omit [Element α] in
theorem unlent_of_keeps (h : c.memory.slots.Keeps slots) :
    slots.Unlent ∧ slots.size = c.memory.size :=
  ⟨h.unlent c.memory.unlent_slots, by rw [h.size_eq, Memory.slots, Array.size_map]⟩

/-- Populating leaves storage for every buffer. -/
theorem populate?_unlent (h : c.populate? = some slots) :
    slots.Unlent ∧ slots.size = c.memory.size :=
  unlent_of_keeps (Slots.keeps_of_foldlM (fun _ _ _ => keeps_of_preset?) h)

/-- So does a run, whatever it answers: an error of the caller, of a step or of the device,
or the outputs. -/
theorem execute?_unlent [Device δ α] {device device' : δ} {inputs : List (Tensor α)}
    {answer : Except Error (List (Tensor α))}
    (h : c.execute? device inputs = some (slots, device', answer)) :
    slots.Unlent ∧ slots.size = c.memory.size := by
  obtain ⟨_, _, h⟩ := Option.bind_eq_some_iff.mp h
  cases hcheck : c.checkInputs inputs with
  | error e =>
      rw [hcheck] at h
      cases h
      exact unlent_of_keeps (.refl _)
  | ok _ =>
      rw [hcheck] at h
      obtain ⟨loaded, hload, h⟩ := Option.bind_eq_some_iff.mp h
      obtain ⟨⟨after, failure⟩, hrun, h⟩ := Option.bind_eq_some_iff.mp h
      have hkeeps := (Slots.keeps_of_foldlM (fun _ _ _ => keeps_of_load?) hload).trans
        (Step.keeps_of_runAll? hrun)
      cases failure with
      | some e =>
          cases h
          exact unlent_of_keeps hkeeps
      | none =>
          dsimp only at h
          split at h
          · cases h
            exact unlent_of_keeps hkeeps
          · obtain ⟨_, _, h⟩ := Option.bind_eq_some_iff.mp h
            cases h
            exact unlent_of_keeps hkeeps

end Computation

namespace Specimen

/-- Both elements of the variable are divided. -/
def division : Call UInt8 (HostDevice UInt8) := .run .plain [row 2 3]

/-- The variable that a run has divided is not reset by another population, and nothing
is populated after release. -/
theorem quotient_lifecycle :
    (quotient.compiled.after (opening ++ [division])).memory.shown quotient.compiled.plan ⟨1⟩
      = #[6, 4] ∧
    (quotient.compiled.after (opening ++ [division])).perform
        (.populate : Call UInt8 (HostDevice UInt8))
      = quotient.compiled.after (opening ++ [division]) ∧
    (quotient.compiled.after (opening ++ [division, .release .plain])).answer
        (.populate : Call UInt8 (HostDevice UInt8))
      = .error Computation.releasedError := by
  obtain ⟨p, _, hbind⟩ := Except.bind_eq_ok.mp quotient.slice_compiles.compiled
  have hdivided := Computation.lifecycle hbind (opening ++ [division]) .populate
  have hreleased := Computation.lifecycle hbind (opening ++ [division, .release .plain]) .populate
  refine ⟨by decide +kernel, ?_, ?_⟩
  · rw [Computation.perform_eq]
    refine (hdivided.once .populated nofun rfl ?_).1
    exact ⟨[.allocate .plain], .populate, [division], rfl, rfl, by decide +kernel⟩
  · have hph : (quotient.compiled.after (opening ++ [division, .release .plain])).phase
        = .released := by decide +kernel
    rw [Computation.answer, hreleased.late hph nofun]

end Specimen

end TensorGraph
