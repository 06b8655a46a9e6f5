/-
# Capacities do not matter

Memory from a pool may have been reserved for more elements than it holds, and that
is all that distinguishes it from new memory.  Nothing that a computation does looks
at capacities, so they may be forgotten before or after:

    forget, then act   =   act, then forget      (`bare`: steps, runs, population, replacement)
    storage asked for  =   zeros, once capacities are forgotten    (`allocate_bare`)

Computations that differ in capacities only therefore answer alike, each on a host
device of its own (`run_alike` and its neighbours).
-/
import TensorGraph.Device.Host
import TensorGraph.Computation.Lifecycle

namespace TensorGraph

variable {α : Type}

/-! ## Capacities are never looked at -/

/-- The same elements; how many would fit is forgotten. -/
def Storage.bare (s : Storage α) : Storage α := ⟨s.data, 0⟩

namespace Memory

/-- The memory with all capacities forgotten. -/
def bare (m : Memory α) : Memory α := m.map Storage.bare

theorem storage_bare (m : Memory α) (b : Nat) : m.bare.storage b = (m.storage b).bare := by
  simp only [storage, bare, Array.getD_eq_getD_getElem?, Array.getElem?_map]
  cases m[b]? with
  | none => rfl
  | some s => rfl

theorem view_bare (m : Memory α) (q : Placement) : m.bare.view q = m.view q := by
  rw [view, storage_bare]
  rfl

theorem block_bare (m : Memory α) (q : Placement) : m.bare.block q = m.block q := by
  rw [block, storage_bare]
  rfl

theorem setIfInBounds_bare (m : Memory α) (i : Nat) (s : Storage α) :
    Memory.bare (m.setIfInBounds i s) = m.bare.setIfInBounds i s.bare := by
  rw [bare, Array.map_setIfInBounds]
  rfl

theorem write_bare (m : Memory α) (q : Placement) (block : Array α) :
    m.bare.write q block = (m.write q block).bare := by
  rw [write, storage_bare, write, setIfInBounds_bare]
  rfl

end Memory

namespace Step

variable [Element α]

theorem outcome_bare (st : Step α) (m : Memory α) (block : Array α) :
    st.outcome m.bare block = st.outcome m block := by
  have hoperand : st.operand m.bare = st.operand m :=
    funext fun q => by simp only [operand, Memory.view_bare]
  have hinput : st.input m.bare = st.input m :=
    funext fun q => by simp only [input, Memory.view_bare]
  simp only [outcome, hoperand, hinput]

theorem run_bare (st : Step α) (m : Memory α) :
    st.run m.bare = ((st.run m).1.bare, (st.run m).2) := by
  simp only [run, Memory.block_bare, outcome_bare, Memory.write_bare]

theorem runAll_bare (sts : List (Step α)) (m : Memory α) :
    runAll sts m.bare = ((runAll sts m).1.bare, (runAll sts m).2) := by
  induction sts generalizing m with
  | nil => rfl
  | cons st rest ih =>
      simp only [runAll, run_bare]
      rcases st.run m with ⟨m', _ | e⟩
      · exact ih m'
      · rfl

end Step

namespace Computation

/-- The computation with the capacities of its storage forgotten. -/
def bare (c : Computation α) : Computation α := { c with memory := c.memory.bare }

theorem load_bare (p : Plan) (m : Memory α) (entry : NodeId × Tensor α) :
    load p m.bare entry = (load p m entry).bare := by
  unfold load
  split
  · exact m.write_bare _ _
  · rfl

section Calls

variable [Element α] (c : Computation α)

theorem readOutput_bare (p : Plan) (m : Memory α) : readOutput p m.bare = readOutput p m :=
  funext fun id => by simp only [readOutput, Memory.view_bare]

/-- A run does not look at capacities, and on a host device it does not look at the
device either. -/
theorem execute_bare (d d' : HostDevice α) (inputs : List (Tensor α)) :
    c.bare.execute d' inputs
      = ((c.execute d inputs).1.bare, d', (c.execute d inputs).2.2) := by
  have hload : (c.plan.parameters.zip inputs).foldl (load c.plan) c.memory.bare
      = ((c.plan.parameters.zip inputs).foldl (load c.plan) c.memory).bare :=
    List.foldl_hom Memory.bare (load_bare c.plan)
  have hchecks : c.bare.checkInputs inputs = c.checkInputs inputs := rfl
  rw [execute, execute, hchecks]
  cases c.checkInputs inputs with
  | error e => rfl
  | ok =>
      simp only [bare, hload, Step.runAll_bare]
      rcases Step.runAll c.steps ((c.plan.parameters.zip inputs).foldl (load c.plan) c.memory) with
        ⟨m, _ | e⟩
      · simp only [Device.synchronize, readOutput_bare]
        cases c.plan.outputs.mapM (readOutput c.plan m) with
        | error e => rfl
        | ok outs => rfl
      · rfl

theorem run_bare (d d' : HostDevice α) (inputs : List (Tensor α)) :
    c.bare.run d' inputs = ((c.run d inputs).1.bare, d', (c.run d inputs).2.2) := by
  have hexecute := c.execute_bare d d' inputs
  have hphase : c.bare.phase = c.phase := rfl
  rw [run, run, hphase]
  cases c.phase with
  | populated | ready => exact hexecute
  | _ => rfl

theorem preset_bare (seed : UInt64) (m : Memory α) (p : Preset α) :
    preset seed m.bare p = (preset seed m p).bare := by
  unfold preset
  split
  · rw [Memory.block_bare, Memory.write_bare]
  · rw [Memory.block_bare, Memory.write_bare]
  · rfl

theorem populate_bare : c.bare.populate = (c.populate.1.bare, c.populate.2) := by
  have hpresets : c.presets.foldl (preset c.seed) c.memory.bare
      = (c.presets.foldl (preset c.seed) c.memory).bare :=
    List.foldl_hom Memory.bare (preset_bare c.seed)
  have hphase : c.bare.phase = c.phase := rfl
  rw [populate, populate, hphase]
  cases c.phase with
  | allocated => simp only [bare, hpresets]
  | _ => rfl

omit [Element α] in
theorem replace_bare (name : String) (s : Storage α) :
    c.bare.replace name s.bare
      = ((c.replace name s).1.bare, (c.replace name s).2.map Storage.bare) := by
  have hphase : c.bare.phase = c.phase := rfl
  have hexchange : c.bare.exchange name s.bare
      = ((c.exchange name s).1.bare, (c.exchange name s).2.map Storage.bare) := by
    have hplan : c.bare.plan = c.plan := rfl
    have hsize : s.bare.size = s.size := rfl
    simp only [exchange, hplan, hsize]
    split
    · rfl
    · split
      · rfl
      · simp only [bare, Memory.setIfInBounds_bare, Memory.storage_bare, Except.map]
  rw [replace, replace, hphase]
  cases c.phase with
  | released | unallocated => rfl
  | _ => exact hexchange

end Calls

/-! ## Storage from a host device -/

section Devices

variable [Element α]

theorem release_fst (c : Computation α) (d d' : HostDevice α) :
    (c.release d).1 = (c.release d').1 := by
  unfold release
  split
  · rfl
  · rfl

theorem release_bare (c : Computation α) (d d' : HostDevice α) :
    (c.bare.release d').1 = (c.release d).1.bare := by
  have hphase : c.bare.phase = c.phase := rfl
  simp only [release, hphase]
  split
  · rfl
  · simp [bare, Memory.bare]

end Devices
end Computation

namespace HostDevice

variable [Element α]

/-- Whatever a host device keeps, it hands out zeros, or refuses for the same reason. -/
theorem allocate_bare (d d' : HostDevice α) (b : Buffer) :
    (d.allocate b).2.map Storage.bare = (d'.allocate b).2.map Storage.bare := by
  have zeros : ∀ d : HostDevice α, (d.allocate b).2.map Storage.bare =
      if b.elements = 0 then .error (.allocation b.name .zeroSized)
      else .ok (Storage.zeroed b.elements : Storage α).bare := by
    intro d
    unfold allocate
    split
    · rfl
    · cases d.pool with
      | none => rfl
      | some pool =>
          simp only [Pool.acquire]
          split
          · rfl
          · rfl
  rw [zeros, zeros]

end HostDevice

namespace Computation

variable [Element α]

/-- Buffers with their storage, capacities forgotten. -/
def bareHeld (held : List (Buffer × Storage α)) : List (Buffer × Storage α) :=
  held.map fun entry => (entry.1, entry.2.bare)

omit [Element α] in
theorem bareHeld_append (held : List (Buffer × Storage α)) (b : Buffer) (s : Storage α) :
    bareHeld (held ++ [(b, s)]) = bareHeld held ++ [(b, s.bare)] := by
  simp [bareHeld]

theorem acquire_bare {bs : List Buffer} {held held' : List (Buffer × Storage α)}
    (h : bareHeld held = bareHeld held') (d d' : HostDevice α) :
    (acquire d held bs).2.map bareHeld = (acquire d' held' bs).2.map bareHeld := by
  induction bs generalizing held held' d d' with
  | nil => exact congrArg Except.ok h
  | cons b rest ih =>
      have hallocate := d.allocate_bare d' b
      simp only [acquire, Device.allocate]
      revert hallocate
      rcases d.allocate b with ⟨d₁, e | s⟩
      · rcases d'.allocate b with ⟨d₁', e' | s'⟩
        · intro hallocate
          cases hallocate
          rfl
        · exact nofun
      · rcases d'.allocate b with ⟨d₁', e' | s'⟩
        · exact nofun
        · intro hallocate
          have hbare : s.bare = s'.bare := Except.ok.inj hallocate
          have hsize : s.size = s'.size := congrArg (fun s => s.data.size) hbare
          simp only [hsize]
          split
          · refine ih ?_ d₁ d₁'
            rw [bareHeld_append, bareHeld_append, h, hbare]
          · rfl

/-- Storage is attached in the same way whatever the device keeps. -/
theorem allocate_bare (c : Computation α) (d d' : HostDevice α) :
    (c.allocate d).2.2 = (c.allocate d').2.2 ∧
      (c.allocate d).1.bare = (c.allocate d').1.bare := by
  have hacquire : (acquire d [] c.plan.buffers.toList).2.map bareHeld
      = (acquire d' [] c.plan.buffers.toList).2.map bareHeld := acquire_bare rfl d d'
  unfold allocate
  split
  · exact ⟨rfl, rfl⟩
  · revert hacquire
    rcases acquire d [] c.plan.buffers.toList with ⟨d₁, e | held⟩
    · rcases acquire d' [] c.plan.buffers.toList with ⟨d₁', e' | held'⟩
      · intro hacquire
        cases hacquire
        exact ⟨rfl, rfl⟩
      · exact nofun
    · rcases acquire d' [] c.plan.buffers.toList with ⟨d₁', e' | held'⟩
      · exact nofun
      · intro hacquire
        have hheld : bareHeld held = bareHeld held' := Except.ok.inj hacquire
        refine ⟨rfl, ?_⟩
        have hmemory : ∀ held : List (Buffer × Storage α),
            Memory.bare (held.map (·.2)).toArray = ((bareHeld held).map (·.2)).toArray := by
          intro held
          simp [Memory.bare, bareHeld, Function.comp_def]
        simp only [bare, hmemory, hheld]
  · exact ⟨rfl, rfl⟩

/-! ## Computations that differ in capacities only -/

section Alike

variable {c c' : Computation α} (h : c'.bare = c.bare)

include h

theorem populate_alike :
    c'.populate.2 = c.populate.2 ∧ c'.populate.1.bare = c.populate.1.bare := by
  have heq := c'.populate_bare.symm.trans ((congrArg populate h).trans c.populate_bare)
  exact ⟨(Prod.mk.inj heq).2, (Prod.mk.inj heq).1⟩

theorem run_alike (d d' : HostDevice α) (inputs : List (Tensor α)) :
    (c'.run d' inputs).2.2 = (c.run d inputs).2.2 ∧
      (c'.run d' inputs).1.bare = (c.run d inputs).1.bare := by
  have heq := (c'.run_bare d' .plain inputs).symm.trans
    ((congrArg (·.run (.plain : HostDevice α) inputs) h).trans (c.run_bare d .plain inputs))
  obtain ⟨hbare, hrest⟩ := Prod.mk.inj heq
  exact ⟨(Prod.mk.inj hrest).2, hbare⟩

omit [Element α] in
theorem replace_alike (name : String) (s : Storage α) :
    (c'.replace name s).2.map (·.data) = (c.replace name s).2.map (·.data) ∧
      (c'.replace name s).1.bare = (c.replace name s).1.bare := by
  have heq := (c'.replace_bare name s).symm.trans
    ((congrArg (·.replace name s.bare) h).trans (c.replace_bare name s))
  obtain ⟨hbare, hresult⟩ := Prod.mk.inj heq
  refine ⟨?_, hbare⟩
  have hdata := congrArg (Except.map Storage.data) hresult
  revert hdata
  rcases (c'.replace name s).2 with e' | s'
  · rcases (c.replace name s).2 with e | s
    · exact id
    · exact nofun
  · rcases (c.replace name s).2 with e | s
    · exact nofun
    · exact id

theorem release_alike (d d' : HostDevice α) :
    (c'.release d').1.bare = (c.release d).1.bare := by
  rw [← c'.release_bare d' .plain, ← c.release_bare d .plain, h]

end Alike

end Computation

end TensorGraph
