/-
# What a step may write over

Values share buffers: readings lie where their input lies, and nodes that work
element by element may write over an input.  A plan is safe because of what it
makes sure of when it puts the result of a step into a buffer that is in use.

| in the buffer that a step writes | what is known |
| :-- | :-- |
| the buffer itself | scratch, so neither an input of the caller's nor a literal nor a variable |
| any value placed before | not asked for, not read later on, not assigned (`Expendable`) |
| a value that the step reads | side by side, at the same places as the result |

`plan_aliasing` says so of every step that is no assignment, in whatever order
of computation the slice has been planned.
-/
import TensorGraph.Proofs.Compilation

namespace TensorGraph

variable {α : Type}

namespace Slice

/-- The value of `h`, which lies at `r`, is of no use to the nodes `after`, and
none of the assignments needs it.  If the node `id` reads it, then just where it
writes its own result, at `q`. -/
structure Expendable (s : Slice α) (after : List NodeId) (id : NodeId) (q : Placement)
    (h : NodeId) (r : Placement) : Prop where
  not_asked : h ∉ s.outputs
  not_read : ∀ x ∈ after, h ∉ s.graph.inputsOf x
  not_assigned : ∀ a ∈ s.order, s.runsLast a = true → h ∉ s.graph.inputsOf a
  aligned : h ∈ s.graph.inputsOf id → r.layout = q.layout ∧ q.layout.isPacked = true

/-- Who still needs a value once the node `id` has been computed. -/
theorem neededFrom_after {s : Slice α} {before after : List NodeId} {id h : NodeId}
    (ho : s.order = before ++ id :: after) :
    s.NeededFrom (before.length + 1) h ↔ h ∈ s.outputs ∨
      (∃ x ∈ after, h ∈ s.graph.inputsOf x) ∨
      ∃ a ∈ s.order, s.runsLast a = true ∧ h ∈ s.graph.inputsOf a := by
  refine or_congr_right ⟨?_, ?_⟩
  · rintro ⟨reader, k, hget, hin, hlast | hle⟩
    · exact .inr ⟨reader, List.mem_of_getElem? hget, hlast, hin⟩
    · refine .inl ⟨reader, ?_, hin⟩
      rw [ho, List.getElem?_append_right (by omega), List.getElem?_cons,
        if_neg (by omega)] at hget
      exact List.mem_of_getElem? hget
  · rintro (⟨x, hx, hin⟩ | ⟨a, ha, hlast, hin⟩)
    · obtain ⟨k, hk⟩ := List.mem_iff_getElem?.mp hx
      refine ⟨x, before.length + 1 + k, ?_, hin, .inr (Nat.le_add_right _ _)⟩
      rw [ho, List.getElem?_append_right (by omega), List.getElem?_cons, if_neg (by omega), ← hk]
      exact congrArg _ (by omega)
    · obtain ⟨k, hk⟩ := List.mem_iff_getElem?.mp ha
      exact ⟨a, k, hk, hin, .inl hlast⟩

end Slice

namespace Step

/-- A step changes no buffer but the one that its result lies in. -/
theorem storage_run_of_ne [Element α] (st : Step α) (m : Memory α) {b : Nat}
    (h : b ≠ st.output.buffer) : (st.run m).1.storage b = m.storage b :=
  m.storage_write_of_ne _ h

end Step

namespace Slice

variable [Element α] {s : Slice α} {p : Plan} {before after : List NodeId} {id : NodeId}

/-- A step that is no assignment computes a node. -/
theorem Planned.computes_of_step (hp : s.Planned p) (hstep : id ∈ p.steps)
    (hvalue : s.runsLast id = false) : s.computes p.sites id = true := by
  rw [hp.steps_eq, List.mem_append] at hstep
  rcases hstep with hstep | hstep
  · exact (List.mem_filter.mp hstep).2
  · rw [(List.mem_filter.mp hstep).2] at hvalue
    cases hvalue

/-- Every plan is safe.  A step that is no assignment changes one buffer, which is
scratch, and all values that the plan has put there before are expendable. -/
theorem plan_aliasing {overwriting : Bool} (hbuilt : s.graph.Built) (hordered : s.Ordered)
    (hplan : s.plan overwriting = .ok p) (ho : s.order = before ++ id :: after)
    (hstep : id ∈ p.steps) (hvalue : s.runsLast id = false) :
    ∃ q, p.placements.get? id = some q ∧
      (p.buffer q.buffer).role = .intermediate ∧
      (∀ st, Computation.bindStep s.graph p id = .ok st → ∀ (m : Memory α) b, b ≠ q.buffer →
        (st.run m).1.storage b = m.storage b) ∧
      ∀ h ∈ before, ∀ r, p.placements.get? h = some r → r.buffer = q.buffer →
        s.Expendable after id q h r := by
  have hp := plan_eq_ok hordered hbuilt hplan
  obtain ⟨n, q, hn, hq, hwritable⟩ := hp.writable ho (hp.computes_of_step hstep hvalue)
  refine ⟨q, hq, ?_, fun st hst m b hb => ?_, fun h hh r hr hb => ?_⟩
  · obtain ⟨buffer, hbuffer, hrole⟩ := Option.map_eq_some_iff.mp hwritable.scratch
    rw [Plan.buffer, Array.getD_eq_getD_getElem?, hbuffer]
    exact hrole
  · obtain ⟨_, houtput, _⟩ := Computation.bindStep_eq_ok hst hn hq
    exact st.storage_run_of_ne m (houtput ▸ hb)
  · have hfree := (neededFrom_after ho).not.mp (hwritable.free h hh r hr hb)
    push Not at hfree
    obtain ⟨hasked, hread, hassigned⟩ := hfree
    refine ⟨hasked, hread, hassigned, fun hin => ⟨?_, hwritable.packed⟩⟩
    exact hwritable.aligned h (Graph.inputsOf_of_node? hn ▸ hin) r hr hb

end Slice

namespace Specimen

/-- The weighted matrix is computed over the sum, which is therefore read just where
the product is written, and by no one else. -/
theorem mirror_aliasing : ∃ q, mirror.compiled.plan.placements.get? ⟨4⟩ = some q ∧
    mirror.slice.Expendable [⟨5⟩, ⟨6⟩] ⟨4⟩ q ⟨3⟩ q := by
  have hplan : mirror.slice.plan true = .ok mirror.compiled.plan := by decide +kernel
  obtain ⟨_, _, _, hordered⟩ :=
    Slice.ofRoots_eq_ok mirror.slice_compiles.built mirror.slice_compiles.roots
  have ho : mirror.slice.order = [⟨0⟩, ⟨1⟩, ⟨2⟩, ⟨3⟩] ++ ⟨4⟩ :: [⟨5⟩, ⟨6⟩] := rfl
  obtain ⟨q, hq, _, _, hexpendable⟩ := Slice.plan_aliasing mirror.slice_compiles.built hordered
    hplan ho (by decide +kernel) rfl
  have hsame : mirror.compiled.plan.placements.get? ⟨3⟩
      = mirror.compiled.plan.placements.get? ⟨4⟩ := by decide +kernel
  exact ⟨q, hq, hexpendable ⟨3⟩ (by decide) q (hsame.trans hq) rfl⟩

end Specimen

end TensorGraph
