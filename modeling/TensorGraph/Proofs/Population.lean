/-
# What constants and variables begin with

Population writes literals and initial values into fresh storage.  What it
writes depends on the node and on the seed alone (`Slice.initial`), not on what
the storage held, and every constant and every variable of a slice gets its
share, because every such node has a buffer that was made for it.
-/
import TensorGraph.Proofs.Calls

namespace TensorGraph

open Evaluation

variable {α : Type} [Element α]

/-- The contents with which a constant or a variable begins. -/
def Slice.initial (s : Slice α) (seed : UInt64) (id : NodeId) : Array α :=
  match s.graph.node? id with
  | some ⟨_, .constant _ values, layout⟩ => Kernel.literal values (blank layout.shape)
  | some ⟨_, .persistent _ init, layout⟩ =>
    Kernel.populate init (Kernel.streamSeed seed id) (blank layout.shape)
  | _ => #[]

namespace Kernel

omit [Element α] in
theorem literal_congr (values : Array α) {block block' : Array α} (h : block.size = block'.size) :
    literal values block = literal values block' := by
  unfold literal
  split
  · rw [h]
  · rfl

omit [Element α] in
theorem size_literal {values block : Array α} (h : values.size = block.size ∨ values.size = 1) :
    (literal values block).size = block.size := by
  unfold literal
  split
  · simp
  · rename_i hmany
    refine h.resolve_right fun hone => ?_
    obtain ⟨v, hv⟩ := List.length_eq_one_iff.mp (show values.toList.length = 1 by simpa using hone)
    exact hmany v hv

theorem size_samples {β : Type} (draw : Random.Stream → β × Random.Stream) (n : Nat)
    (stream : Random.Stream) (taken : Array β) :
    (Random.Stream.samples draw n stream taken).size = taken.size + n := by
  induction n generalizing stream taken with
  | zero => rfl
  | succ n ih => rw [Random.Stream.samples, ih, Array.size_push]; omega

theorem populate_congr (init : InitialValue α) (seed : UInt64) {block block' : Array α}
    (h : block.size = block'.size) : populate init seed block = populate init seed block' := by
  cases init with
  | fill value => simp only [populate, h]
  | arange start step =>
      refine Array.ext (by simpa [populate] using h) fun i _ _ => ?_
      simp [populate]
  | uniform low high => simp only [populate, sampled, h]
  | normal mean deviation => simp only [populate, sampled, h]

theorem size_populate (init : InitialValue α) (seed : UInt64) (block : Array α) :
    (populate init seed block).size = block.size := by
  cases init with
  | fill value => simp [populate]
  | arange start step => simp [populate]
  | uniform low high => simp [populate, sampled, size_samples]
  | normal mean deviation => simp [populate, sampled, size_samples]

end Kernel

/-- The preset of a constant or a variable. -/
structure Preset.Sits (pre : Preset α) (s : Slice α) (p : Plan) (n : Node α) : Prop where
  node : s.graph.node? pre.node = some n
  op_eq : pre.op = n.op
  place : p.placements.get? pre.node = some pre.output
  populated : (Draft.roleOf n.op).populated = true

omit [Element α] in
theorem Operation.isSource_of_populated {op : Operation α}
    (h : (Draft.roleOf op).populated = true) : op.isSource = true := by
  cases op with
  | constant | persistent => rfl
  | _ => simp [Draft.roleOf, BufferRole.populated] at h

section Presets

variable {c : Computation α} {s : Slice α}

theorem Slice.Planned.role_eq {p : Plan} (hp : s.Planned p) {q : Placement} {id : NodeId}
    (hq : p.placements.get? id = some q) :
    p.sites.role q.buffer = some (p.buffer q.buffer).role := by
  have hlt := (hp.inside id q hq).2.1
  simp [Plan.sites, Plan.buffer, hlt]

theorem Computation.Bound.sits (hc : c.Bound s) {pre : Preset α} (hpre : pre ∈ c.presets) :
    ∃ n, pre.Sits s c.plan n := by
  obtain ⟨b, hb, hbind⟩ := hc.presets.exists_left hpre
  obtain ⟨hmem, hpopulated⟩ := List.mem_filter.mp hb
  obtain ⟨i, hi, hbi⟩ := Array.getElem_of_mem (Array.mem_toList_iff.mp hmem)
  obtain ⟨n, hn, hplace, hrole⟩ := hc.planned.home hi
  obtain rfl : c.plan.buffer i = b := by simpa [Plan.buffer, hi] using hbi
  obtain ⟨m, hm, hbind⟩ := Except.bind_eq_ok.mp hbind
  rw [Graph.node_eq_ok_iff, hn] at hm
  cases hm
  obtain ⟨q, hq, hbind⟩ := Except.bind_eq_ok.mp hbind
  cases hbind
  exact ⟨n, hn, rfl, Plan.placement_eq_ok.mp hq, hrole ▸ hpopulated⟩

/-- Every constant and every variable has a preset. -/
theorem Computation.Bound.exists_preset (hc : c.Bound s) {id : NodeId} {n : Node α}
    (hid : id ∈ s.order) (hn : s.graph.node? id = some n)
    (hpopulated : (Draft.roleOf n.op).populated = true) : ∃ pre ∈ c.presets, pre.node = id := by
  have hp := hc.planned
  obtain ⟨q, hq⟩ := hp.place_of_mem hid
  have hsource := Operation.isSource_of_populated hpopulated
  have hlt := (hp.inside id q hq).2.1
  have hrole : (c.plan.buffer q.buffer).role = Draft.roleOf n.op :=
    Option.some.inj ((hp.role_eq hq).symm.trans (hp.source hn hsource hq).2)
  obtain ⟨n', hn', hplace, hrole'⟩ := hp.home hlt
  have hnode : (c.plan.buffer q.buffer).node = id := by
    by_contra hne
    refine hp.source_buffer_ne hn' hn (Operation.isSource_of_populated ?_) hsource hplace hq hne rfl
    rw [← hrole', hrole, hpopulated]
  have hmem : c.plan.buffer q.buffer ∈ c.plan.buffers.toList.filter (·.role.populated) := by
    refine List.mem_filter.mpr ⟨?_, by rw [hrole, hpopulated]⟩
    simp [Plan.buffer, hlt]
  obtain ⟨pre, hpre, hbind⟩ := hc.presets.exists_right hmem
  refine ⟨pre, hpre, ?_⟩
  obtain ⟨_, _, hbind⟩ := Except.bind_eq_ok.mp hbind
  obtain ⟨_, _, hbind⟩ := Except.bind_eq_ok.mp hbind
  cases hbind
  exact hnode

/-- A preset puts the initial contents of its node in place. -/
theorem Preset.Sits.preset_eq {p : Plan} (hp : s.Planned p) {pre : Preset α} {n : Node α}
    (h : pre.Sits s p n) (seed : UInt64) {m : Memory α} (hm : m.Fits p) :
    Computation.preset seed m pre = m.write pre.output (s.initial seed pre.node) ∧
      (s.initial seed pre.node).size = pre.output.layout.size := by
  have hsource := Operation.isSource_of_populated h.populated
  have hpacked := (hp.source h.node hsource h.place).1
  have hshape := (hp.shaped h.place).1.trans (Graph.shapeOf_of_node? h.node)
  have hblock : (m.block pre.output).size = (blank n.layout.shape : Array α).size := by
    rw [(hp.covers hm h.place).size_block hpacked, size_blank, Layout.size, hshape]
  have hsize : (blank n.layout.shape : Array α).size = pre.output.layout.size := by
    rw [size_blank, Layout.size, hshape]
  have hrule := (hp.built.sound h.node).shape_eq
  obtain ⟨id, op, layout⟩ := n
  have hop := h.op_eq
  have hpopulated := h.populated
  cases op with
  | constant shape values =>
      rw [Operation.constant_eq_ok] at hrule
      simp only [Slice.initial, h.node, Computation.preset, hop]
      refine ⟨by rw [Kernel.literal_congr values hblock], ?_⟩
      rw [Kernel.size_literal, hsize]
      rw [size_blank, ← hrule.2]
      exact hrule.1
  | persistent shape init =>
      simp only [Slice.initial, h.node, Computation.preset, hop]
      exact ⟨by rw [Kernel.populate_congr init _ hblock], by rw [Kernel.size_populate, hsize]⟩
  | _ => simp [Draft.roleOf, BufferRole.populated] at hpopulated

/-- After some presets, the nodes that they belong to show their initial contents. -/
structure Populated (s : Slice α) (p : Plan) (seed : UInt64) (done : List (Preset α))
    (m : Memory α) : Prop where
  fits : m.Fits p
  shows : ∀ pre ∈ done, m.shown p pre.node = s.initial seed pre.node

theorem Populated.foldl {p : Plan} (hp : s.Planned p) {seed : UInt64} {done rest : List (Preset α)}
    (hsits : ∀ pre ∈ done ++ rest, ∃ n, pre.Sits s p n) {m : Memory α}
    (h : Populated s p seed done m) :
    Populated s p seed (done ++ rest) (rest.foldl (Computation.preset seed) m) := by
  induction rest generalizing done m with
  | nil => rwa [List.append_nil]
  | cons pre rest ih =>
      obtain ⟨n, hpre⟩ := hsits pre (by simp)
      obtain ⟨hwrite, hsize⟩ := hpre.preset_eq hp seed h.fits
      have hsource := Operation.isSource_of_populated hpre.populated
      have hcovers := hp.covers h.fits hpre.place
      have hpacked := (hp.source hpre.node hsource hpre.place).1
      rw [List.foldl_cons, hwrite, List.append_cons]
      refine ih (by simpa using hsits)
        ⟨hcovers.fits_write hpacked h.fits hsize, fun pre' hpre' => ?_⟩
      have hself := hcovers.gather_write hpacked hsize
      by_cases hnode : pre'.node = pre.node
      · rw [hnode, Memory.shown_of_place hpre.place]
        exact hself
      · have hmem : pre' ∈ done := by
          rcases List.mem_append.mp hpre' with hmem | hmem
          · exact hmem
          · exact absurd (congrArg Preset.node (List.mem_singleton.mp hmem)) hnode
        obtain ⟨n', hsits'⟩ := hsits pre' (List.mem_append_left _ hmem)
        have hapart := hp.source_buffer_ne hsits'.node hpre.node
          (Operation.isSource_of_populated hsits'.populated) hsource hsits'.place hpre.place hnode
        rw [Memory.shown_of_place hsits'.place, Memory.view_write_of_ne _ _ hapart,
          ← Memory.shown_of_place hsits'.place]
        exact h.shows pre' hmem

/-- After all presets, every constant and every variable shows its initial contents. -/
theorem Computation.Bound.shown_presets (hc : c.Bound s) {m : Memory α} (hm : m.Fits c.plan)
    {id : NodeId} (hid : id ∈ s.order) {n : Node α} (hn : s.graph.node? id = some n)
    (hpopulated : (Draft.roleOf n.op).populated = true) (seed : UInt64) :
    (c.presets.foldl (Computation.preset seed) m).shown c.plan id = s.initial seed id := by
  have hstart : Populated s c.plan seed [] m := ⟨hm, nofun⟩
  obtain ⟨pre, hpre, rfl⟩ := hc.exists_preset hid hn hpopulated
  exact (hstart.foldl hc.planned fun pre hpre => hc.sits hpre).shows pre hpre

end Presets

end TensorGraph
