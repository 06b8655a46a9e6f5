/-
# Reading and writing planned memory

A memory `Fits` a plan when every buffer has storage of at least the planned
length; writing a block of the right size keeps it so.  For a place that the
memory `Covers`:

    write m q xs, then read q                    ⟹  xs        (`gather_write`, q packed)
    write m q xs, then read r in another buffer  ⟹  as before  (`view_write_of_ne`)
    the block that a step finds at q             =   what q shows  (`block_eq_gather`, q packed)

What lies elsewhere in the written buffer is nobody's business: the planner
lets a buffer be written only when no other value in it is needed.
-/
import TensorGraph.Proofs.Kernels
import TensorGraph.Proofs.Placements

namespace TensorGraph

variable {α : Type}

namespace Storage

theorem extract_write {s : Storage α} {start : Nat} {block : Array α}
    (h : start + block.size ≤ s.size) :
    (s.write start block).data.extract start (start + block.size) = block := by
  have hstart : (s.data.extract 0 start).size = start := by
    simp only [size] at h
    simp only [Array.size_extract]
    omega
  refine Array.ext (by simp only [write, size] at *; simp; omega) fun i hi hi' => ?_
  have hlt : start + i < (s.data.extract 0 start ++ block).size := by
    rw [Array.size_append, hstart]
    omega
  rw [Array.getElem_extract]
  simp only [write]
  rw [Array.getElem_append_left hlt, Array.getElem_append_right (by omega)]
  simp [hstart]

end Storage

namespace Memory

/-- The memory has storage for every buffer of the plan, as long as planned. -/
structure Fits (p : Plan) (m : Memory α) : Prop where
  size_eq : m.size = p.buffers.size
  enough : ∀ b, b < p.buffers.size → (p.buffer b).elements ≤ (m.storage b).size

/-- All elements of the place lie in the memory. -/
structure Covers (m : Memory α) (q : Placement) : Prop where
  buffer_lt : q.buffer < m.size
  regular : q.layout.Regular
  extent_le : q.layout.extent ≤ (m.storage q.buffer).size

theorem storage_setIfInBounds (m : Memory α) (i : Nat) (s : Storage α) (b : Nat) :
    Memory.storage (m.setIfInBounds i s) b = if b = i ∧ b < m.size then s else m.storage b := by
  by_cases hb : b = i
  · subst hb
    by_cases hlt : b < m.size
    · simp [storage, hlt]
    · simp [storage, hlt]
  · simp [storage, Array.getElem?_setIfInBounds_ne (Ne.symm hb), hb]

theorem storage_write (m : Memory α) (q : Placement) (block : Array α) (b : Nat) :
    (m.write q block).storage b
      = if b = q.buffer ∧ b < m.size then (m.storage b).write q.layout.start block
        else m.storage b := by
  rw [write, storage_setIfInBounds]
  by_cases hb : b = q.buffer
  · rw [hb]
  · simp [hb]

@[simp] theorem size_write (m : Memory α) (q : Placement) (block : Array α) :
    (m.write q block).size = m.size := by
  simp [write]

theorem storage_write_of_ne (m : Memory α) {q : Placement} (block : Array α) {b : Nat}
    (h : b ≠ q.buffer) : (m.write q block).storage b = m.storage b := by
  rw [storage_write, if_neg fun hb => h hb.1]

theorem view_congr {m m' : Memory α} {q : Placement}
    (h : m'.storage q.buffer = m.storage q.buffer) : m'.view q = m.view q := by
  rw [view, view, h]

theorem view_write_of_ne (m : Memory α) {q r : Placement} (block : Array α)
    (h : r.buffer ≠ q.buffer) : (m.write q block).view r = m.view r :=
  view_congr (m.storage_write_of_ne block h)

section Covers

variable {m : Memory α} {q : Placement} (h : m.Covers q) (hp : q.layout.isPacked = true)

include h hp

theorem Covers.block_le :
    q.layout.start + q.layout.size ≤ (m.storage q.buffer).size :=
  Nat.le_trans (Layout.start_add_size_le_extent h.regular hp) h.extent_le

theorem Covers.size_block : (m.block q).size = q.layout.size := by
  have := h.block_le hp
  simp only [Storage.size] at this
  simp only [block, Storage.block, Array.size_extract]
  omega

/-- The block that a step finds at a packed place is what the place shows. -/
theorem Covers.block_eq_gather [Element α] : m.block q = (m.view q).gather :=
  View.extract_eq_gather (v := m.view q) h.regular hp (h.block_le hp)

theorem Covers.size_storage_write {xs : Array α} (hsize : xs.size = q.layout.size) (b : Nat) :
    ((m.write q xs).storage b).size = (m.storage b).size := by
  rw [storage_write]
  split
  · rename_i hb
    rw [Storage.size_write]
    rw [hb.1, hsize]
    exact h.block_le hp
  · rfl

/-- A packed place shows what was written to it. -/
theorem Covers.gather_write [Element α] {xs : Array α} (hsize : xs.size = q.layout.size) :
    ((m.write q xs).view q).gather = xs := by
  have hstorage : (m.write q xs).storage q.buffer
      = (m.storage q.buffer).write q.layout.start xs := by
    rw [storage_write, if_pos ⟨rfl, h.buffer_lt⟩]
  have hle := h.block_le hp
  have hfit : q.layout.start + q.layout.size ≤ ((m.write q xs).storage q.buffer).size := by
    rwa [h.size_storage_write hp hsize]
  rw [← View.extract_eq_gather (v := (m.write q xs).view q) h.regular hp hfit]
  simp only [view, hstorage]
  rw [← hsize]
  exact Storage.extract_write (hsize ▸ hle)

theorem Covers.fits_write {p : Plan} (hfits : Fits p m) {xs : Array α}
    (hsize : xs.size = q.layout.size) :
    Fits p (m.write q xs) := by
  refine ⟨by rw [size_write, hfits.size_eq], fun b hb => ?_⟩
  rw [h.size_storage_write hp hsize]
  exact hfits.enough b hb

end Covers

end Memory

/-- What memory shows for a node of a plan. -/
def Memory.shown [Element α] (m : Memory α) (p : Plan) (id : NodeId) : Array α :=
  match p.placements.get? id with
  | some q => (m.view q).gather
  | none => #[]

theorem Memory.shown_of_place [Element α] {m : Memory α} {p : Plan} {id : NodeId} {q : Placement}
    (h : p.placements.get? id = some q) : m.shown p id = (m.view q).gather := by
  rw [shown, h]

theorem Memory.shown_congr [Element α] {m m' : Memory α} {p : Plan} {id : NodeId}
    (h : ∀ q, p.placements.get? id = some q → m'.storage q.buffer = m.storage q.buffer) :
    m'.shown p id = m.shown p id := by
  cases hq : p.placements.get? id with
  | none => rw [shown, shown, hq]
  | some q => rw [shown_of_place hq, shown_of_place hq, view_congr (h q hq)]

/-- A memory that fits the plan of a slice covers every place of the plan. -/
theorem Slice.Planned.covers [Element α] {s : Slice α} {p : Plan} (hp : s.Planned p)
    {m : Memory α} (hm : m.Fits p) {id : NodeId} {q : Placement}
    (hq : p.placements.get? id = some q) : m.Covers q := by
  obtain ⟨_, hlt, hle⟩ := hp.inside id q hq
  exact ⟨hm.size_eq ▸ hlt, (hp.shaped hq).2, Nat.le_trans hle (hm.enough _ hlt)⟩

end TensorGraph
