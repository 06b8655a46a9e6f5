/-
# Two tests of layouts are exact

Plans trust two answers about a layout, and both say neither too much nor too little of a
value with elements:

| answer | is right because |
| :-- | :-- |
| `isPacked` | if numbers and places go in step, then so do the cells one step along each axis |
| `extent` | the last element lies in the last place |

So a block may be taken where elements might be, if and only if they lie packed
(`packed_iff`), and a buffer of the largest extent has no room to spare (`extent_tight`).
Words give the same two answers as long as the count and the extent are words
(`WordLayout.isPacked_iff`).
-/
import TensorGraph.Proofs.Acceptance
import TensorGraph.Proofs.Bounds
import TensorGraph.Proofs.Words

namespace TensorGraph

namespace RowMajor

/-- Dense weights are those that number the cells as the row-major ones do. -/
theorem dense_iff {dims ss : List Nat} (hpos : 0 < count dims) (hlen : ss.length = dims.length) :
    dense dims ss = true ↔ ∀ c, Below c dims → position c ss = position c (strides dims) := by
  refine ⟨fun hd c hc => position_of_dense hc hlen hd, fun heq => ?_⟩
  induction dims generalizing ss with
  | nil => rfl
  | cons d ds ih =>
      obtain ⟨s, ss, rfl⟩ := List.exists_cons_of_length_eq_add_one hlen
      have hd : 0 < d := Nat.pos_of_mul_pos_right hpos
      have hds : 0 < count ds := Nat.pos_of_mul_pos_left hpos
      have hrest : ∀ c, Below c ds → position c ss = position c (strides ds) := fun c hc => by
        simpa [strides] using heq (0 :: c) (.cons hd hc)
      have hfirst : d = 1 ∨ s = count ds := by
        refine or_iff_not_imp_left.mpr fun hne => ?_
        -- the cells one step along the first axis
        have hc := below_coordinates hds 0
        have hone := heq (1 :: coordinates ds 0) (.cons (by omega) hc)
        simpa [strides, hrest _ hc] using hone
      simp only [dense, Bool.and_eq_true, Bool.or_eq_true, beq_iff_eq]
      exact ⟨hfirst, ih hds (Nat.succ.inj hlen) hrest⟩

end RowMajor

open RowMajor

namespace Layout.Regular

variable {l : Layout} (h : l.Regular) (hpos : l.size ≠ 0)

include h hpos

theorem isPacked_of_locate (heq : ∀ i < l.size, l.locate i = l.start + i) :
    l.isPacked = true := by
  rw [isPacked, h.strided]
  refine (dense_iff (Nat.pos_of_ne_zero hpos) h).mpr fun c hc => ?_
  have hplace := heq _ (position_lt_count hc)
  rw [h.locate_position hc] at hplace
  exact Nat.add_left_cancel hplace

theorem extent_le_iff {k : Nat} : l.extent ≤ k ↔ ∀ i < l.size, l.locate i < k := by
  refine ⟨fun hle i hi => Nat.lt_of_lt_of_le (h.locate_lt_extent hi) hle, fun hin => ?_⟩
  rw [h.extent_eq_locate hpos]
  exact hin _ (Nat.sub_one_lt hpos)

end Layout.Regular

/-- Three elements in a column, whose axis of size one has a stride that leads nowhere. -/
def Layout.column : Layout := ⟨.u8, ⟨[3, 1]⟩, [1, 5], 2⟩

namespace Draft

theorem foldl_extent_le_iff {qs : List Placement} {n k : Nat} :
    qs.foldl (fun n q => max n q.layout.extent) n ≤ k ↔ n ≤ k ∧ ∀ q ∈ qs, q.layout.extent ≤ k := by
  induction qs generalizing n with
  | nil => simp
  | cons q rest ih => rw [List.foldl_cons, ih, Nat.max_le, List.forall_mem_cons, and_assoc]

/-- What lies in a buffer needs no more elements than `k`, if all of it needs no more. -/
theorem needed_le_iff {d : Draft} {b k : Nat} :
    d.needed b ≤ k ↔ ∀ q ∈ d.placements.values, q.buffer = b → q.layout.extent ≤ k := by
  simp [needed, foldl_extent_le_iff]

end Draft

variable {α : Type} [Element α]

namespace Slice.Planned

variable {s : Slice α} {p : Plan} (hp : s.Planned p)

include hp

theorem extent_lt {id : NodeId} {q : Placement} (hq : p.placements.get? id = some q) :
    q.layout.extent < UInt64.size := by
  obtain ⟨_, hlt, hextent⟩ := hp.inside id q hq
  obtain ⟨n, _, _, _, hbuffer⟩ := hp.opened q.buffer hlt
  obtain ⟨_, hbytes, _⟩ := hp.sized q.buffer hlt
  rw [hbuffer] at hbytes
  have hfew := Nat.le_mul_of_pos_right (p.buffer q.buffer).elements n.layout.kind.bytes_pos
  exact Nat.lt_of_le_of_lt (Nat.le_trans hextent hfew) hbytes

theorem elements_le_iff {b : Nat} (hb : b < p.buffers.size) {k : Nat} :
    (p.buffer b).elements ≤ k ↔ ∀ id q, p.placements.get? id = some q → q.buffer = b →
      ∀ i < q.layout.size, q.layout.locate i < k := by
  constructor
  · rintro hle id q hq rfl i hi
    have hin := (hp.inside id q hq).2.2
    have hlt := (hp.shaped hq).2.locate_lt_extent hi
    omega
  · intro hin
    obtain ⟨n, hn, hplace, _⟩ := hp.opened b hb
    obtain ⟨m, hm, _, helements⟩ := hp.elements_eq hb
    cases hn.symm.trans hm
    have hpos : n.layout.size ≠ 0 := helements ▸ (hp.sized b hb).1
    have hextent := ((hp.shaped hplace).2.extent_le_iff hpos).mpr (hin _ _ hplace rfl)
    exact helements ▸ Nat.le_trans (hp.built.sound hn).size_le_extent hextent

end Slice.Planned

namespace WordLayout

variable {w : WordLayout} (hlen : w.strides.length = w.dims.length) (hpos : w.size ≠ 0)
  (hextent : w.exact.extent < UInt64.size)

include hlen hpos hextent

theorem locate_lt_extent {i : UInt64} (hi : i < w.size) : w.locate i < w.extent := by
  have hregular := regular_exact_iff.mpr hlen
  -- the count may have wrapped around, but only to a smaller one
  have hsize : w.size.toNat ≤ w.exact.size := by
    rw [size_eq, UInt64.toNat_ofNat']
    exact Nat.mod_le _ _
  have hnat : i.toNat < w.exact.size := Nat.lt_of_lt_of_le (UInt64.lt_iff_toNat_lt.mp hi) hsize
  rw [UInt64.lt_iff_toNat_lt, locate_toNat hextent hregular hnat, extent_toNat hextent hpos]
  exact hregular.locate_lt_extent hnat

/-- Among words, too, it is packed exactly what lies one after the other. -/
theorem isPacked_iff (hsize : w.exact.size < UInt64.size) :
    w.isPacked = true ↔ ∀ i < w.size, w.locate i = w.start + i := by
  have hregular := regular_exact_iff.mpr hlen
  have hexact := exact_size_ne_zero hpos
  rw [isPacked_eq hregular hexact hsize]
  constructor
  · intro hp i hi
    have hnat : i.toNat < w.exact.size := size_toNat hsize ▸ UInt64.lt_iff_toNat_lt.mp hi
    rw [locate_eq, hregular.locate_of_isPacked hp hnat, UInt64.ofNat_add, UInt64.ofNat_toNat,
      start_eq]
  · intro hstep
    refine hregular.isPacked_of_locate hexact fun i hi => ?_
    have hword : (UInt64.ofNat i).toNat = i := UInt64.toNat_ofNat_of_lt' (Nat.lt_trans hi hsize)
    have hin : UInt64.ofNat i < w.size := by
      rwa [UInt64.lt_iff_toNat_lt, hword, size_toNat hsize]
    have hplace := congrArg UInt64.toNat (hstep _ hin)
    rw [locate_toNat hextent hregular (hword.symm ▸ hi), UInt64.toNat_add, start_toNat,
      hword] at hplace
    -- a sum that had wrapped around would be a place before the first element
    have hstart : w.exact.start ≤ w.exact.locate i := Nat.le_add_right _ _
    have hcount : i < 2 ^ 64 := Nat.lt_trans hi hsize
    omega

theorem exists_locate_eq (hsize : w.exact.size < UInt64.size) :
    ∃ i < w.size, w.locate i = w.extent - 1 := by
  have hregular := regular_exact_iff.mpr hlen
  have hexact := exact_size_ne_zero hpos
  have hlast : (UInt64.ofNat (w.exact.size - 1)).toNat = w.exact.size - 1 :=
    UInt64.toNat_ofNat_of_lt' (by omega)
  refine ⟨UInt64.ofNat (w.exact.size - 1), ?_, ?_⟩
  · rw [UInt64.lt_iff_toNat_lt, hlast, size_toNat hsize]
    exact Nat.sub_one_lt hexact
  · rw [locate_eq, hlast, extent_eq hpos, hregular.extent_eq_locate hexact, UInt64.ofNat_add]
    exact (UInt64.add_sub_cancel _ 1).symm

end WordLayout

/-- Neighbours along both axes are neighbours in the buffer, so that elements share places. -/
def Layout.overlapping : Layout := ⟨.u32, ⟨[3, 2]⟩, [1, 1], 8⟩

/-- A draft in which nothing else has been placed. -/
def Draft.lone : Draft :=
  { empty with placements := NodeMap.empty.insert ⟨0⟩ ⟨0, Layout.overlapping⟩ }

/-- Two elements as far apart as words go. -/
def WordLayout.farApart : WordLayout := ⟨.u8, [2], [UInt64.ofNat (UInt64.size - 1)], 0⟩

/-- Each of many elements three times over, so that not all have a number. -/
def WordLayout.tripled : WordLayout := ⟨.u8, [0x8000000000000000, 3], [1, 0], 0⟩

end TensorGraph
