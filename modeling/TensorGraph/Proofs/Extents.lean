/-
# How far layouts reach

A buffer has as many elements as its first value, which lies packed at its
beginning.  Every other value in the buffer reads that one anew, through a chain
of reshapes, transpositions and repetitions, and so stays inside it.

| `l.Inside k` | because of the chain |
| :-- | :-- |
| `start_eq` | a reading begins where its input begins |
| `idle` | an axis of size zero was made by a repetition, which gives it the stride zero |
| `locate_lt` | a reading shows elements that its input shows, and no others |

The second line is what tells a value without elements from a packed one: no
layout of the chain is both (`Inside.size_ne_zero`).
-/
import TensorGraph.Proofs.Layouts

namespace TensorGraph

open RowMajor

/-- Axes of size zero have the stride zero. -/
abbrev RowMajor.Idle (dims strides : List Nat) : Prop :=
  List.Forall₂ (fun d s => d = 0 → s = 0) dims strides

namespace RowMajor

theorem idle_strides {dims : List Nat} (h : count dims ≠ 0) : Idle dims (strides dims) := by
  refine List.forall₂_iff_get.mpr ⟨(length_strides dims).symm, fun k hk _ hzero => ?_⟩
  have := count_pos_iff.mp (Nat.pos_of_ne_zero h) _ (List.get_mem dims ⟨k, hk⟩)
  omega

/-- Strides that step through the elements in order do not lead past an axis of size zero. -/
theorem count_ne_zero_of_dense {dims strides : List Nat} (h : Idle dims strides)
    (hd : dense dims strides = true) : count dims ≠ 0 := by
  induction h with
  | nil => exact Nat.one_ne_zero
  | @cons d s ds ss hidle _ ih =>
      simp only [dense, Bool.and_eq_true, Bool.or_eq_true, beq_iff_eq] at hd
      have hcount := ih hd.2
      refine Nat.mul_ne_zero (fun hzero => ?_) hcount
      have hs := hidle hzero
      omega

theorem idle_getD {dims strides : List Nat} (h : Idle dims strides) (a : Nat)
    (ha : dims.getD a 0 = 0) : strides.getD a 0 = 0 := by
  obtain ⟨hlen, heach⟩ := List.forall₂_iff_get.mp h
  by_cases hlt : a < strides.length
  · have hlt' : a < dims.length := hlen ▸ hlt
    have hidle := heach a hlt' hlt
    simp only [List.getD_eq_getElem?_getD, List.getElem?_eq_getElem hlt', Option.getD_some] at ha
    simpa [hlt] using hidle ha
  · simp [hlt]

theorem idle_repeatedStrides (axes : List Nat) (g : Nat → Nat) (n a : Nat) (ss : List Nat)
    (h : Idle (((List.range' a n).filter fun b => !axes.contains b).map g) ss) :
    Idle ((List.range' a n).map g) (Layout.repeatedStrides axes n a ss) := by
  induction n generalizing a ss with
  | zero => exact .nil
  | succ n ih =>
      simp only [List.range'_succ, List.map_cons, Layout.repeatedStrides] at h ⊢
      by_cases hrepeated : axes.contains a = true
      · rw [List.filter_cons_of_neg (by simpa using hrepeated)] at h
        rw [if_pos hrepeated]
        exact .cons (fun _ => rfl) (ih _ _ h)
      · rw [List.filter_cons_of_pos (by simpa using hrepeated), List.map_cons] at h
        rw [if_neg hrepeated]
        cases h with
        | cons hidle hrest => exact .cons hidle (ih _ _ hrest)

end RowMajor

namespace Layout

/-- The extent reaches one past the last element. -/
theorem Regular.extent_eq_locate {l : Layout} (h : l.Regular) (hpos : l.size ≠ 0) :
    l.extent = l.locate (l.size - 1) + 1 := by
  have hcount : 0 < count l.shape.dims := Nat.pos_of_ne_zero hpos
  have hlast := position_last_of_dense hcount (length_strides _) (dense_strides l.shape.dims)
  have hbelow : Below (l.shape.dims.map (· - 1)) l.shape.dims := by
    rw [Below, List.forall₂_map_left_iff, List.forall₂_same]
    exact fun d hd => Nat.sub_one_lt_of_lt (count_pos_iff.mp hcount d hd)
  have hsize : l.size - 1 = position (l.shape.dims.map (· - 1)) (RowMajor.strides l.shape.dims) :=
    Nat.sub_eq_of_eq_add hlast.symm
  rw [h.extent hpos, hsize, h.locate_position hbelow]

/-- The value lies in the first `k` elements of its buffer, at places that come about
by readings of a packed value there. -/
structure Inside (l : Layout) (k : Nat) : Prop where
  regular : l.Regular
  start_eq : l.start = 0
  idle : Idle l.shape.dims l.strides
  locate_lt : ∀ i < l.size, l.locate i < k

namespace Inside

theorem packed (kind : ElementKind) {shape : Shape} (h : shape.size ≠ 0) :
    (Layout.packed kind shape).Inside shape.size := by
  refine ⟨regular_packed _ _, start_packed _ _, idle_strides h, fun i hi => ?_⟩
  rw [(regular_packed kind shape).locate_of_isPacked (isPacked_packed _ _) hi, start_packed,
    Nat.zero_add]
  exact hi

variable {l : Layout} {k : Nat} (h : l.Inside k)

include h

theorem extent_le : l.extent ≤ k := by
  by_cases hpos : l.size = 0
  · rw [extent, if_pos hpos, h.start_eq]
    exact Nat.zero_le k
  · rw [h.regular.extent_eq_locate hpos]
    exact h.locate_lt _ (Nat.sub_one_lt hpos)

theorem size_ne_zero (hp : l.isPacked = true) : l.size ≠ 0 := by
  rw [isPacked, h.regular.strided] at hp
  exact count_ne_zero_of_dense h.idle hp

theorem reshape (hp : l.isPacked = true) {s : Shape} (hs : l.size = s.size) :
    (l.reshape s).Inside k := by
  have hpos : s.size ≠ 0 := hs ▸ h.size_ne_zero hp
  refine ⟨regular_reshape _ _, h.start_eq, idle_strides hpos, fun i hi => ?_⟩
  rw [locate_reshape h.regular hp hs hi]
  exact h.locate_lt i (hs ▸ hi)

theorem transpose {order : List Nat} (hlen : order.length = l.shape.rank)
    (hax : Shape.distinctAxes l.shape.rank order = true) : (l.transpose order).Inside k := by
  refine ⟨regular_transpose _ _, h.start_eq, ?_, fun i hi => ?_⟩
  · refine List.forall₂_map_left_iff.mpr (List.forall₂_map_right_iff.mpr ?_)
    exact List.forall₂_same.mpr fun a _ => idle_getD h.idle a
  · rw [locate_transpose h.regular hlen hax hi]
    exact h.locate_lt _ (reordered_lt hlen hax hi)

theorem broadcast {s : Shape} {axes : List Nat} (hs : s.without axes = l.shape) :
    (l.broadcast s axes).Inside k := by
  refine ⟨regular_broadcast _ _ _, h.start_eq, ?_, fun i hi => ?_⟩
  · have hidle := h.idle
    rw [← hs, Shape.without, Shape.select, Shape.keptAxes, List.range_eq_range'] at hidle
    have := idle_repeatedStrides axes (fun a => s.dims.getD a 0) s.rank 0 l.strides hidle
    rwa [← List.range_eq_range', Shape.rank, map_getD_range] at this
  · rw [locate_broadcast h.regular hs hi]
    refine h.locate_lt _ ?_
    rw [size, ← hs]
    exact keptPosition_lt hi axes

end Inside
end Layout
end TensorGraph
