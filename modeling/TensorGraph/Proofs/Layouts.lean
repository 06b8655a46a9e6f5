/-
# Where layouts put the elements

A layout with one stride per axis is a map from coordinates to places in a
buffer.  Everything that plans and steps need to know of layouts follows:

| layout | the `i`-th element lies |
| :-- | :-- |
| packed | at `start + i` |
| reshaped, of a packed one | where the `i`-th element lay |
| transposed | where element `reordered dims order i` lay |
| broadcast | where element `keptPosition dims kept i` lay |

and no element lies at or past the extent.  The two index maps on the right
speak of coordinates alone, so they serve the dense evaluator as well.
-/
import Mathlib.Data.List.Perm.Subperm
import Mathlib.Data.List.Nodup
import TensorGraph.Kernel.Reduce
import TensorGraph.Proofs.Numbering

namespace TensorGraph

namespace RowMajor

/-- The number of the element that is the `i`-th one after the axes of a tensor
with the given sizes have been put in another order. -/
def reordered (dims order : List Nat) (i : Nat) : Nat :=
  let c := coordinates (order.map fun a => dims.getD a 0) i
  position ((List.range dims.length).map fun a => c.getD (order.idxOf a) 0) (strides dims)

/-! ## Lists by index -/

theorem map_getD_range (xs : List Nat) :
    (List.range xs.length).map (fun a => xs.getD a 0) = xs := by
  refine List.ext_getElem (by simp) fun k hk _ => ?_
  have : k < xs.length := by simpa using hk
  simp [this]

theorem getD_map_range {rank a : Nat} (h : a < rank) (f : Nat → Nat) :
    ((List.range rank).map f).getD a 0 = f a := by
  simp [h]

theorem getD_map_idxOf {l : List Nat} {a : Nat} (h : a ∈ l) (f : Nat → Nat) :
    (l.map f).getD (l.idxOf a) 0 = f a := by
  simp [List.idxOf_lt_length_iff.mpr h]

theorem below_map_iff {l : List Nat} {f g : Nat → Nat} :
    Below (l.map f) (l.map g) ↔ ∀ a ∈ l, f a < g a := by
  simp [Below, List.forall₂_map_left_iff, List.forall₂_map_right_iff, List.forall₂_same]

/-- The order in which coordinates and weights are summed does not matter. -/
theorem position_map_perm {l l' : List Nat} (h : l.Perm l') (f g : Nat → Nat) :
    position (l.map f) (l.map g) = position (l'.map f) (l'.map g) := by
  induction h with
  | nil => rfl
  | cons a _ ih => simp [ih]
  | swap a b l =>
      simp only [List.map_cons, position_cons]
      omega
  | trans _ _ ih₁ ih₂ => exact ih₁.trans ih₂

/-! ## A permutation of the axes -/

theorem perm_range_of_distinctAxes {rank : Nat} {order : List Nat} (hlen : order.length = rank)
    (h : Shape.distinctAxes rank order = true) : order.Perm (List.range rank) := by
  simp only [Shape.distinctAxes, Bool.and_eq_true, List.all_eq_true, decide_eq_true_eq] at h
  have sub : order ⊆ List.range rank := fun a ha => List.mem_range.mpr (h.1 a ha)
  exact (List.subperm_of_subset h.2 sub).perm_of_length_le (by simp [hlen])

/-- Coordinates over permuted axes, each found again under the axis it belongs to. -/
theorem map_idxOf_getD {order c : List Nat} (hlen : c.length = order.length)
    (hnd : order.Nodup) : order.map (fun a => c.getD (order.idxOf a) 0) = c := by
  refine List.ext_getElem (by simp [hlen]) fun k hk hk' => ?_
  have hko : k < order.length := by simpa using hk
  simp [List.Nodup.idxOf_getElem hnd k hko, hk']

section Reordered

variable {dims order : List Nat} (hlen : order.length = dims.length)
  (hax : Shape.distinctAxes dims.length order = true)

include hlen hax

theorem below_reordered {i : Nat}
    (hi : i < count (order.map fun a => dims.getD a 0)) :
    Below ((List.range dims.length).map fun a =>
      (coordinates (order.map fun a => dims.getD a 0) i).getD (order.idxOf a) 0) dims := by
  have hperm := perm_range_of_distinctAxes hlen hax
  have hnd : order.Nodup := hperm.nodup_iff.mpr List.nodup_range
  have hc := below_coordinates (Nat.zero_lt_of_lt hi) i
  have hcl : (coordinates (order.map fun a => dims.getD a 0) i).length = order.length := by simp
  rw [← map_idxOf_getD hcl hnd, below_map_iff] at hc
  conv => arg 2; rw [← map_getD_range dims]
  rw [below_map_iff]
  exact fun a ha => hc a (hperm.mem_iff.mpr ha)

theorem reordered_lt {i : Nat} (hi : i < count (order.map fun a => dims.getD a 0)) :
    reordered dims order i < count dims :=
  position_lt_count (below_reordered hlen hax hi)

end Reordered

/-! ## Repetition along new axes -/

/-- Weights of zero along the listed axes leave the sum over the other ones. -/
theorem position_repeatedStrides (axes : List Nat) (g : Nat → Nat) (n a : Nat) (ss : List Nat) :
    position ((List.range' a n).map g) (Layout.repeatedStrides axes n a ss)
      = position (((List.range' a n).filter fun b => !axes.contains b).map g) ss := by
  induction n generalizing a ss with
  | zero => simp [Layout.repeatedStrides]
  | succ n ih =>
      simp only [List.range'_succ, List.map_cons, Layout.repeatedStrides]
      by_cases h : axes.contains a = true
      · rw [if_pos h, position_cons, ih, List.filter_cons_of_neg (by simpa using h)]
        simp
      · rw [if_neg h, position_cons, ih, List.filter_cons_of_pos (by simpa using h), List.map_cons]
        cases ss with
        | nil => simp
        | cons s ss => rfl

/-- Coordinates along some of the axes stay below the sizes of those axes. -/
theorem below_map_getD {c dims : List Nat} (h : Below c dims) {axes : List Nat}
    (hax : ∀ a ∈ axes, a < dims.length) :
    Below (axes.map fun a => c.getD a 0) (axes.map fun a => dims.getD a 0) := by
  have hlen := h.length_eq
  rw [← map_getD_range c, hlen] at h
  conv at h => arg 2; rw [← map_getD_range dims]
  exact below_map_iff.mpr fun a ha => below_map_iff.mp h a (List.mem_range.mpr (hax a ha))

theorem mem_keptAxes {rank a : Nat} {axes : List Nat} :
    a ∈ Shape.keptAxes rank axes ↔ a < rank ∧ axes.contains a = false := by
  rw [Shape.keptAxes, List.mem_filter, List.mem_range, Bool.not_eq_true']

theorem below_kept {dims : List Nat} {i : Nat} (hi : i < count dims) (axes : List Nat) :
    Below ((Shape.keptAxes dims.length axes).map fun a => (coordinates dims i).getD a 0)
      ((Shape.keptAxes dims.length axes).map fun a => dims.getD a 0) :=
  below_map_getD (below_coordinates (Nat.zero_lt_of_lt hi) i) fun _ ha => (mem_keptAxes.mp ha).1

theorem keptPosition_lt {dims : List Nat} {i : Nat} (hi : i < count dims) (axes : List Nat) :
    Kernel.keptPosition dims (Shape.keptAxes dims.length axes) i
      < count ((Shape.keptAxes dims.length axes).map fun a => dims.getD a 0) :=
  position_lt_count (below_kept hi axes)

end RowMajor

namespace Layout

open RowMajor

/-- One stride per axis. -/
def Regular (l : Layout) : Prop := l.strides.length = l.shape.dims.length

theorem Regular.strided {l : Layout} (h : l.Regular) : l.strided = l.shape.dims := by
  rw [Layout.strided, h, List.take_length]

theorem Regular.locate {l : Layout} (h : l.Regular) (i : Nat) :
    l.locate i = l.start + position (coordinates l.shape.dims i) l.strides := by
  rw [Layout.locate, h.strided]

theorem Regular.locate_position {l : Layout} (h : l.Regular) {c : List Nat}
    (hc : Below c l.shape.dims) :
    l.locate (position c (RowMajor.strides l.shape.dims)) = l.start + position c l.strides := by
  rw [h.locate, coordinates_position hc]

theorem regular_packed (k : ElementKind) (s : Shape) : (packed k s).Regular :=
  length_strides s.dims

theorem regular_reshape (l : Layout) (s : Shape) : (l.reshape s).Regular :=
  length_strides s.dims

theorem regular_transpose (l : Layout) (order : List Nat) : (l.transpose order).Regular := by
  simp [Regular, transpose, Shape.select]

theorem length_repeatedStrides (axes : List Nat) (n a : Nat) (ss : List Nat) :
    (repeatedStrides axes n a ss).length = n := by
  induction n generalizing a ss with
  | zero => rfl
  | succ n ih =>
      rw [repeatedStrides]
      split <;> simp [ih]

theorem regular_broadcast (l : Layout) (s : Shape) (axes : List Nat) :
    (l.broadcast s axes).Regular :=
  length_repeatedStrides axes s.rank 0 l.strides

/-! ## Bounds -/

theorem below_of_lt_size {l : Layout} {i : Nat} (hi : i < l.size) :
    Below (coordinates l.shape.dims i) l.shape.dims :=
  below_coordinates (Nat.zero_lt_of_lt hi) i

section Bounds

variable {l : Layout} (h : l.Regular)

include h

theorem Regular.extent (hpos : l.size ≠ 0) :
    l.extent = l.start + position (l.shape.dims.map (· - 1)) l.strides + 1 := by
  rw [Layout.extent, if_neg hpos, h.strided]

theorem Regular.locate_lt_extent {i : Nat} (hi : i < l.size) : l.locate i < l.extent := by
  have := position_le_last (below_of_lt_size hi) l.strides
  rw [h.locate, h.extent (Nat.ne_zero_of_lt hi)]
  omega

theorem Regular.locate_of_isPacked (hp : l.isPacked = true) {i : Nat} (hi : i < l.size) :
    l.locate i = l.start + i := by
  rw [isPacked, h.strided] at hp
  rw [h.locate, position_of_dense (below_of_lt_size hi) h hp, position_coordinates hi]

theorem Regular.extent_of_isPacked (hp : l.isPacked = true) (hpos : l.size ≠ 0) :
    l.extent = l.start + l.size := by
  rw [isPacked, h.strided] at hp
  rw [h.extent hpos, Nat.add_assoc,
    position_last_of_dense (Nat.pos_of_ne_zero hpos) h hp]
  rfl

end Bounds

theorem start_add_size_le_extent {l : Layout} (h : l.Regular) (hp : l.isPacked = true) :
    l.start + l.size ≤ l.extent := by
  by_cases hpos : l.size = 0
  · simp [Layout.extent, hpos]
  · exact Nat.le_of_eq (h.extent_of_isPacked hp hpos).symm

/-! ## Readings -/

theorem locate_reshape {l : Layout} (h : l.Regular) (hp : l.isPacked = true) {s : Shape}
    (hs : l.size = s.size) {i : Nat} (hi : i < s.size) :
    (l.reshape s).locate i = l.locate i := by
  rw [(regular_reshape l s).locate_of_isPacked (isPacked_reshape l s) hi,
    h.locate_of_isPacked hp (hs ▸ hi)]
  rfl

theorem locate_transpose {l : Layout} (h : l.Regular) {order : List Nat}
    (hlen : order.length = l.shape.rank)
    (hax : Shape.distinctAxes l.shape.rank order = true) {i : Nat}
    (hi : i < (l.transpose order).size) :
    (l.transpose order).locate i = l.locate (reordered l.shape.dims order i) := by
  have hperm : order.Perm (List.range l.shape.dims.length) := perm_range_of_distinctAxes hlen hax
  have hcl : (coordinates (order.map fun a => l.shape.dims.getD a 0) i).length = order.length := by
    simp
  have ranged : (List.range l.shape.dims.length).map (fun a => l.strides.getD a 0) = l.strides :=
    h ▸ map_getD_range l.strides
  rw [(regular_transpose l order).locate, reordered,
    h.locate_position (below_reordered hlen hax hi)]
  conv => rhs; arg 2; arg 2; rw [← ranged]
  rw [← position_map_perm hperm, map_idxOf_getD hcl (hperm.nodup_iff.mpr List.nodup_range)]
  rfl

theorem locate_broadcast {l : Layout} (h : l.Regular) {s : Shape} {axes : List Nat}
    (hs : s.without axes = l.shape) {i : Nat} (hi : i < s.size) :
    (l.broadcast s axes).locate i
      = l.locate (Kernel.keptPosition s.dims (Shape.keptAxes s.rank axes) i) := by
  have hdims : l.shape.dims = (Shape.keptAxes s.rank axes).map fun a => s.dims.getD a 0 := by
    rw [← hs]; rfl
  have hbelow : Below ((Shape.keptAxes s.rank axes).map fun a => (coordinates s.dims i).getD a 0)
      l.shape.dims := hdims ▸ below_kept hi axes
  rw [(regular_broadcast l s axes).locate, Kernel.keptPosition, ← hdims,
    h.locate_position hbelow]
  have ranged := position_repeatedStrides axes (fun a => (coordinates s.dims i).getD a 0)
    s.rank 0 l.strides
  rw [← List.range_eq_range'] at ranged
  conv at ranged => lhs; arg 1; rw [Shape.rank, ← length_coordinates s.dims i, map_getD_range]
  exact congrArg (l.start + ·) ranged

end Layout
end TensorGraph
