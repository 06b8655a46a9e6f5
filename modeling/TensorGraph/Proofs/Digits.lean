/-
# Digits, split off from the last axis backwards

Coordinates, strides and places each come of one pass over the axes from the last one
backwards, which carries something along:

| pass | carries | leaves behind at an axis |
| :-- | :-- | :-- |
| `unravel` | what is left of the number | a digit, whatever was there before |
| `weights` | the count of the axes passed | that count |
| `Layout.seek` | what is left of the number, and the place so far | |

None of them knows of the others.  They agree because each carries what the recursion over
the axes from the first one says of the axes already passed: `coordinates`, `strides` and
`Layout.locate`.

`row_major_numbering` says what comes of it: numbers and cells are the same thing in two
notations, in the same order, and a layout with its axes in another order goes through the
same places.
-/
import Mathlib.Data.List.Lemmas
import Mathlib.Data.Set.Function
import Mathlib.Order.Interval.Set.Defs
import TensorGraph.Proofs.Readings

namespace TensorGraph

/-! ## Three passes -/

namespace RowMajor

/-- The coordinates of the `i`-th element, written over a buffer. -/
def unravel (dims : List Nat) (i : Nat) (buffer : List Nat) : List Nat :=
  (List.mapAccumr₂ (fun _ d rest => (rest / d, rest % d)) buffer dims i).2

/-- The strides of elements that lie densely, multiplied up from the last one. -/
def weights (dims : List Nat) : List Nat :=
  (dims.mapAccumr (fun d weight => (weight * d, weight)) 1).2

theorem mapAccumr₂_digits {dims buffer : List Nat} (h : buffer.length = dims.length) (i : Nat) :
    List.mapAccumr₂ (fun _ d rest => (rest / d, rest % d)) buffer dims i
      = (i / count dims, coordinates dims i) := by
  induction dims generalizing buffer with
  | nil =>
      cases List.length_eq_zero_iff.mp h
      simp [List.mapAccumr₂, coordinates]
  | cons d ds ih =>
      obtain ⟨old, buffer, rfl⟩ := List.exists_cons_of_length_eq_add_one h
      rw [List.mapAccumr₂, ih (Nat.succ.inj h), coordinates, count_cons, Nat.mul_comm,
        Nat.div_div_eq_div_mul]

theorem unravel_eq {dims buffer : List Nat} (h : buffer.length = dims.length) (i : Nat) :
    unravel dims i buffer = coordinates dims i := by
  rw [unravel, mapAccumr₂_digits h]

theorem mapAccumr_weights (dims : List Nat) :
    dims.mapAccumr (fun d weight => (weight * d, weight)) 1 = (count dims, strides dims) := by
  induction dims with
  | nil => rfl
  | cons d ds ih => rw [List.mapAccumr, ih, strides, count_cons, Nat.mul_comm]

theorem weights_eq (dims : List Nat) : weights dims = strides dims := by
  rw [weights, mapAccumr_weights]

theorem foldr_places (dims ss : List Nat) (i start : Nat) :
    (dims.zip ss).foldr
        (fun axis state => (state.1 / axis.1, state.2 + state.1 % axis.1 * axis.2)) (i, start)
      = (i / count (dims.take ss.length),
        start + position (coordinates (dims.take ss.length) i) ss) := by
  induction dims generalizing ss with
  | nil => simp [coordinates]
  | cons d ds ih =>
      cases ss with
      | nil => simp [coordinates]
      | cons s ss =>
          simp only [List.zip_cons_cons, List.foldr_cons, ih, List.length_cons, List.take_succ_cons,
            count_cons, coordinates, position_cons, Nat.div_div_eq_div_mul, Nat.mul_comm d]
          rw [Nat.add_assoc, Nat.add_comm (position _ _)]

end RowMajor

open RowMajor

/-- Where the `i`-th element lies, its digits being split off one after the other. -/
def Layout.seek (l : Layout) (i : Nat) : Nat :=
  ((l.shape.dims.zip l.strides).foldr
    (fun axis state => (state.1 / axis.1, state.2 + state.1 % axis.1 * axis.2)) (i, l.start)).2

theorem Layout.seek_eq_locate (l : Layout) (i : Nat) : l.seek i = l.locate i := by
  rw [seek, foldr_places, locate, strided]

/-! ## Numbers and cells -/

namespace RowMajor

theorem bijOn_coordinates {dims : List Nat} (h : 0 < count dims) :
    Set.BijOn (coordinates dims) (Set.Iio (count dims)) {c | Below c dims} := by
  have hinv : Set.InvOn (fun c => position c (strides dims)) (coordinates dims)
      (Set.Iio (count dims)) {c | Below c dims} :=
    ⟨fun i hi => position_coordinates hi, fun c hc => coordinates_position hc⟩
  refine hinv.bijOn ?_ ?_
  · exact fun i _ => below_coordinates h i
  · exact fun c hc => position_lt_count hc

theorem coordinates_lt_coordinates {dims : List Nat} {i j : Nat} (hij : i < j)
    (hj : j < count dims) : coordinates dims i < coordinates dims j := by
  have hpos : 0 < count dims := Nat.zero_lt_of_lt hj
  rw [← position_lt_position_iff (below_coordinates hpos i) (below_coordinates hpos j),
    position_coordinates (Nat.lt_trans hij hj), position_coordinates hj]
  exact hij

/-! ## Axes in another order -/

/-- The number under axes in another order of the element that is the `k`-th one without. -/
def permuted (dims order : List Nat) (k : Nat) : Nat :=
  position (order.map fun a => (coordinates dims k).getD a 0)
    (strides (order.map fun a => dims.getD a 0))

section Permuted

variable {dims order : List Nat} (hperm : order.Perm (List.range dims.length))

include hperm

theorem below_permuted {k : Nat} (hk : k < count dims) :
    Below (order.map fun a => (coordinates dims k).getD a 0) (order.map fun a => dims.getD a 0) :=
  below_map_getD (below_coordinates (Nat.zero_lt_of_lt hk) k) fun _ ha =>
    List.mem_range.mp (hperm.mem_iff.mp ha)

theorem reordered_permuted {k : Nat} (hk : k < count dims) :
    reordered dims order (permuted dims order k) = k := by
  have hcell : ((List.range dims.length).map fun a =>
      (order.map fun a => (coordinates dims k).getD a 0).getD (order.idxOf a) 0)
        = coordinates dims k := by
    conv => rhs; rw [← map_getD_range (coordinates dims k), length_coordinates]
    exact List.map_congr_left fun a ha => getD_map_idxOf (hperm.mem_iff.mpr ha) _
  rw [reordered, permuted, coordinates_position (below_permuted hperm hk), hcell,
    position_coordinates hk]

theorem permuted_reordered {i : Nat} (hi : i < count (order.map fun a => dims.getD a 0)) :
    permuted dims order (reordered dims order i) = i := by
  have hlen : order.length = dims.length := hperm.length_eq.trans List.length_range
  have hcoordinates := coordinates_position
    (below_reordered hlen (Reading.distinctAxes_of_perm hperm) hi)
  have hcl : (coordinates (order.map fun a => dims.getD a 0) i).length = order.length := by simp
  have hcell : (order.map fun a => (coordinates dims (reordered dims order i)).getD a 0)
      = coordinates (order.map fun a => dims.getD a 0) i := by
    rw [reordered, hcoordinates]
    refine Eq.trans ?_ (map_idxOf_getD hcl (hperm.nodup_iff.mpr List.nodup_range))
    exact List.map_congr_left fun a ha =>
      getD_map_range (List.mem_range.mp (hperm.mem_iff.mp ha)) _
  rw [permuted, hcell, position_coordinates hi]

theorem bijOn_reordered : Set.BijOn (reordered dims order)
    (Set.Iio (count (order.map fun a => dims.getD a 0))) (Set.Iio (count dims)) := by
  have hlen : order.length = dims.length := hperm.length_eq.trans List.length_range
  have hinv : Set.InvOn (permuted dims order) (reordered dims order)
      (Set.Iio (count (order.map fun a => dims.getD a 0))) (Set.Iio (count dims)) :=
    ⟨fun i hi => permuted_reordered hperm hi, fun k hk => reordered_permuted hperm hk⟩
  refine hinv.bijOn ?_ ?_
  · exact fun i hi => reordered_lt hlen (Reading.distinctAxes_of_perm hperm) hi
  · exact fun k hk => position_lt_count (below_permuted hperm hk)

end Permuted
end RowMajor

/-! ## Places -/

namespace Layout

variable {l : Layout} (h : l.Regular) (hp : l.isPacked = true)

include h hp

theorem bijOn_locate :
    Set.BijOn l.locate (Set.Iio l.size) (Set.Ico l.start (l.start + l.size)) := by
  have hback : Set.MapsTo (fun k => k - l.start) (Set.Ico l.start (l.start + l.size))
      (Set.Iio l.size) := fun k hk => Nat.sub_lt_left_of_lt_add hk.1 hk.2
  have hinv : Set.InvOn (fun k => k - l.start) l.locate (Set.Iio l.size)
      (Set.Ico l.start (l.start + l.size)) := by
    refine ⟨fun i hi => ?_, fun k hk => ?_⟩
    · show l.locate i - l.start = i
      rw [h.locate_of_isPacked hp hi, Nat.add_sub_cancel_left]
    · exact (h.locate_of_isPacked hp (hback hk)).trans (Nat.add_sub_cancel' hk.1)
  refine hinv.bijOn (fun i hi => ?_) hback
  rw [h.locate_of_isPacked hp hi]
  exact ⟨Nat.le_add_right _ _, Nat.add_lt_add_left hi _⟩

/-- Elements that lie side by side do so in any order of the axes. -/
theorem bijOn_locate_transpose {order : List Nat} (hperm : order.Perm (List.range l.rank)) :
    Set.BijOn (l.transpose order).locate (Set.Iio (l.transpose order).size)
      (Set.Ico l.start (l.start + l.size)) := by
  have hlen : order.length = l.shape.rank := hperm.length_eq.trans List.length_range
  refine ((bijOn_locate h hp).comp (bijOn_reordered hperm)).congr fun i hi => ?_
  exact (locate_transpose h hlen (Reading.distinctAxes_of_perm hperm) hi).symm

end Layout

namespace RowMajor

/-- Row-major numbering of a tensor with at least one element.  Numbers become coordinates
in one pass over a buffer, whatever it held; coordinates and strides become the number
again; the cells are met once each and in lexicographic order.  A layout with the row-major
strides goes through a buffer step by step, and with its axes in another order it meets the
same places once each. -/
theorem row_major_numbering {dims : List Nat} (hpos : ∀ d ∈ dims, 0 < d) :
    ((∀ i buffer, buffer.length = dims.length → unravel dims i buffer = coordinates dims i) ∧
      weights dims = strides dims ∧ ∀ (l : Layout) i, l.seek i = l.locate i) ∧
    Set.BijOn (coordinates dims) (Set.Iio (count dims)) {c | Below c dims} ∧
    (∀ i < count dims, position (coordinates dims i) (strides dims) = i) ∧
    (∀ i j, i < j → j < count dims → coordinates dims i < coordinates dims j) ∧
    ∀ l : Layout, l.shape.dims = dims → l.strides = strides dims →
      (∀ i < count dims, l.locate i = l.start + i) ∧
      ∀ order : List Nat, order.Perm (List.range dims.length) →
        Set.BijOn (l.transpose order).locate (Set.Iio (l.transpose order).size)
          (Set.Ico l.start (l.start + count dims)) := by
  refine ⟨⟨fun i _ hlen => unravel_eq hlen i, weights_eq dims, Layout.seek_eq_locate⟩,
    bijOn_coordinates (count_pos_iff.mpr hpos), fun i hi => position_coordinates hi,
    fun i j => coordinates_lt_coordinates, ?_⟩
  rintro l rfl hstrides
  have h : l.Regular := by rw [Layout.Regular, hstrides, length_strides]
  have hp : l.isPacked = true := by
    rw [Layout.isPacked, h.strided, hstrides]
    exact dense_strides l.shape.dims
  exact ⟨fun i hi => h.locate_of_isPacked hp hi, fun order => Layout.bijOn_locate_transpose h hp⟩

/-- Places in a table that does not begin with its buffer, row by row and column by column. -/
theorem row_major_table : unravel [2, 3] 4 [7, 7] = [1, 1] ∧
    Set.BijOn ((⟨.f32, ⟨[2, 3]⟩, [3, 1], 8⟩ : Layout).transpose [1, 0]).locate
      (Set.Iio 6) (Set.Ico 2 8) := by
  have hpos : ∀ d ∈ [2, 3], 0 < d := by decide
  have hnumbers := row_major_numbering hpos
  exact ⟨hnumbers.1.1 4 [7, 7] rfl,
    (hnumbers.2.2.2.2 ⟨.f32, ⟨[2, 3]⟩, [3, 1], 8⟩ rfl rfl).2 [1, 0] (by decide)⟩

end RowMajor
end TensorGraph
