/-
# Tensors, cell by cell

A cell of a tensor is a coordinate vector below its sizes.  What a kernel does is
said of cells; that it counts them by numbers is its own affair.

| | |
| :-- | :-- |
| `cells dims` | every cell once, in lexicographic order |
| `l.place c` | where the element in the cell `c` lies |
| `v.entry c` | what the view shows in the cell `c` |
| `o.Fills shape f` | the step got to its end and left `f c` in every cell `c` |

Numbers and cells come in the same order (`position_lt_position_iff`), and the
cells of two groups of axes are numbered one group within the other
(`position_append`).  The number of a cell with one more coordinate is made from the cell
and that coordinate (`position_insertIdx`).  Where a layout has one stride per axis, the
place of a cell is the sum of its coordinates times the strides (`Layout.Regular.place_eq`).
-/
import Mathlib.Data.List.Sort
import Mathlib.Tactic.Ring
import TensorGraph.Kernel.OneHot
import TensorGraph.Proofs.Layouts

namespace TensorGraph

namespace RowMajor

/-! ## The order of numbers and of cells -/

theorem position_append {c xs : List Nat} (h : c.length = xs.length) (c' ys : List Nat) :
    position (c ++ c') (strides (xs ++ ys))
      = position c (strides xs) * count ys + position c' (strides ys) := by
  induction c generalizing xs with
  | nil =>
      cases List.length_eq_zero_iff.mp h.symm
      simp
  | cons a c ih =>
      obtain ⟨x, xs, rfl⟩ := List.exists_cons_of_length_eq_add_one h.symm
      simp only [List.cons_append, strides, position_cons, ih (Nat.succ.inj h), count_append,
        Nat.add_mul, Nat.mul_assoc, Nat.add_assoc]

theorem below_append {c c' xs ys : List Nat} (h : Below c xs) (h' : Below c' ys) :
    Below (c ++ c') (xs ++ ys) :=
  List.rel_append h h'

/-- The digits of a number with two digits, the second below `n`. -/
theorem flat_div {i j n : Nat} (h : j < n) : (i * n + j) / n = i := by
  rw [Nat.mul_comm, Nat.mul_add_div (Nat.zero_lt_of_lt h), Nat.div_eq_of_lt h, Nat.add_zero]

theorem flat_mod {i j n : Nat} (h : j < n) : (i * n + j) % n = j := by
  rw [Nat.mul_comm, Nat.mul_add_mod, Nat.mod_eq_of_lt h]

/-- Of two numbers with two digits each, the second below `n`, the first digit decides. -/
theorem flat_lt_flat_iff {i i' j j' n : Nat} (hj : j < n) (hj' : j' < n) :
    i * n + j < i' * n + j' ↔ i < i' ∨ i = i' ∧ j < j' := by
  constructor
  · intro h
    rcases Nat.lt_trichotomy i i' with hlt | rfl | hgt
    · exact .inl hlt
    · exact .inr ⟨rfl, Nat.lt_of_add_lt_add_left h⟩
    · have := flat_lt hgt hj'
      omega
  · rintro (hlt | ⟨rfl, hlt⟩)
    · have := flat_lt hlt hj
      omega
    · exact Nat.add_lt_add_left hlt _

/-- Row-major order is the lexicographic order of the coordinates. -/
theorem position_lt_position_iff {c c' dims : List Nat} (h : Below c dims) (h' : Below c' dims) :
    position c (strides dims) < position c' (strides dims) ↔ c < c' := by
  induction h generalizing c' with
  | nil =>
      cases h'
      simp
  | cons _ hcs ih =>
      cases h' with
      | cons _ hcs' =>
          simp only [strides, position_cons, List.cons_lt_cons_iff, ← ih hcs']
          exact flat_lt_flat_iff (position_lt_count hcs) (position_lt_count hcs')

theorem position_inj {c c' dims : List Nat} (h : Below c dims) (h' : Below c' dims)
    (heq : position c (strides dims) = position c' (strides dims)) : c = c' := by
  rw [← coordinates_position h, heq, coordinates_position h']

/-! ## All cells -/

/-- The cells of a tensor with the given sizes, in row-major order. -/
def cells (dims : List Nat) : List (List Nat) := (List.range (count dims)).map (coordinates dims)

@[simp] theorem mem_cells {c dims : List Nat} : c ∈ cells dims ↔ Below c dims := by
  simp only [cells, List.mem_map, List.mem_range]
  constructor
  · rintro ⟨i, hi, rfl⟩
    exact below_coordinates (Nat.zero_lt_of_lt hi) i
  · exact fun h => ⟨position c (strides dims), position_lt_count h, coordinates_position h⟩

/-- Every cell is listed once, and in lexicographic order. -/
theorem pairwise_cells (dims : List Nat) : (cells dims).Pairwise (· < ·) := by
  refine List.pairwise_map.mpr (List.pairwise_lt_range.imp_of_mem fun {i j} hi hj hlt => ?_)
  have hi := List.mem_range.mp hi
  have hj := List.mem_range.mp hj
  have hpos : 0 < count dims := Nat.zero_lt_of_lt hi
  rw [← position_lt_position_iff (below_coordinates hpos i) (below_coordinates hpos j),
    position_coordinates hi, position_coordinates hj]
  exact hlt

@[simp] theorem cells_eq_nil {dims : List Nat} : cells dims = [] ↔ count dims = 0 := by
  simp [cells]

/-- The numbers of the cells count up from zero. -/
theorem map_position_cells (dims : List Nat) :
    ((cells dims).map fun c => position c (strides dims)) = List.range (count dims) := by
  rw [cells, List.map_map]
  exact (List.map_congr_left fun i hi => position_coordinates (List.mem_range.mp hi)).trans
    (List.map_id' _)

/-! ## One more axis -/

section Insert

theorem insertIdx_eq_append {β : Type} {xs : List β} {i : Nat} (h : i ≤ xs.length) (x : β) :
    xs.insertIdx i x = xs.take i ++ x :: xs.drop i := by
  induction xs generalizing i with
  | nil =>
      obtain rfl : i = 0 := Nat.le_zero.mp h
      rfl
  | cons y ys ih =>
      cases i with
      | zero => rfl
      | succ i => rw [List.insertIdx_succ_cons, ih (Nat.le_of_succ_le_succ h)]; rfl

variable {c dims : List Nat} {axis depth : Nat}

/-- The cells with one more coordinate are those of the tensor with one more axis. -/
theorem below_insertIdx_iff (haxis : axis ≤ dims.length) {k : List Nat} :
    Below k (dims.insertIdx axis depth) ↔
      ∃ c j, Below c dims ∧ j < depth ∧ k = c.insertIdx axis j := by
  rw [insertIdx_eq_append haxis]
  constructor
  · intro h
    have hleft := List.forall₂_take_append _ _ _ h
    have hright := List.forall₂_drop_append _ _ _ h
    have hlen := hleft.length_eq
    cases hdrop : k.drop (dims.take axis).length with
    | nil =>
        rw [hdrop] at hright
        cases hright
    | cons j rest =>
        rw [hdrop] at hright
        obtain ⟨hj, hrest⟩ := List.forall₂_cons.mp hright
        have hcell := below_append hleft hrest
        rw [List.take_append_drop] at hcell
        have hle : axis ≤ (k.take (dims.take axis).length ++ rest).length := by
          rw [hcell.length_eq]
          exact haxis
        have htake : (dims.take axis).length = axis := List.length_take_of_le haxis
        refine ⟨_, j, hcell, hj, ?_⟩
        rw [insertIdx_eq_append hle, List.take_left' (hlen.trans htake),
          List.drop_left' (hlen.trans htake), ← hdrop, List.take_append_drop]
  · rintro ⟨c, j, hc, hj, rfl⟩
    rw [insertIdx_eq_append (hc.length_eq ▸ haxis)]
    exact below_append (List.forall₂_take axis hc)
      (.cons hj (List.forall₂_drop axis hc))

theorem insertIdx_inj {c' : List Nat} {j j' : Nat} (hc : axis ≤ c.length) (hc' : axis ≤ c'.length)
    (h : c.insertIdx axis j = c'.insertIdx axis j') : c = c' ∧ j = j' := by
  constructor
  · rw [← List.eraseIdx_insertIdx_self (l := c) j, h, List.eraseIdx_insertIdx_self]
  · have hget := congrArg (·[axis]?) h
    simpa [List.getElem?_insertIdx_self, hc, hc'] using hget

/-- The number of a cell with one more coordinate, from the number of the cell. -/
theorem position_insertIdx (hc : Below c dims) (haxis : axis ≤ dims.length) (j : Nat) :
    position (c.insertIdx axis j) (strides (dims.insertIdx axis depth))
      = Kernel.hotPosition depth (count (dims.drop axis)) (position c (strides dims)) j := by
  have hleft := List.forall₂_take axis hc
  have hlt := position_lt_count (List.forall₂_drop axis hc)
  have hsplit := position_append hleft.length_eq (c.drop axis) (dims.drop axis)
  rw [List.take_append_drop, List.take_append_drop] at hsplit
  rw [insertIdx_eq_append (hc.length_eq ▸ haxis), insertIdx_eq_append haxis,
    position_append hleft.length_eq, count_cons, strides, position_cons, Kernel.hotPosition, hsplit,
    flat_div hlt, flat_mod hlt]
  ring

/-- Different cells, or different new coordinates, have different numbers. -/
theorem position_insertIdx_inj {c' : List Nat} {j j' : Nat} (haxis : axis ≤ dims.length)
    (hc : Below c dims) (hj : j < depth) (hc' : Below c' dims) (hj' : j' < depth)
    (h : position (c.insertIdx axis j) (strides (dims.insertIdx axis depth))
      = position (c'.insertIdx axis j') (strides (dims.insertIdx axis depth))) :
    c = c' ∧ j = j' := by
  have hk := (below_insertIdx_iff haxis).mpr ⟨c, j, hc, hj, rfl⟩
  have hk' := (below_insertIdx_iff haxis).mpr ⟨c', j', hc', hj', rfl⟩
  have hcells := position_inj hk hk' h
  exact insertIdx_inj (hc.length_eq ▸ haxis) (hc'.length_eq ▸ haxis) hcells

end Insert
end RowMajor

open RowMajor

variable {α : Type}

/-! ## What a layout and a view show -/

namespace Layout

/-- Where the element in a cell of the tensor lies. -/
def place (l : Layout) (c : List Nat) : Nat :=
  l.locate (position c (RowMajor.strides l.shape.dims))

theorem locate_eq_place (l : Layout) {i : Nat} (hi : i < l.size) :
    l.locate i = l.place (coordinates l.shape.dims i) := by
  rw [place, position_coordinates hi]

/-- With one stride per axis, the place is as far behind the first one as the
coordinates and the strides say. -/
theorem Regular.place_eq {l : Layout} (h : l.Regular) {c : List Nat}
    (hc : Below c l.shape.dims) : l.place c = l.start + position c l.strides :=
  h.locate_position hc

end Layout

namespace View

variable [Element α]

/-- What the view shows in a cell of its tensor. -/
def entry (v : View α) (c : List Nat) : α := v.data.getD (v.layout.place c) Element.zero

theorem get_position (v : View α) (c : List Nat) :
    v.get (position c (RowMajor.strides v.layout.shape.dims)) = v.entry c := rfl

end View

/-! ## What a step leaves behind -/

/-- The step got to its end, and its block holds a tensor of the given shape with
`f c` in every cell `c`. -/
structure Outcome.Fills (o : Outcome α) (shape : Shape) (f : List Nat → α) : Prop where
  failure_eq : o.failure = none
  size_eq : o.block.size = shape.size
  entry_eq : ∀ c, Below c shape.dims →
    o.block[position c (RowMajor.strides shape.dims)]? = some (f c)

/-- What a block holds in a cell when each element was made from its number. -/
theorem getElem?_mapIdx_position {block : Array α} {shape : Shape}
    (hsize : block.size = shape.size) (g : Nat → α) {c : List Nat} (hc : Below c shape.dims) :
    (block.mapIdx fun o _ => g o)[position c (RowMajor.strides shape.dims)]?
      = some (g (position c (RowMajor.strides shape.dims))) := by
  have hlt : position c (RowMajor.strides shape.dims) < block.size :=
    hsize ▸ position_lt_count hc
  simp [hlt]

end TensorGraph
