/-
# Reductions, cell by cell

A reduction passes over its input once and folds each element into the cell of the
result that has its coordinates along the axes that are kept.  Seen from a cell of the
result, that is a fold over a fibre:

| | |
| :-- | :-- |
| `merge rank axes along across` | the cell with the coordinates `along` on the listed axes and `across` on the others |
| `fibre dims axes across` | all cells with the coordinates `across` on the kept axes, in the order of the other coordinates |

The pass visits the cells of a fibre in this very order (`filter_cells`), since
between cells with the same kept coordinates the other ones decide.
-/
import TensorGraph.Proofs.Cells
import TensorGraph.Proofs.Integers
import TensorGraph.Proofs.Kernels

namespace TensorGraph

/-- The listed axes of a tensor with `rank` axes, ascending. -/
def Shape.listedAxes (rank : Nat) (axes : List Nat) : List Nat :=
  (List.range rank).filter fun a => axes.contains a

namespace RowMajor

open Shape

/-! ## Cells put together from two groups of axes -/

/-- The cell with the coordinates `along` on the listed axes and `across` on the others,
each in the order of the axes. -/
def merge (rank : Nat) (axes along across : List Nat) : List Nat :=
  (List.range rank).map fun a =>
    if axes.contains a then along.getD ((listedAxes rank axes).idxOf a) 0
    else across.getD ((keptAxes rank axes).idxOf a) 0

theorem mem_listedAxes {rank a : Nat} {axes : List Nat} :
    a ∈ listedAxes rank axes ↔ a < rank ∧ axes.contains a = true := by
  rw [listedAxes, List.mem_filter, List.mem_range]

theorem nodup_listedAxes (rank : Nat) (axes : List Nat) : (listedAxes rank axes).Nodup :=
  List.nodup_range.filter _

theorem nodup_keptAxes (rank : Nat) (axes : List Nat) : (keptAxes rank axes).Nodup :=
  List.nodup_range.filter _

section Merge

variable {rank : Nat} {axes along across : List Nat}

theorem map_getD_merge_listed (h : along.length = (listedAxes rank axes).length) :
    ((listedAxes rank axes).map fun a => (merge rank axes along across).getD a 0) = along := by
  conv => rhs; rw [← map_idxOf_getD h (nodup_listedAxes rank axes)]
  refine List.map_congr_left fun a ha => ?_
  obtain ⟨hlt, hlisted⟩ := mem_listedAxes.mp ha
  rw [merge, getD_map_range hlt, if_pos hlisted]

theorem map_getD_merge_kept (h : across.length = (keptAxes rank axes).length) :
    ((keptAxes rank axes).map fun a => (merge rank axes along across).getD a 0) = across := by
  conv => rhs; rw [← map_idxOf_getD h (nodup_keptAxes rank axes)]
  refine List.map_congr_left fun a ha => ?_
  obtain ⟨hlt, hkept⟩ := mem_keptAxes.mp ha
  rw [merge, getD_map_range hlt, if_neg (Bool.eq_false_iff.mp hkept)]

/-- A cell is what its coordinates on the two groups of axes make together. -/
theorem merge_map_getD {c : List Nat} (h : c.length = rank) :
    merge rank axes ((listedAxes rank axes).map fun a => c.getD a 0)
      ((keptAxes rank axes).map fun a => c.getD a 0) = c := by
  conv => rhs; rw [← map_getD_range c, h]
  refine List.map_congr_left fun a ha => ?_
  have hlt := List.mem_range.mp ha
  by_cases hlisted : axes.contains a = true
  · rw [if_pos hlisted, getD_map_idxOf (mem_listedAxes.mpr ⟨hlt, hlisted⟩)]
  · rw [if_neg hlisted, getD_map_idxOf (mem_keptAxes.mpr ⟨hlt, by simpa using hlisted⟩)]

theorem below_merge {dims : List Nat}
    (hal : Below along ((listedAxes dims.length axes).map fun a => dims.getD a 0))
    (hac : Below across ((keptAxes dims.length axes).map fun a => dims.getD a 0)) :
    Below (merge dims.length axes along across) dims := by
  have hlen : along.length = (listedAxes dims.length axes).length := by simpa using hal.length_eq
  have hlen' : across.length = (keptAxes dims.length axes).length := by simpa using hac.length_eq
  rw [← map_idxOf_getD hlen (nodup_listedAxes _ _), below_map_iff] at hal
  rw [← map_idxOf_getD hlen' (nodup_keptAxes _ _), below_map_iff] at hac
  conv => arg 2; rw [← map_getD_range dims]
  refine below_map_iff.mpr fun a ha => ?_
  have hlt := List.mem_range.mp ha
  split
  · rename_i hlisted
    exact hal a (mem_listedAxes.mpr ⟨hlt, hlisted⟩)
  · rename_i hkept
    exact hac a (mem_keptAxes.mpr ⟨hlt, Bool.eq_false_iff.mpr hkept⟩)

end Merge

/-! ## The order within a fibre -/

/-- Where two lists agree, their order does not look. -/
theorem map_lt_map_iff_filter {l : List Nat} {p : Nat → Bool} {f g : Nat → Nat}
    (h : ∀ a ∈ l, p a = false → f a = g a) :
    l.map f < l.map g ↔ (l.filter p).map f < (l.filter p).map g := by
  induction l with
  | nil => simp
  | cons a l ih =>
      obtain ⟨ha, hl⟩ := List.forall_mem_cons.mp h
      cases hp : p a with
      | true => simp only [List.map_cons, List.filter_cons_of_pos hp, List.cons_lt_cons_iff, ih hl]
      | false => simp [hp, ha hp, ih hl]

/-- Between cells with the same kept coordinates, the other ones decide. -/
theorem lt_iff_of_kept_eq {rank : Nat} {axes c c' : List Nat} (h : c.length = rank)
    (h' : c'.length = rank)
    (hkept : ((keptAxes rank axes).map fun a => c.getD a 0)
      = (keptAxes rank axes).map fun a => c'.getD a 0) :
    c < c' ↔ ((listedAxes rank axes).map fun a => c.getD a 0)
      < (listedAxes rank axes).map fun a => c'.getD a 0 := by
  have agree : ∀ a ∈ List.range rank, axes.contains a = false → c.getD a 0 = c'.getD a 0 :=
    fun a ha hn => List.map_inj_left.mp hkept a (mem_keptAxes.mpr ⟨List.mem_range.mp ha, hn⟩)
  have hc : ((List.range rank).map fun a => c.getD a 0) = c := h ▸ map_getD_range c
  have hc' : ((List.range rank).map fun a => c'.getD a 0) = c' := h' ▸ map_getD_range c'
  have hlt := map_lt_map_iff_filter agree
  rwa [hc, hc'] at hlt

/-! ## Fibres -/

/-- The cells of a tensor with the coordinates `across` on the axes that are not listed, in
row-major order of their coordinates on the others. -/
def fibre (dims axes across : List Nat) : List (List Nat) :=
  (cells ((listedAxes dims.length axes).map fun a => dims.getD a 0)).map fun along =>
    merge dims.length axes along across

section Fibre

variable {dims axes across : List Nat}
  (h : Below across ((keptAxes dims.length axes).map fun a => dims.getD a 0))

include h

theorem mem_fibre {c : List Nat} : c ∈ fibre dims axes across ↔
    Below c dims ∧ ((keptAxes dims.length axes).map fun a => c.getD a 0) = across := by
  simp only [fibre, List.mem_map, mem_cells]
  constructor
  · rintro ⟨along, hal, rfl⟩
    exact ⟨below_merge hal h, map_getD_merge_kept (by simpa using h.length_eq)⟩
  · rintro ⟨hc, hkept⟩
    refine ⟨_, below_map_getD hc fun a ha => (mem_listedAxes.mp ha).1, ?_⟩
    rw [← hkept, merge_map_getD hc.length_eq]

omit h in
/-- The other coordinates run through all their values. -/
theorem map_listed_fibre (dims axes across : List Nat) :
    ((fibre dims axes across).map fun c => (listedAxes dims.length axes).map fun a => c.getD a 0)
      = cells ((listedAxes dims.length axes).map fun a => dims.getD a 0) := by
  rw [fibre, List.map_map]
  refine (List.map_congr_left fun along hal => ?_).trans (List.map_id' _)
  exact map_getD_merge_listed (by simpa using (mem_cells.mp hal).length_eq)

theorem pairwise_fibre : (fibre dims axes across).Pairwise (· < ·) := by
  have hlisted := pairwise_cells ((listedAxes dims.length axes).map fun a => dims.getD a 0)
  rw [← map_listed_fibre dims axes across, List.pairwise_map] at hlisted
  refine hlisted.imp_of_mem fun hc hc' hlt => ?_
  obtain ⟨hbelow, hkept⟩ := (mem_fibre h).mp hc
  obtain ⟨hbelow', hkept'⟩ := (mem_fibre h).mp hc'
  exact (lt_iff_of_kept_eq hbelow.length_eq hbelow'.length_eq (hkept.trans hkept'.symm)).mpr hlt

omit h in
/-- The cells with given kept coordinates, in row-major order, are a fibre. -/
theorem filter_cells (h : Below across ((keptAxes dims.length axes).map fun a => dims.getD a 0)) :
    ((cells dims).filter fun c => ((keptAxes dims.length axes).map fun a => c.getD a 0) = across)
      = fibre dims axes across := by
  refine ((pairwise_cells dims).filter _).eq_of_mem_iff (pairwise_fibre h) fun c => ?_
  rw [mem_fibre h, List.mem_filter, mem_cells, decide_eq_true_iff]

end Fibre
end RowMajor

namespace Kernel

open RowMajor Evaluation Element.Integral

variable {α : Type} [Element α]

theorem keptAxes_perm {axes axes' : List Nat} (h : axes'.Perm axes) (rank : Nat) :
    Shape.keptAxes rank axes' = Shape.keptAxes rank axes := by
  simp only [Shape.keptAxes, List.contains_eq_mem, h.mem_iff]

theorem reduce_entry (r : Reduction) (axes : List Nat) (v : View α) {across : List Nat}
    (h : Below across (v.layout.shape.without axes).dims) :
    (Evaluation.reduce r v.layout.shape.dims axes v.gather)[position across
        (strides (v.layout.shape.without axes).dims)]?
      = some (r.fold ((fibre v.layout.shape.dims axes across).map v.entry)) := by
  have hlt := position_lt_count h
  have hcell := coordinates_position h
  have hfibre := filter_cells h
  simp only [Shape.without, Shape.select, Shape.rank] at hlt hcell ⊢
  rw [Evaluation.reduce, Array.getElem?_eq_getElem (by rwa [size_tabulate]), getElem_tabulate,
    hcell, hfibre]
  refine congrArg (some <| r.fold ·) (List.map_congr_left fun c hc => ?_)
  exact View.nth_gather (position_lt_count ((mem_fibre h).mp hc).1)

/-- Whatever the block held, each cell of the result gets the fold over its fibre: the
cells of the input with its coordinates on the kept axes, all of them and each once, in
row-major order of the other coordinates.  It does not matter in which order the axes are
listed, and on whole numbers the fold is the sum, or the greatest element. -/
theorem reduce_fills (r : Reduction) (axes : List Nat) (v : View α) {block : Array α}
    (hsize : block.size = (v.layout.shape.without axes).size) :
    (reduce r axes v block).Fills (v.layout.shape.without axes) (fun across =>
      r.fold ((fibre v.layout.shape.dims axes across).map v.entry)) ∧
    (∀ across, Below across (v.layout.shape.without axes).dims →
      (∀ c, c ∈ fibre v.layout.shape.dims axes across ↔ Below c v.layout.shape.dims ∧
        ((Shape.keptAxes v.layout.shape.rank axes).map fun a => c.getD a 0) = across) ∧
      ((fibre v.layout.shape.dims axes across).map fun c =>
          (Shape.listedAxes v.layout.shape.rank axes).map fun a => c.getD a 0)
        = cells (v.layout.shape.select (Shape.listedAxes v.layout.shape.rank axes)).dims) ∧
    (∀ axes' : List Nat, axes'.Perm axes → reduce r axes' v block = reduce r axes v block) ∧
    ∀ [Element.Integral α] (across : List Nat),
      Summarizes (r.fold ((fibre v.layout.shape.dims axes across).map v.entry))
        ((fibre v.layout.shape.dims axes across).map v.entry) r := by
  refine ⟨?_, ?_, ?_, ?_⟩
  · rw [reduce_spec r axes v block hsize]
    exact ⟨rfl, size_tabulate _ _, fun across => reduce_entry r axes v⟩
  · intro across h
    exact ⟨fun c => mem_fibre h, map_listed_fibre _ axes across⟩
  · intro axes' hperm
    rw [reduce, reduce, keptAxes_perm hperm]
  · intro _ across
    exact summarizes_fold r _

/-- Two rows of three, read as three rows of two. -/
def columns : View UInt8 :=
  ⟨#[200, 1, 2, 100, 5, 6], (Layout.packed .u8 ⟨[2, 3]⟩).transpose [1, 0]⟩

/-- The sum of the first row passes the greatest element and starts again from zero. -/
theorem reduce_columns : (reduce .sum [1] columns #[9, 9, 9]).block[0]? = some 44 ∧
    IsResidue (44 : UInt8) (200 + 100) := by
  have hsize : (#[9, 9, 9] : Array UInt8).size = (columns.layout.shape.without [1]).size := rfl
  have h := reduce_fills .sum [1] columns hsize
  exact ⟨h.1.entry_eq [0] (.cons (by decide) .nil), h.2.2.2 [0]⟩

end Kernel
end TensorGraph
