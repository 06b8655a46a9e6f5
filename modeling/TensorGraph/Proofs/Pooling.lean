/-
# Max pooling, cell by cell

Windows extend along the axes after batch and channel.  The cell `n, c, o₁, …, oₖ` of the
result gets the maximum over the cells

    n, c, o₁ * stride₁ + w₁, …, oₖ * strideₖ + wₖ

of the input, for `w₁, …, wₖ` inside the window and in row-major order of these.  The sizes
of the result are the numbers of windows that fit (`WindowCount`), so that no window leads
out of the input.
-/
import TensorGraph.Proofs.Cells
import TensorGraph.Proofs.Graphs
import TensorGraph.Proofs.Integers
import TensorGraph.Proofs.Kernels

namespace TensorGraph.Kernel

open RowMajor Element.Integral

/-! ## How many windows fit -/

/-- Windows of the given size and distance fit `d` times along an axis. -/
structure WindowCount (size window stride d : Nat) : Prop where
  pos : 0 < d
  last_le : (d - 1) * stride + window ≤ size
  lt_next : size < d * stride + window
  lt_iff : ∀ p, p < d ↔ p * stride + window ≤ size

theorem windowCount_placements {size window stride : Nat}
    (h : Operation.windowFits size window stride = true) :
    WindowCount size window stride (Operation.placements size window stride) where
  pos := Nat.succ_pos _
  last_le := (lt_placements_iff h).mp (Nat.sub_one_lt (Nat.succ_ne_zero _))
  lt_next := Nat.lt_of_not_le fun hle => Nat.lt_irrefl _ ((lt_placements_iff h).mpr hle)
  lt_iff _ := lt_placements_iff h

theorem windowCount_pooledSizes : ∀ {sizes windows strides : List Nat},
    windows.length = sizes.length → strides.length = sizes.length →
    Operation.windowsFit sizes windows strides = true → ∀ j < sizes.length,
    WindowCount (sizes.getD j 0) (windows.getD j 0) (strides.getD j 0)
      ((Operation.pooledSizes sizes windows strides).getD j 0)
  | _ :: _, _ :: _, _ :: _, _, _, hfit, 0, _ =>
      windowCount_placements (Bool.and_eq_true_iff.mp hfit).1
  | _ :: _, _ :: _, _ :: _, hw, hs, hfit, j + 1, hj => by
      simpa [Operation.pooledSizes] using windowCount_pooledSizes (Nat.succ.inj hw)
        (Nat.succ.inj hs) (Bool.and_eq_true_iff.mp hfit).2 j (Nat.lt_of_succ_lt_succ hj)

/-- A window that fits has cells. -/
theorem count_pos_of_windowsFit : ∀ {sizes windows strides : List Nat},
    windows.length = sizes.length → strides.length = sizes.length →
    Operation.windowsFit sizes windows strides = true → 0 < count windows
  | [], [], _, _, _, _ => Nat.one_pos
  | _ :: _, _ :: _, _ :: _, hw, hs, hfit => by
      obtain ⟨hfits, hrest⟩ := Bool.and_eq_true_iff.mp hfit
      simp only [Operation.windowFits, Bool.and_eq_true, bne_iff_ne] at hfits
      exact Nat.mul_pos (Nat.pos_of_ne_zero hfits.1.1)
        (count_pos_of_windowsFit (Nat.succ.inj hw) (Nat.succ.inj hs) hrest)

/-! ## Windows -/

variable {α : Type} [Element α]

/-- Along each axis after batch and channel the result counts the windows that fit.
Whatever the block held, each cell of the result gets the maximum over its window, taken
from the least value in row-major order of the window, all of whose cells are cells of the
input.  On whole numbers that is the greatest element of the window. -/
theorem maxPool_fills {x : NodeId} {window shape : Shape} {strides : List Nat}
    {shapeOf : NodeId → Shape}
    (hrule : (Operation.maxPool x window strides : Operation α).outputShape shapeOf = .ok shape)
    {v : View α} (hv : shapeOf x = v.layout.shape) {output : Layout} (hout : output.shape = shape)
    {block : Array α} (hsize : block.size = shape.size) :
    shape.rank = v.layout.shape.rank ∧
    (∀ j < (v.layout.shape.dims.drop 2).length,
      WindowCount ((v.layout.shape.dims.drop 2).getD j 0) (window.dims.getD j 0)
        (strides.getD j 0) ((shape.dims.drop 2).getD j 0)) ∧
    (maxPool window.dims strides v output block).Fills shape (fun o =>
      Reduction.max.fold ((cells window.dims).map fun w => v.entry (windowCell strides o w))) ∧
    ∀ o, Below o shape.dims →
      (∀ w, Below w window.dims → Below (windowCell strides o w) v.layout.shape.dims) ∧
      ∀ [Element.Integral α], IsGreatest
        (Reduction.max.fold ((cells window.dims).map fun w => v.entry (windowCell strides o w)))
        ((cells window.dims).map fun w => v.entry (windowCell strides o w)) := by
  rw [Operation.maxPool_eq_ok, hv] at hrule
  obtain ⟨hrank, hwindow, hstrides, hfit, rfl⟩ := hrule
  have htwo : 2 ≤ v.layout.shape.dims.length := Nat.le_of_succ_le hrank
  have hbatch : (v.layout.shape.dims.take 2).length = 2 := List.length_take_of_le htwo
  refine ⟨?_, ?_, ⟨rfl, by simpa [maxPool, Outcome.complete] using hsize, ?_⟩, ?_⟩
  · rw [Shape.rank, List.length_append, length_pooledSizes hwindow hstrides, ← List.length_append,
      List.take_append_drop, Shape.rank]
  · intro j hj
    rw [List.drop_left' hbatch]
    exact windowCount_pooledSizes hwindow hstrides hfit j hj
  · intro o ho
    refine (getElem?_mapIdx_position hsize _ ho).trans (congrArg some ?_)
    rw [hout, coordinates_position ho, map_get_windowElement]
  · intro o ho
    constructor
    · intro w hw
      rw [windowCell, ← windowCoordinates_eq_zipWith]
      exact below_window htwo hwindow hstrides hfit ho hw
    · intro _
      apply isGreatest_fold
      rw [ne_eq, List.map_eq_nil_iff, cells_eq_nil]
      exact (count_pos_of_windowsFit hwindow hstrides hfit).ne'

/-- One image of one channel, three rows of four, stored column by column. -/
def image : View UInt8 :=
  ⟨#[1, 5, 9, 2, 6, 1, 3, 7, 2, 4, 8, 3],
    (Layout.packed .u8 ⟨[1, 1, 4, 3]⟩).transpose [0, 1, 3, 2]⟩

/-- Windows of two by two, two columns apart, overlap in the middle row; the second one in
the first row sees `3, 4, 7, 8`. -/
theorem maxPool_image : (maxPool [2, 2] [1, 2] image (.packed .u8 ⟨[1, 1, 2, 2]⟩)
      #[0, 0, 0, 0]).block[1]? = some 8 ∧
    IsGreatest (8 : UInt8) [3, 4, 7, 8] ∧ WindowCount 4 2 2 2 := by
  have hrule : (Operation.maxPool ⟨0⟩ ⟨[2, 2]⟩ [1, 2] : Operation UInt8).outputShape
      (fun _ => image.layout.shape) = .ok ⟨[1, 1, 2, 2]⟩ := rfl
  have hout : (Layout.packed .u8 ⟨[1, 1, 2, 2]⟩).shape = ⟨[1, 1, 2, 2]⟩ := rfl
  have hsize : (#[0, 0, 0, 0] : Array UInt8).size = Shape.size ⟨[1, 1, 2, 2]⟩ := rfl
  have h := maxPool_fills hrule rfl hout hsize
  have ho : Below [0, 0, 0, 1] [1, 1, 2, 2] :=
    .cons (by decide) <| .cons (by decide) <| .cons (by decide) <| .cons (by decide) .nil
  exact ⟨h.2.2.1.entry_eq _ ho, (h.2.2.2 _ ho).2, h.2.1 1 (by decide)⟩

end TensorGraph.Kernel
