/-
# Contractions, cell by cell

The kernel multiplies two matrices, each side of which is a group of axes.  Where `lhs` has
the sizes `rows ++ common` and `rhs` has `common ++ columns`,

| | |
| :-- | :-- |
| row `i` of `lhs` | the cells `a ++ c`, where `i` is the number of `a` among `rows` |
| column `j` of `rhs` | the cells `c ++ b`, where `j` is the number of `b` among `columns` |
| element `(i, j)` | the cell `a ++ b` of the result |

One group within the other is how cells are numbered (`position_append`), so the inner
product of a row and a column is a sum over the cells `c` of the common axes.
-/
import TensorGraph.Kernel.Contract
import TensorGraph.Proofs.Cells
import TensorGraph.Proofs.Graphs
import TensorGraph.Proofs.Integers

namespace TensorGraph.Kernel

open RowMajor Element.Integral

variable {α : Type} [Element α]

/-- The sum of products over the cells of the common axes in row-major order, taken from
zero, of `lhs` behind the coordinates `a` and of `rhs` before the coordinates `b`. -/
def sumProduct (lhs rhs : View α) (common a b : List Nat) : α :=
  (cells common).foldl
    (fun acc c => Element.add acc (Element.mul (lhs.entry (a ++ c)) (rhs.entry (c ++ b))))
    Element.zero

section Matrix

variable {lhs rhs : View α} {rows common columns a b : List Nat}
  (hl : lhs.layout.shape.dims = rows ++ common) (hr : rhs.layout.shape.dims = common ++ columns)
  (ha : Below a rows)

include hl hr ha

theorem innerProduct_eq : innerProduct lhs rhs (count common) (count columns)
    (position a (strides rows)) (position b (strides columns)) = sumProduct lhs rhs common a b := by
  rw [innerProduct, ← map_position_cells common, List.foldl_map]
  refine List.foldl_ext _ _ _ fun acc c hc => ?_
  rw [← position_append ha.length_eq, ← position_append (mem_cells.mp hc).length_eq, ← hl, ← hr,
    View.get_position, View.get_position]

/-- The row and the column of an element follow from its number. -/
theorem innerProduct_position (hb : Below b columns) :
    innerProduct lhs rhs (count common) (count columns)
      (position (a ++ b) (strides (rows ++ columns)) / count columns)
      (position (a ++ b) (strides (rows ++ columns)) % count columns)
        = sumProduct lhs rhs common a b := by
  have hlt := position_lt_count hb
  rw [position_append ha.length_eq, flat_div hlt, flat_mod hlt]
  exact innerProduct_eq hl hr ha

end Matrix

theorem isResidue_sumProduct [Element.Integral α] (lhs rhs : View α) (common a b : List Nat) :
    IsResidue (sumProduct lhs rhs common a b)
      ((cells common).map fun c => value (lhs.entry (a ++ c)) * value (rhs.entry (c ++ b))).sum :=
  isResidue_foldl_add (fun _ => value_mul _ _) _

theorem sumProduct_of_count_eq_zero {common : List Nat} (h : count common = 0) (lhs rhs : View α)
    (a b : List Nat) : sumProduct lhs rhs common a b = Element.zero := by
  rw [sumProduct, cells_eq_nil.mpr h, List.foldl_nil]

/-- Whatever the block held, the cell `a ++ b` of the result gets the sum over the cells `c`
of the contracted axes, in row-major order, of the products of `lhs` at `a ++ c` and `rhs`
at `c ++ b`, all of which are cells of the operands.  On whole numbers that is the sum of
products modulo the width of the type; it is zero where a contracted axis is empty.  A
result with elements has rows with elements, so that their numbers can be split. -/
theorem contract_fills {x y : NodeId} {contracted : Nat} {shapeOf : NodeId → Shape} {shape : Shape}
    (hrule : (Operation.dot x y contracted : Operation α).outputShape shapeOf = .ok shape)
    {lhs rhs : View α} (hl : shapeOf x = lhs.layout.shape) (hr : shapeOf y = rhs.layout.shape)
    {block : Array α} (hsize : block.size = shape.size) (hpos : shape.size ≠ 0) :
    count (rhs.layout.shape.dims.drop contracted) ≠ 0 ∧
    (contract contracted lhs rhs block).failure = none ∧
    (contract contracted lhs rhs block).block.size = shape.size ∧
    ∀ a b, Below a (lhs.layout.shape.dims.take (lhs.layout.shape.rank - contracted)) →
      Below b (rhs.layout.shape.dims.drop contracted) →
      (contract contracted lhs rhs block).block[position (a ++ b) (strides shape.dims)]?
        = some (sumProduct lhs rhs (rhs.layout.shape.dims.take contracted) a b) ∧
      (∀ c, Below c (rhs.layout.shape.dims.take contracted) →
        Below (a ++ c) lhs.layout.shape.dims ∧ Below (c ++ b) rhs.layout.shape.dims) ∧
      (∀ [Element.Integral α], IsResidue
        (sumProduct lhs rhs (rhs.layout.shape.dims.take contracted) a b)
        ((cells (rhs.layout.shape.dims.take contracted)).map fun c =>
          value (lhs.entry (a ++ c)) * value (rhs.entry (c ++ b))).sum) ∧
      (count (rhs.layout.shape.dims.take contracted) = 0 →
        sumProduct lhs rhs (rhs.layout.shape.dims.take contracted) a b = Element.zero) := by
  rw [Operation.dot_eq_ok, hl, hr] at hrule
  obtain ⟨-, hcommon, rfl⟩ := hrule
  have hleft := (List.take_append_drop (lhs.layout.shape.rank - contracted)
    lhs.layout.shape.dims).symm
  have hright := (List.take_append_drop contracted rhs.layout.shape.dims).symm
  rw [hcommon] at hleft
  refine ⟨?_, rfl, by simpa [contract, Outcome.complete] using hsize, ?_⟩
  · intro hzero
    apply hpos
    rw [Shape.size, count_append, hzero, Nat.mul_zero]
  · intro a b ha hb
    refine ⟨?_, ?_, isResidue_sumProduct lhs rhs _ a b, ?_⟩
    · refine (getElem?_mapIdx_position hsize _ (below_append ha hb)).trans (congrArg some ?_)
      rw [← Shape.rank, hcommon]
      exact innerProduct_position hleft hright ha hb
    · intro c hc
      constructor
      · rw [hleft]
        exact below_append ha hc
      · rw [hright]
        exact below_append hc hb
    · intro hzero
      exact sumProduct_of_count_eq_zero hzero lhs rhs a b

/-- Two rows of three, read as three rows of two. -/
def pairs : View UInt8 :=
  ⟨#[1, 2, 3, 100, 5, 6], (Layout.packed .u8 ⟨[2, 3]⟩).transpose [1, 0]⟩

/-- A column of two, read twice. -/
def weights : View UInt8 :=
  ⟨#[7, 3], (Layout.packed .u8 ⟨[2]⟩).broadcast ⟨[2, 2]⟩ [1]⟩

/-- The sum of products passes the greatest element and starts again from zero. -/
theorem contract_pairs :
    (contract 1 pairs weights #[9, 9, 9, 9, 9, 9]).block[1]? = some 51 ∧
      IsResidue (51 : UInt8) (1 * 7 + 100 * 3) := by
  have hrule : (Operation.dot ⟨0⟩ ⟨1⟩ 1 : Operation UInt8).outputShape
      (fun id => if id = ⟨0⟩ then pairs.layout.shape else weights.layout.shape)
        = .ok ⟨[3, 2]⟩ := rfl
  have hsize : (#[9, 9, 9, 9, 9, 9] : Array UInt8).size = Shape.size ⟨[3, 2]⟩ := rfl
  have h := contract_fills hrule rfl rfl hsize (by decide)
  obtain ⟨hentry, -, hresidue, -⟩ :=
    h.2.2.2 [0] [1] (.cons (by decide) .nil) (.cons (by decide) .nil)
  exact ⟨hentry, hresidue⟩

end TensorGraph.Kernel
