/-
# Reductions in stages

Axes may be folded away all at once, or first some and then the others.  The second
reduction names its axes by where they are once the first ones are gone (`renumbered`).
On whole numbers the stages make no difference:

| | |
| :-- | :-- |
| axes | both ways keep the same axes, in the same order (`keptAxes_renumbered`) |
| cells | a fibre over all the axes falls into fibres over the first ones, one for each cell of a fibre over the others (`fibre_stages`) |
| elements | a fold looks neither at the order of its elements nor at how they are grouped (`fold_perm`, `fold_flatMap`) |

Floating-point sums fail in the last line, and only there.
-/
import TensorGraph.Proofs.Graphs
import TensorGraph.Proofs.Reductions

namespace TensorGraph

/-! ## Folds over whole numbers -/

namespace Element.Integral

variable {α : Type} [Element α] [Integral α]

/-- The greater of two elements stands for the greater of two numbers. -/
theorem value_combine_max (x y : α) :
    value (Reduction.max.combine x y) = max (value x) (value y) := by
  show value (if Element.lt x y = true then y else x) = _
  by_cases hlt : Element.lt x y = true
  · have hless := (lt_iff x y).mp hlt
    rw [if_pos hlt]
    omega
  · have hless := mt (lt_iff x y).mpr hlt
    rw [if_neg hlt]
    omega

theorem combine_comm (r : Reduction) (x y : α) : r.combine x y = r.combine y x := by
  cases r with
  | sum =>
      refine eq_of_modEq ((value_add x y).trans ?_)
      rw [Int.add_comm]
      exact (value_add y x).symm
  | max =>
      refine value_injective ?_
      rw [value_combine_max, value_combine_max, max_comm]

theorem combine_assoc (r : Reduction) (x y z : α) :
    r.combine (r.combine x y) z = r.combine x (r.combine y z) := by
  cases r with
  | sum =>
      refine eq_of_modEq ?_
      calc value (Element.add (Element.add x y) z)
          ≡ value (Element.add x y) + value z [ZMOD modulus α] := value_add _ _
        _ ≡ value x + value y + value z [ZMOD modulus α] := (value_add x y).add_right _
        _ = value x + (value y + value z) := Int.add_assoc _ _ _
        _ ≡ value x + value (Element.add y z) [ZMOD modulus α] := ((value_add y z).add_left _).symm
        _ ≡ value (Element.add x (Element.add y z)) [ZMOD modulus α] := (value_add _ _).symm
  | max =>
      refine value_injective ?_
      rw [value_combine_max, value_combine_max, value_combine_max, value_combine_max, max_assoc]

theorem combine_identity (r : Reduction) (x : α) : r.combine x r.identity = x := by
  cases r with
  | sum =>
      refine eq_of_modEq ((value_add x Element.zero).trans ?_)
      rw [value_zero, Int.add_zero]
  | max =>
      refine value_injective ?_
      rw [value_combine_max]
      exact max_eq_left (lowest_le x)

instance (r : Reduction) : Std.Commutative (r.combine (α := α)) := ⟨combine_comm r⟩

instance (r : Reduction) : Std.Associative (r.combine (α := α)) := ⟨combine_assoc r⟩

/-- The order of the elements does not matter. -/
theorem fold_perm (r : Reduction) {xs ys : List α} (h : xs.Perm ys) : r.fold xs = r.fold ys :=
  h.foldl_op_eq

theorem fold_append (r : Reduction) (xs ys : List α) :
    r.fold (xs ++ ys) = r.combine (r.fold xs) (r.fold ys) := by
  calc r.fold (xs ++ ys) = ys.foldl r.combine (r.fold xs) := List.foldl_append
    _ = ys.foldl r.combine (r.combine (r.fold xs) r.identity) := by rw [combine_identity]
    _ = r.combine (r.fold xs) (r.fold ys) := List.foldl_assoc

/-- Elements may be folded group by group, and an empty group does not count. -/
theorem fold_flatMap {β : Type} (r : Reduction) (groups : List β) (f : β → List α) :
    r.fold (groups.flatMap f) = r.fold (groups.map fun g => r.fold (f g)) := by
  induction groups with
  | nil => rfl
  | cons g groups ih =>
      rw [List.flatMap_cons, fold_append, ih, List.map_cons, ← List.singleton_append, fold_append]
      congr 1
      show r.fold (f g) = r.combine r.identity (r.fold (f g))
      rw [combine_comm, combine_identity]

end Element.Integral

/-! ## Axes of the second stage -/

/-- Where an axis is once the listed ones are gone. -/
def Shape.renumbered (rank : Nat) (axes : List Nat) (a : Nat) : Nat := (keptAxes rank axes).idxOf a

namespace RowMajor

open Shape

variable {rank : Nat} {first second : List Nat}

/-- The axes that can be named in the second stage. -/
theorem mem_keptAxes_of_distinct (h : distinctAxes rank (first ++ second) = true) {a : Nat}
    (ha : a ∈ second) : a ∈ keptAxes rank first := by
  simp only [distinctAxes, Bool.and_eq_true, List.all_eq_true, decide_eq_true_eq] at h
  refine mem_keptAxes.mpr ⟨h.1 a (List.mem_append_right _ ha), ?_⟩
  rw [← Bool.not_eq_true, List.contains_iff_mem]
  intro hfirst
  exact (List.nodup_append.mp h.2).2.2 a hfirst a ha rfl

/-- A kept axis is listed in the second stage exactly if its new number is. -/
theorem contains_renumbered {j : Nat} (hj : j < (keptAxes rank first).length) :
    (second.map (renumbered rank first)).contains j
      = second.contains ((keptAxes rank first).getD j 0) := by
  have hget : (keptAxes rank first).getD j 0 = (keptAxes rank first)[j] := by simp [hj]
  rw [Bool.eq_iff_iff, List.contains_iff_mem, List.contains_iff_mem, List.mem_map, hget]
  constructor
  · rintro ⟨a, ha, rfl⟩
    simpa [renumbered] using ha
  · intro ha
    exact ⟨_, ha, (nodup_keptAxes rank first).idxOf_getElem j hj⟩

/-- What the second stage keeps of the axes that the first one has kept is what is kept when
all axes are named at once. -/
theorem keptAxes_renumbered (rank : Nat) (first second : List Nat) :
    ((keptAxes (keptAxes rank first).length (second.map (renumbered rank first))).map fun j =>
      (keptAxes rank first).getD j 0) = keptAxes rank (first ++ second) := by
  have hfilter : keptAxes (keptAxes rank first).length (second.map (renumbered rank first))
      = (List.range (keptAxes rank first).length).filter
          ((fun a => !second.contains a) ∘ fun j => (keptAxes rank first).getD j 0) := by
    refine List.filter_congr fun j hj => ?_
    rw [contains_renumbered (List.mem_range.mp hj)]
    rfl
  rw [hfilter, ← List.filter_map, map_getD_range, keptAxes, List.filter_filter]
  refine List.filter_congr fun a _ => ?_
  simp [Bool.and_comm]

/-- The same for whatever there is along the axes: sizes, or the coordinates of a cell. -/
theorem map_kept_renumbered (rank : Nat) (first second : List Nat) (f : Nat → Nat) :
    ((keptAxes (keptAxes rank first).length (second.map (renumbered rank first))).map fun j =>
      ((keptAxes rank first).map f).getD j 0) = (keptAxes rank (first ++ second)).map f := by
  rw [← keptAxes_renumbered, List.map_map]
  refine List.map_congr_left fun j hj => ?_
  have hlt := (mem_keptAxes.mp hj).1
  simp [hlt]

theorem distinctAxes_renumbered (h : distinctAxes rank (first ++ second) = true) :
    distinctAxes (keptAxes rank first).length (second.map (renumbered rank first)) = true := by
  have hkept := fun a => mem_keptAxes_of_distinct h (a := a)
  simp only [distinctAxes, Bool.and_eq_true, List.all_eq_true, decide_eq_true_eq] at h ⊢
  refine ⟨?_, (List.nodup_append.mp h.2).2.1.map_on ?_⟩
  · intro j hj
    obtain ⟨a, ha, rfl⟩ := List.mem_map.mp hj
    exact List.idxOf_lt_length_iff.mpr (hkept a ha)
  · intro a ha b hb heq
    exact (List.idxOf_inj (hkept a ha)).mp heq

/-! ## Fibres of fibres -/

/-- A cell belongs to the fibre over all axes exactly if it belongs to the fibre over the first
ones of some cell in the fibre over the others, and then of no other cell. -/
theorem fibre_stages {dims across : List Nat}
    (hc : Below across ((keptAxes dims.length (first ++ second)).map fun a => dims.getD a 0)) :
    (fibre dims (first ++ second) across).Perm
      ((fibre ((keptAxes dims.length first).map fun a => dims.getD a 0)
        (second.map (renumbered dims.length first)) across).flatMap (fibre dims first)) := by
  have hlen : ((keptAxes dims.length first).map fun a => dims.getD a 0).length
      = (keptAxes dims.length first).length := List.length_map _
  have hsizes := map_kept_renumbered dims.length first second fun a => dims.getD a 0
  have hc' := hsizes ▸ hc
  rw [← hlen] at hc'
  have hmid : ∀ mid ∈ fibre ((keptAxes dims.length first).map fun a => dims.getD a 0)
      (second.map (renumbered dims.length first)) across,
      Below mid ((keptAxes dims.length first).map fun a => dims.getD a 0) :=
    fun mid hin => ((mem_fibre hc').mp hin).1
  refine (List.perm_ext_iff_of_nodup (pairwise_fibre hc).nodup ?_).mpr fun c => ?_
  · refine List.nodup_flatMap.mpr ⟨fun mid hin => (pairwise_fibre (hmid mid hin)).nodup, ?_⟩
    -- a cell tells by its kept coordinates to which fibre it belongs
    refine (pairwise_fibre hc').nodup.imp_of_mem fun hin hin' hne => ?_
    intro c hmem hmem'
    have hfst := ((mem_fibre (hmid _ hin)).mp hmem).2
    have hsnd := ((mem_fibre (hmid _ hin')).mp hmem').2
    exact hne (hfst.symm.trans hsnd)
  · rw [mem_fibre hc, List.mem_flatMap]
    have hcoords := map_kept_renumbered dims.length first second fun a => c.getD a 0
    constructor
    · rintro ⟨hbelow, hkept⟩
      have hmidbelow : Below ((keptAxes dims.length first).map fun a => c.getD a 0)
          ((keptAxes dims.length first).map fun a => dims.getD a 0) :=
        below_map_getD hbelow fun a ha => (mem_keptAxes.mp ha).1
      refine ⟨_, (mem_fibre hc').mpr ⟨hmidbelow, ?_⟩, (mem_fibre hmidbelow).mpr ⟨hbelow, rfl⟩⟩
      rw [hlen, hcoords, hkept]
    · rintro ⟨mid, hin, hmem⟩
      obtain ⟨hmidbelow, hacross⟩ := (mem_fibre hc').mp hin
      obtain ⟨hbelow, rfl⟩ := (mem_fibre hmidbelow).mp hmem
      rw [hlen, hcoords] at hacross
      exact ⟨hbelow, hacross⟩

end RowMajor

/-! ## Two stages and one -/

namespace Kernel

open RowMajor Evaluation Element.Integral

variable {α : Type} [Element α]

/-- What a tensor of dense elements shows in a cell. -/
theorem entry_dense {shape : Shape} {xs : Array α} {c : List Nat} {x : α}
    (hc : Below c shape.dims) (h : xs[position c (strides shape.dims)]? = some x) :
    (View.dense shape xs).entry c = x := by
  have hplace := (Layout.regular_packed (Element.kind α) shape).place_eq hc
  rw [Layout.start_packed, Nat.zero_add] at hplace
  show xs.getD ((Layout.packed (Element.kind α) shape).place c) Element.zero = x
  rw [hplace, Array.getD_eq_getD_getElem?]
  exact (congrArg (·.getD Element.zero) h)

omit [Element α] in
/-- Tensors that show the same in all cells are equal. -/
theorem eq_of_cells {xs ys : Array α} {shape : Shape} (hx : xs.size = shape.size)
    (hy : ys.size = shape.size)
    (h : ∀ c, Below c shape.dims →
      xs[position c (strides shape.dims)]? = ys[position c (strides shape.dims)]?) : xs = ys := by
  refine Array.ext_getElem? fun i => ?_
  by_cases hi : i < shape.size
  · have hcell := h _ (below_coordinates (Nat.zero_lt_of_lt hi) i)
    rwa [position_coordinates hi] at hcell
  · rw [Array.getElem?_eq_none (by omega), Array.getElem?_eq_none (by omega)]

section Stages

variable [Element.Integral α] (r : Reduction) (v : View α) (first second : List Nat)

/-- The tensor after the first stage. -/
def firstStage : View α :=
  View.dense (v.layout.shape.without first) (Evaluation.reduce r v.layout.shape.dims first v.gather)

/-- The shape after the second stage. -/
theorem without_stages (shape : Shape) :
    (shape.without first).without (second.map (Shape.renumbered shape.rank first))
      = shape.without (first ++ second) := by
  have hsizes := map_kept_renumbered shape.rank first second fun a => shape.dims.getD a 0
  have hrank : (shape.without first).rank = (Shape.keptAxes shape.rank first).length :=
    Shape.rank_select _ _
  show Shape.mk _ = Shape.mk _
  rw [hrank]
  exact congrArg Shape.mk hsizes

omit [Element.Integral α] in
/-- What the second stage reads are the folds over the fibres of the first one. -/
theorem entry_firstStage {c : List Nat} (hc : Below c (v.layout.shape.without first).dims) :
    (firstStage r v first).entry c = r.fold ((fibre v.layout.shape.dims first c).map v.entry) :=
  entry_dense hc (reduce_entry r first v hc)

section Cell

variable {first second}

/-- Both ways, a cell of the result gets the fold over the fibre of all axes. -/
theorem entry_secondStage {across : List Nat}
    (hc : Below across (v.layout.shape.without (first ++ second)).dims) :
    (Evaluation.reduce r (v.layout.shape.without first).dims
        (second.map (Shape.renumbered v.layout.shape.rank first))
        (firstStage r v first).gather)[position across
          (strides (v.layout.shape.without (first ++ second)).dims)]?
      = some (r.fold ((fibre v.layout.shape.dims (first ++ second) across).map v.entry)) := by
  have hshape := without_stages first second v.layout.shape
  have hc' := hshape.symm ▸ hc
  have hstage := reduce_entry r (second.map (Shape.renumbered v.layout.shape.rank first))
    (firstStage r v first) hc'
  rw [← hshape]
  refine hstage.trans (congrArg some ?_)
  rw [fold_perm r ((fibre_stages hc).map v.entry), List.map_flatMap, fold_flatMap]
  refine congrArg r.fold (List.map_congr_left fun mid hin => ?_)
  exact entry_firstStage r v first ((mem_fibre hc').mp hin).1

end Cell

/-- A reduction over some axes and then one over others is a reduction over all of them. -/
theorem evaluate_stages :
    Evaluation.reduce r (v.layout.shape.without first).dims
        (second.map (Shape.renumbered v.layout.shape.rank first)) (firstStage r v first).gather
      = Evaluation.reduce r v.layout.shape.dims (first ++ second) v.gather := by
  have hshape := without_stages first second v.layout.shape
  refine eq_of_cells ((size_tabulate _ _).trans (congrArg Shape.size hshape)) (size_tabulate _ _) ?_
  intro across hc
  rw [entry_secondStage r v hc, reduce_entry r (first ++ second) v hc]

end Stages

section Rule

variable {rank : Nat} {first second axes : List Nat}

/-- Axes that are named once each, one part of them at a time or in another order. -/
theorem distinctAxes_first (h : Shape.distinctAxes rank (first ++ second) = true) :
    Shape.distinctAxes rank first = true := by
  simp only [Shape.distinctAxes, Bool.and_eq_true, List.all_append, decide_eq_true_eq] at h ⊢
  exact ⟨h.1.1, (List.nodup_append.mp h.2).1⟩

theorem distinctAxes_perm (haxes : axes.Perm first) (h : Shape.distinctAxes rank first = true) :
    Shape.distinctAxes rank axes = true := by
  simp only [Shape.distinctAxes, Bool.and_eq_true, decide_eq_true_eq] at h ⊢
  exact ⟨haxes.all_eq.trans h.1, haxes.nodup_iff.mpr h.2⟩

theorem without_perm (haxes : axes.Perm first) (shape : Shape) :
    shape.without axes = shape.without first :=
  congrArg shape.select (keptAxes_perm haxes shape.rank)

theorem reduce_perm (haxes : axes.Perm first) (r : Reduction) (v : View α) (block : Array α) :
    reduce r axes v block = reduce r first v block := by
  show Outcome.complete _ = Outcome.complete _
  rw [keptAxes_perm haxes]

end Rule

/-- Let the axes `first` and `second` be named once each and without one in common.  To fold
all of them away at once, in whatever order they are listed, is the same as to fold `first`
away and then, of the tensor that is left, the axes that `second` has become:

* the shape rule accepts all three reductions, and both ways lead to the same shape;
* a later axis is the one that stands, among those that are kept, where it says;
* on whole numbers both ways lead to the same block, whatever the three blocks held. -/
theorem reduce_staged [Element.Integral α] (r : Reduction) (v : View α)
    {first second axes : List Nat}
    (h : Shape.distinctAxes v.layout.shape.rank (first ++ second) = true)
    (haxes : axes.Perm (first ++ second)) {block middle last : Array α}
    (hblock : block.size = (v.layout.shape.without axes).size)
    (hmiddle : middle.size = (v.layout.shape.without first).size)
    (hlast : last.size = (v.layout.shape.without axes).size) :
    (∀ (x y : NodeId) (shapeOf : NodeId → Shape), shapeOf x = v.layout.shape →
      shapeOf y = v.layout.shape.without first →
      (Operation.reduce r x axes : Operation α).outputShape shapeOf
        = .ok (v.layout.shape.without axes) ∧
      (Operation.reduce r x first : Operation α).outputShape shapeOf
        = .ok (v.layout.shape.without first) ∧
      (Operation.reduce r y (second.map (Shape.renumbered v.layout.shape.rank first))
        : Operation α).outputShape shapeOf = .ok (v.layout.shape.without axes)) ∧
    (∀ a ∈ second, (Shape.keptAxes v.layout.shape.rank first)[Shape.renumbered
      v.layout.shape.rank first a]? = some a) ∧
    (reduce r first v middle).failure = none ∧
    reduce r (second.map (Shape.renumbered v.layout.shape.rank first))
        (View.dense (v.layout.shape.without first) (reduce r first v middle).block) last
      = reduce r axes v block := by
  have hwithout := without_perm haxes v.layout.shape
  have hshape := without_stages first second v.layout.shape
  rw [hwithout] at hblock hlast
  rw [hwithout]
  refine ⟨?_, ?_, rfl, ?_⟩
  · intro x y shapeOf hx hy
    have hrank : (v.layout.shape.without first).rank
        = (Shape.keptAxes v.layout.shape.rank first).length := Shape.rank_select _ _
    rw [Operation.reduce_eq_ok, Operation.reduce_eq_ok, Operation.reduce_eq_ok, hx, hy, hrank]
    exact ⟨⟨distinctAxes_perm haxes h, hwithout⟩, ⟨distinctAxes_first h, rfl⟩,
      distinctAxes_renumbered h, hshape⟩
  · intro a ha
    exact List.getElem?_idxOf (mem_keptAxes_of_distinct h ha)
  · rw [reduce_perm haxes, reduce_spec r first v middle hmiddle,
      reduce_spec r (first ++ second) v block hblock, ← evaluate_stages]
    have hlast' := hlast.trans (congrArg Shape.size hshape.symm)
    exact reduce_spec r _ (firstStage r v first) last hlast'

/-- A cube of eight numbers, stored with the last axis first. -/
def cube : View UInt8 :=
  ⟨#[200, 1, 2, 3, 100, 5, 6, 7], (Layout.packed .u8 ⟨[2, 2, 2]⟩).transpose [2, 1, 0]⟩

/-- The outer axes at once or one after the other: the last axis is the second one when its
turn comes, and the first sum passes the greatest element both ways. -/
theorem reduce_cube :
    (reduce .sum [1] (View.dense ⟨[2, 2]⟩ (reduce .sum [0] cube (.replicate 4 9)).block)
      #[9, 9]).block = #[50, 18] ∧ (reduce .sum [2, 0] cube #[8, 8]).block = #[50, 18] := by
  have haxes : [2, 0].Perm ([0] ++ [2]) := .swap 0 2 []
  have hblock : (#[8, 8] : Array UInt8).size = (cube.layout.shape.without [2, 0]).size := rfl
  have hmiddle : (Array.replicate 4 9 : Array UInt8).size
      = (cube.layout.shape.without [0]).size := rfl
  have hlast : (#[9, 9] : Array UInt8).size = (cube.layout.shape.without [2, 0]).size := rfl
  have hone : (reduce .sum [2, 0] cube #[8, 8]).block = #[50, 18] := by decide
  obtain ⟨-, -, -, hstages⟩ := reduce_staged .sum cube (by decide) haxes hblock hmiddle hlast
  exact ⟨(congrArg Outcome.block hstages).trans hone, hone⟩

end Kernel
end TensorGraph
