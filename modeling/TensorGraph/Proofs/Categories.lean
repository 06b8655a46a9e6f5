/-
# Spreading categories over a new axis

One-hot encoding turns an element into a 64-bit float, asks whether that is a whole number
below the size of the new axis, and cuts it off to find the place of the mark.  Three
things make this exact:

    a float is a category          ⟺  it stands for a whole number below `depth`
    it is cut off                   =  to that number
    the float of an element        stands for the number of the element, or for one that
                                   is too large to be a category, as that of the element is

The first two are `isCategory_iff` and `toUInt64_of_number`, the last is `Element.Numeric`.
The number of a mark is that of the input cell with the category put in at the new axis
(`position_insertIdx`), so that marks of different cells never meet.
-/
import TensorGraph.Proofs.Cells
import TensorGraph.Proofs.Graphs
import TensorGraph.Proofs.Kernels
import TensorGraph.Proofs.Numbers

namespace TensorGraph

open RowMajor

/-! ## Floats that are categories -/

namespace Rounding

open Float.Model Float.Model.UnpackedFloat

/-- Floats that are equal stand for the same number. -/
theorem number_eq_of_beq {x y : Float} (h : (x == y) = true) :
    number? x.toModel.unpack = number? y.toModel.unpack := by
  rcases ((beq_iff_ne_notANumber_and_eq _ _).mp h).2.2 with heq | ⟨hx, hy⟩ | ⟨hx, hy⟩
  · rw [heq]
  · rw [hx, hy]
    rfl
  · rw [hx, hy]
    rfl

theorem zero_of_number {u : UnpackedFloat} (h : number? u = some 0) : ∃ sign, u = .zero sign := by
  cases u with
  | notANumber | infinity => cases h
  | zero sign => exact ⟨sign, rfl⟩
  | finite sign m e hm =>
      have hsigned : ((sign.apply m : Int) : ℚ) ≠ 0 := by
        cases sign with
        | positive => simpa [Sign.apply] using hm.ne'
        | negative => simpa [Sign.apply] using hm.ne'
      have hzero := Option.some.inj h
      exact absurd hzero (mul_ne_zero hsigned (zpow_ne_zero e (by norm_num)))

theorem toNat_toUInt64 {n : Nat} (h : n < 2 ^ 53) : n.toUInt64.toNat = n :=
  Nat.mod_eq_of_lt (Nat.lt_trans h (by decide))

theorem number_toUInt64 {n : Nat} (h : n < 2 ^ 53) :
    number? n.toUInt64.toFloat.toModel.unpack = some (n : ℚ) := by
  have hnumber := number_ofInt (n := (n : Int)) (by simpa using h)
  rw [Int.cast_natCast] at hnumber
  show number? (Float.Model.pack (UnpackedFloat.ofInt Format.binary64 n.toUInt64.toNat)).unpack = _
  rw [toNat_toUInt64 h]
  exact hnumber

/-- Floats that stand for one whole number are equal. -/
theorem beq_of_number {x y : Float} {n : Nat} (h : n < 2 ^ 53)
    (hx : number? x.toModel.unpack = some (n : ℚ)) (hy : number? y.toModel.unpack = some (n : ℚ)) :
    (x == y) = true := by
  refine (beq_iff_ne_notANumber_and_eq _ _).mpr ?_
  by_cases hn : n = 0
  · subst hn
    obtain ⟨sign, hx⟩ := zero_of_number hx
    obtain ⟨sign', hy⟩ := zero_of_number hy
    rw [hx, hy]
    cases sign with
    | positive => cases sign' with | positive | negative => simp
    | negative => cases sign' with | positive | negative => simp
  · obtain ⟨_, hx⟩ := unpack_of_number hn h hx
    obtain ⟨_, hy⟩ := unpack_of_number hn h hy
    rw [hx, hy]
    simp

/-- A float that stands for a whole number is cut off to it. -/
theorem toUInt64_of_number {x : Float} {n : Nat} (h : n < 2 ^ 53)
    (hx : number? x.toModel.unpack = some (n : ℚ)) : x.toUInt64 = n.toUInt64 := by
  show UInt64.ofNatClamp (x.toModel.unpack.toInt 0 (UInt64.size - 1)).toNat = _
  by_cases hn : n = 0
  · subst hn
    obtain ⟨sign, hzero⟩ := zero_of_number hx
    rw [hzero]
    rfl
  · obtain ⟨hm, hunpack⟩ := unpack_of_number hn h hx
    have hlog : n.log2 < 53 := (Nat.log2_lt hn).mpr h
    have hzero : ((n.log2 : Int) - 52).toNat = 0 := by omega
    have hshift : (-((n.log2 : Int) - 52)).toNat = 52 - n.log2 := by omega
    rw [hunpack, toInt_finite, Int.toNat_natCast, hzero, hshift, Nat.pow_zero, Nat.mul_one,
      Nat.mul_div_cancel _ (Nat.two_pow_pos _), UInt64.ofNatClamp,
      dif_pos (Nat.lt_trans h (by decide))]
    exact UInt64.ofNatLT_eq_ofNat n

/-- The lesser of two whole numbers is the lesser float. -/
theorem compare_aligned {n d : Nat} (hn : n ≠ 0) (hlt : n < d) :
    ((compare ((n.log2 : Int) - 52) (d.log2 - 52)).then
      (compare (n * 2 ^ (52 - n.log2)) (d * 2 ^ (52 - d.log2)))) = .lt := by
  have hd : d ≠ 0 := by omega
  have hlog : n.log2 ≤ d.log2 := (Nat.le_log2 hd).mpr (Nat.le_trans (Nat.log2_self_le hn) hlt.le)
  rw [Ordering.then_eq_lt, Int.compare_eq_lt, Int.compare_eq_eq, Nat.compare_eq_lt]
  rcases Nat.lt_or_eq_of_le hlog with hless | heq
  · exact .inl (by omega)
  · rw [heq]
    exact .inr ⟨rfl, Nat.mul_lt_mul_of_pos_right hlt (Nat.two_pow_pos _)⟩

end Rounding

open Rounding in
/-- The categories below `depth` are the floats that stand for a whole number below `depth`. -/
theorem Kernel.isCategory_iff {depth : Nat} {x : Float} (hdepth : depth < 2 ^ 53) :
    Kernel.isCategory depth x = true ↔
      ∃ n < depth, number? x.toModel.unpack = some (n : ℚ) := by
  constructor
  · intro h
    have hlt := Kernel.isCategory_lt h
    simp only [Kernel.isCategory, Bool.and_eq_true] at h
    refine ⟨_, hlt, ?_⟩
    rw [← number_eq_of_beq h.1.1, ← number_toUInt64 (Nat.lt_trans hlt hdepth)]
    simp
  · rintro ⟨n, hlt, hx⟩
    have hn53 := Nat.lt_trans hlt hdepth
    have hd : depth ≠ 0 := by omega
    obtain ⟨_, hfloat⟩ := unpack_toFloat_small hd hdepth
    simp only [Kernel.isCategory, Bool.and_eq_true, decide_eq_true_eq, lt_iff, le_iff, hfloat]
    rw [toUInt64_of_number hn53 hx]
    refine and_assoc.mpr ⟨beq_of_number hn53 (number_toUInt64 hn53) hx, ?_⟩
    by_cases hn : n = 0
    · subst hn
      obtain ⟨sign, hzero⟩ := zero_of_number hx
      rw [hzero]
      exact ⟨rfl, rfl⟩
    · obtain ⟨_, hunpack⟩ := unpack_of_number hn hn53 hx
      rw [hunpack]
      exact ⟨rfl, congrArg some (compare_aligned hn hlt)⟩

/-! ## Elements that are categories -/

namespace Element.Numeric

open Rounding

variable {α : Type} [Element α] [Numeric α] {depth : Nat}

theorem abs_natCast_lt {n : Nat} (h : n < 2 ^ 53) : |(n : ℚ)| < 2 ^ 53 := by
  rw [Nat.abs_cast]
  exact_mod_cast h

/-- The float of an element is a category below `depth` exactly if the element stands for
one: an element that is too long for a mantissa is no category before or after rounding. -/
theorem category_iff (hdepth : depth < 2 ^ 53) (x : α) :
    Kernel.isCategory depth (toFloat x) = true ↔ ∃ j < depth, number? x = some (j : ℚ) := by
  rw [Kernel.isCategory_iff hdepth]
  by_cases hlarge : ∃ q, number? x = some q ∧ 2 ^ 53 ≤ |q|
  · obtain ⟨q, hq, hle⟩ := hlarge
    obtain ⟨q', hq', hle'⟩ := le_toFloat x q hq hle
    have short : ∀ {r : ℚ}, 2 ^ 53 ≤ |r| → ¬∃ j < depth, some r = some (j : ℚ) := by
      rintro r hr ⟨j, hj, hrj⟩
      rw [Option.some.inj hrj] at hr
      exact absurd (abs_natCast_lt (Nat.lt_trans hj hdepth)) (not_lt.mpr hr)
    rw [hq, hq']
    exact iff_of_false (short hle') (short hle)
  · rw [toFloat_eq x fun _ q hq => lt_of_not_ge fun hle => hlarge ⟨q, hq, hle⟩]

/-- The place of the mark of an element is the number that it stands for. -/
theorem toNat_toFloat {x : α} {j : Nat} (hj : j < 2 ^ 53) (h : number? x = some (j : ℚ)) :
    (toFloat x).toUInt64.toNat = j := by
  have hfloat := toFloat_eq x fun _ q hq => by
    rw [← Option.some.inj (h.symm.trans hq)]
    exact abs_natCast_lt hj
  rw [toUInt64_of_number hj (hfloat.trans h), toNat_toUInt64 hj]

end Element.Numeric

/-! ## The kernel -/

section Spread

variable {α : Type} [Element α] {depth axis : Nat} {v : View α}

open Element Element.Numeric Evaluation

namespace Kernel

/-- The marks that the whole pass makes, or the first element that stops it. -/
theorem oneHot_result (depth axis : Nat) (v : View α) (block : Array α) :
    (oneHot depth axis v block).result =
      match (List.range v.size).find? fun i => !isCategory depth (toFloat (v.get i)) with
      | some i => .error (.plain (.notCategory (toFloat (v.get i)) depth))
      | none => .ok (tabulate block.size fun o =>
          if (List.range v.size).any fun i =>
            hotPosition depth (count (v.layout.shape.dims.drop axis)) i
              (toFloat (v.get i)).toUInt64.toNat = o
          then one else zero) := by
  have hget : ∀ i ∈ List.range v.size, v.get i = v.get i := fun _ _ => rfl
  have hspec := markCategories_spec depth (count (v.layout.shape.dims.drop axis)) v hget
    (Array.replicate block.size zero)
  simp only [Array.size_replicate, nth_replicate] at hspec
  exact hspec

theorem oneHot_failure (depth axis : Nat) (v : View α) (block : Array α) :
    (oneHot depth axis v block).failure
      = ((List.range v.size).find? fun i => !isCategory depth (toFloat (v.get i))).map
          fun i => .plain (.notCategory (toFloat (v.get i)) depth) := by
  have hresult := oneHot_result depth axis v block
  cases hfind : (List.range v.size).find? fun i => !isCategory depth (toFloat (v.get i)) with
  | none =>
      rw [hfind] at hresult
      exact (Outcome.result_eq_ok.mp hresult).1
  | some i =>
      rw [hfind] at hresult
      exact Outcome.result_eq_error.mp hresult

theorem oneHot_block {block : Array α} (h : (oneHot depth axis v block).failure = none) :
    (oneHot depth axis v block).block = tabulate block.size fun o =>
      if (List.range v.size).any fun i =>
        hotPosition depth (count (v.layout.shape.dims.drop axis)) i
          (toFloat (v.get i)).toUInt64.toNat = o
      then one else zero := by
  have hresult := oneHot_result depth axis v block
  rw [oneHot_failure, Option.map_eq_none_iff] at h
  rw [h] at hresult
  exact (Outcome.result_eq_ok.mp hresult).2

end Kernel

variable [Element.Numeric α]

/-- What the view shows in the cell stands for a whole number below `depth`. -/
def View.Categorical (v : View α) (depth : Nat) (c : List Nat) : Prop :=
  ∃ j < depth, number? (v.entry c) = some (j : ℚ)

/-- The cell is the first one in row-major order that shows no whole number below `depth`. -/
structure View.FirstUncategorical (v : View α) (depth : Nat) (c : List Nat) : Prop where
  below : Below c v.layout.shape.dims
  uncategorical : ¬v.Categorical depth c
  first : ∀ c', Below c' v.layout.shape.dims →
    position c' (strides v.layout.shape.dims) < position c (strides v.layout.shape.dims) →
      v.Categorical depth c'

/-- The step got to its end, and its block holds a tensor with one axis more: along it, the
cell of the number that the view shows is one and the others are zero. -/
structure Outcome.Spreads (o : Outcome α) (v : View α) (depth axis : Nat) : Prop where
  failure_eq : o.failure = none
  size_eq : o.block.size = Shape.size ⟨v.layout.shape.dims.insertIdx axis depth⟩
  entry_eq : ∀ c j, Below c v.layout.shape.dims → j < depth →
    o.block[position (c.insertIdx axis j) (strides (v.layout.shape.dims.insertIdx axis depth))]?
      = some (if number? (v.entry c) = some (j : ℚ) then one else zero)
  exists_cell : ∀ i < o.block.size, ∃ c j, Below c v.layout.shape.dims ∧ j < depth ∧
    position (c.insertIdx axis j) (strides (v.layout.shape.dims.insertIdx axis depth)) = i
  unique_one : ∀ c, Below c v.layout.shape.dims → ∃! j, j < depth ∧
    o.block[position (c.insertIdx axis j) (strides (v.layout.shape.dims.insertIdx axis depth))]?
      = some one

namespace Kernel

theorem isCategory_get_iff (hdepth : depth < 2 ^ 53) (c : List Nat) :
    isCategory depth (toFloat (v.get (position c (strides v.layout.shape.dims)))) = true
      ↔ v.Categorical depth c :=
  category_iff hdepth (v.entry c)

theorem oneHot_failure_eq_none_iff (hdepth : depth < 2 ^ 53) (block : Array α) :
    (oneHot depth axis v block).failure = none ↔
      ∀ c, Below c v.layout.shape.dims → v.Categorical depth c := by
  have hcells : List.range v.size
      = (cells v.layout.shape.dims).map fun c => position c (strides v.layout.shape.dims) :=
    (map_position_cells _).symm
  rw [oneHot_failure, Option.map_eq_none_iff, List.find?_eq_none, hcells, List.forall_mem_map]
  refine forall_congr' fun c => ?_
  rw [mem_cells, Bool.not_eq_true', Bool.not_eq_false, isCategory_get_iff hdepth]

theorem oneHot_failure_eq_some_iff (hdepth : depth < 2 ^ 53) (block : Array α) {e : Error} :
    (oneHot depth axis v block).failure = some e ↔
      ∃ c, v.FirstUncategorical depth c ∧
        e = .plain (.notCategory (toFloat (v.entry c)) depth) := by
  rw [oneHot_failure, Option.map_eq_some_iff]
  constructor
  · rintro ⟨i, hfind, rfl⟩
    obtain ⟨hi, hmem, hbefore⟩ := List.find?_range_eq_some.mp hfind
    have hlt := List.mem_range.mp hmem
    have hpos := position_coordinates hlt
    have hbelow := below_coordinates (Nat.zero_lt_of_lt hlt) i
    refine ⟨coordinates v.layout.shape.dims i, ⟨hbelow, ?_, ?_⟩, ?_⟩
    · rw [← isCategory_get_iff hdepth, hpos]
      simpa using hi
    · intro c' _ hless
      rw [← isCategory_get_iff hdepth]
      rw [hpos] at hless
      simpa using hbefore _ hless
    · rw [← View.get_position, hpos]
  · rintro ⟨c, hc, rfl⟩
    refine ⟨position c (strides v.layout.shape.dims), ?_, rfl⟩
    refine List.find?_range_eq_some.mpr ⟨?_, ?_, ?_⟩
    · have := hc.uncategorical
      rw [← isCategory_get_iff hdepth] at this
      simpa using this
    · exact List.mem_range.mpr (position_lt_count hc.below)
    · intro i hi
      have hlt := Nat.lt_trans hi (position_lt_count hc.below)
      have hpos := position_coordinates hlt
      have := hc.first _ (below_coordinates (Nat.zero_lt_of_lt hlt) i) (by rwa [hpos])
      rw [← isCategory_get_iff hdepth, hpos] at this
      simpa using this

/-- A cell with one coordinate more gets a mark exactly from the cell without it. -/
theorem any_hotPosition_iff (hdepth : depth < 2 ^ 53) (haxis : axis ≤ v.layout.shape.dims.length)
    (h : ∀ c, Below c v.layout.shape.dims → v.Categorical depth c) {c : List Nat} {j : Nat}
    (hc : Below c v.layout.shape.dims) (hj : j < depth) :
    ((List.range v.size).any fun i =>
        hotPosition depth (count (v.layout.shape.dims.drop axis)) i
          (toFloat (v.get i)).toUInt64.toNat
          = position (c.insertIdx axis j) (strides (v.layout.shape.dims.insertIdx axis depth)))
      ↔ number? (v.entry c) = some (j : ℚ) := by
  simp only [List.any_eq_true, List.mem_range, decide_eq_true_eq]
  constructor
  · rintro ⟨i, hi, hplace⟩
    have hbelow := below_coordinates (Nat.zero_lt_of_lt hi) i
    obtain ⟨j', hj', hnumber⟩ := h _ hbelow
    have hget : v.get i = v.entry (coordinates v.layout.shape.dims i) := by
      rw [← View.get_position, position_coordinates hi]
    rw [hget, toNat_toFloat (Nat.lt_trans hj' hdepth) hnumber, ← position_coordinates hi,
      ← position_insertIdx hbelow haxis] at hplace
    obtain ⟨rfl, rfl⟩ := position_insertIdx_inj haxis hbelow hj' hc hj hplace
    exact hnumber
  · intro hnumber
    refine ⟨position c (strides v.layout.shape.dims), position_lt_count hc, ?_⟩
    rw [View.get_position, toNat_toFloat (Nat.lt_trans hj hdepth) hnumber,
      position_insertIdx hc haxis]

theorem oneHot_spreads (hdepth : depth < 2 ^ 53) (haxis : axis ≤ v.layout.shape.dims.length)
    {block : Array α}
    (hsize : block.size = Shape.size ⟨v.layout.shape.dims.insertIdx axis depth⟩)
    (h : (oneHot depth axis v block).failure = none) :
    (oneHot depth axis v block).Spreads v depth axis := by
  have hcategorical := (oneHot_failure_eq_none_iff hdepth block).mp h
  have hentry : ∀ c j, Below c v.layout.shape.dims → j < depth →
      (oneHot depth axis v block).block[position (c.insertIdx axis j)
        (strides (v.layout.shape.dims.insertIdx axis depth))]?
        = some (if number? (v.entry c) = some (j : ℚ) then one else zero) := by
    intro c j hc hj
    have hlt := position_lt_count ((below_insertIdx_iff haxis).mpr ⟨c, j, hc, hj, rfl⟩)
    have hin : position (c.insertIdx axis j)
        (strides (v.layout.shape.dims.insertIdx axis depth)) < block.size := hsize ▸ hlt
    have hmark := any_hotPosition_iff hdepth haxis hcategorical hc hj
    rw [oneHot_block h, Array.getElem?_eq_getElem (by rwa [size_tabulate]), getElem_tabulate]
    simp only [hmark]
  refine ⟨h, (size_oneHot ..).trans hsize, hentry, ?_, ?_⟩
  · intro i hi
    rw [size_oneHot, hsize] at hi
    have hbelow := below_coordinates (Nat.zero_lt_of_lt hi) i
    obtain ⟨c, j, hc, hj, heq⟩ := (below_insertIdx_iff haxis).mp hbelow
    exact ⟨c, j, hc, hj, by rw [← heq, position_coordinates hi]⟩
  · intro c hc
    obtain ⟨j, hj, hnumber⟩ := hcategorical c hc
    refine ⟨j, ⟨hj, ?_⟩, ?_⟩
    · rw [hentry c j hc hj, if_pos hnumber]
    · rintro j' ⟨hj', hone⟩
      rw [hentry c j' hc hj', Option.some.injEq] at hone
      by_cases heq : number? (v.entry c) = some (j' : ℚ)
      · rw [hnumber] at heq
        exact_mod_cast (Option.some.inj heq).symm
      · rw [if_neg heq] at hone
        exact absurd hone.symm one_ne_zero

/-- The kernel puts an axis of size `depth` in at any place of the input shape.  It gets to
its end exactly if every element of the view stands for a whole number below `depth`.  Then,
whatever the block held, the cell with `j` put in at the new axis is one if the element is
the number `j` and zero otherwise; these are all cells of the block, and along the new axis
just one of them is one.  Otherwise the error names the first element in row-major order
that stands for no such number, as a 64-bit float: the number of the element itself, unless
that is a 64-bit integer too long for a mantissa. -/
theorem oneHot_spreads_or_rejects (hdepth : depth < 2 ^ 53) (haxis : axis ≤ v.layout.shape.rank)
    {block : Array α}
    (hsize : block.size = Shape.size ⟨v.layout.shape.dims.insertIdx axis depth⟩) :
    (∀ (x : NodeId) (shapeOf : NodeId → Shape), shapeOf x = v.layout.shape →
      (Operation.oneHot x depth axis : Operation α).outputShape shapeOf
        = .ok ⟨v.layout.shape.dims.insertIdx axis depth⟩) ∧
    ((oneHot depth axis v block).failure = none ↔
      ∀ c, Below c v.layout.shape.dims → v.Categorical depth c) ∧
    ((oneHot depth axis v block).failure = none →
      (oneHot depth axis v block).Spreads v depth axis) ∧
    (∀ e, (oneHot depth axis v block).failure = some e ↔
      ∃ c, v.FirstUncategorical depth c ∧
        e = .plain (.notCategory (toFloat (v.entry c)) depth)) ∧
    ∀ c, (Element.kind α = .i64 → ∀ q, number? (v.entry c) = some q → |q| < 2 ^ 53) →
      Rounding.number? (toFloat (v.entry c)).toModel.unpack = number? (v.entry c) := by
  refine ⟨?_, oneHot_failure_eq_none_iff hdepth block, oneHot_spreads hdepth haxis hsize,
    fun _ => oneHot_failure_eq_some_iff hdepth block, fun c => toFloat_eq (v.entry c)⟩
  intro x shapeOf hx
  rw [Operation.oneHot_eq_ok, hx]
  exact ⟨haxis, rfl⟩

end Kernel
end Spread

namespace Kernel

open Element Element.Numeric

/-- Two rows of two, stored column by column. -/
def labels : View UInt8 := ⟨#[2, 0, 1, 2], (Layout.packed .u8 ⟨[2, 2]⟩).transpose [1, 0]⟩

/-- The second element of the first row is one, so of the three new cells in its place the
second gets the mark; below a depth of two the first element is rejected. -/
theorem oneHot_labels :
    (oneHot 3 1 labels (.replicate 12 9)).block[position [0, 1, 1] (strides [2, 3, 2])]? = some 1 ∧
      (oneHot 2 1 labels (.replicate 8 9)).failure
        = some (.plain (.notCategory (toFloat (2 : UInt8)) 2)) := by
  have haxis : 1 ≤ labels.layout.shape.rank := by decide
  have hsize : (Array.replicate 12 9 : Array UInt8).size
      = Shape.size ⟨labels.layout.shape.dims.insertIdx 1 3⟩ := rfl
  have hsize' : (Array.replicate 8 9 : Array UInt8).size
      = Shape.size ⟨labels.layout.shape.dims.insertIdx 1 2⟩ := rfl
  have h := oneHot_spreads_or_rejects (by decide : 3 < 2 ^ 53) haxis hsize
  have h' := oneHot_spreads_or_rejects (by decide : 2 < 2 ^ 53) haxis hsize'
  have hcells : cells [2, 2] = [[0, 0], [0, 1], [1, 0], [1, 1]] := rfl
  have hall : ∀ c ∈ cells [2, 2], labels.Categorical 3 c := by
    rw [hcells]
    simp only [List.forall_mem_cons]
    exact ⟨⟨2, by decide, rfl⟩, ⟨1, by decide, rfl⟩, ⟨0, by decide, rfl⟩, ⟨2, by decide, rfl⟩,
      nofun⟩
  have hspread := h.2.2.1 (h.2.1.mpr fun c hc => hall c (mem_cells.mpr hc))
  have hcell : Below [0, 1] labels.layout.shape.dims := .cons (by decide) (.cons (by decide) .nil)
  refine ⟨hspread.entry_eq [0, 1] 1 hcell (by decide), ?_⟩
  refine (h'.2.2.2.1 _).mpr ⟨[0, 0], ⟨.cons (by decide) (.cons (by decide) .nil), ?_, ?_⟩, rfl⟩
  · rintro ⟨j, hj, hnumber⟩
    have htwo : ((2 : Nat) : ℚ) = j := Option.some.inj hnumber
    exact absurd hj (by rw [← Nat.cast_injective htwo]; decide)
  · intro c' _ hless
    exact absurd hless (Nat.not_lt_zero _)

/-- A 64-bit integer that no 64-bit float stands for. -/
def tooLong : View Int64 := ⟨#[9007199254740993], .packed .i64 ⟨[]⟩⟩

/-- It is the first element that is no category, and named as another number than its own. -/
theorem oneHot_tooLong : ∃ x : Float,
    (oneHot 3 0 tooLong #[0, 0, 0]).failure = some (.plain (.notCategory x 3)) ∧
      Rounding.number? x.toModel.unpack = some 9007199254740992 ∧
      tooLong.FirstUncategorical 3 [] ∧ number? (tooLong.entry []) = some 9007199254740993 := by
  refine ⟨toFloat (9007199254740993 : Int64), rfl, ?_, ⟨.nil, ?_, ?_⟩, rfl⟩
  · have hunpack : (toFloat (9007199254740993 : Int64)).toModel.unpack
      = .finite .positive 4503599627370496 1 (by decide) := rfl
    rw [hunpack, Rounding.number?]
    norm_num [Float.Model.UnpackedFloat.Sign.apply]
  · rintro ⟨j, hj, hnumber⟩
    have hlong : ((9007199254740993 : Nat) : ℚ) = j := Option.some.inj hnumber
    exact absurd hj (by rw [← Nat.cast_injective hlong]; decide)
  · intro c' _ hless
    exact absurd hless (Nat.not_lt_zero _)

end Kernel
end TensorGraph
