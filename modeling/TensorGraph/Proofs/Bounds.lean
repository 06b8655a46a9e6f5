/-
# Kernels stay inside their blocks

On views that lie inside their buffers, each kernel of the strict program does
what the kernel itself does, so that none of its reads and writes goes astray.
What a kernel needs besides depends on its index formula:

| kernel | what else |
| :-- | :-- |
| element by element | operands with as many elements as the block |
| reduction | a block with the sizes that are kept |
| contraction | common sizes, and at least one column |
| one-hot | a block with the new axis; a category is below its size (`isCategory_lt`) |
| max pooling | windows that fit |
| literal | one value, or one for each element |
-/
import TensorGraph.Proofs.Kernels
import TensorGraph.Proofs.Rounding
import TensorGraph.Proofs.Strict

namespace TensorGraph

open RowMajor

variable {α β γ : Type}

/-! ## Loops that get to the end -/

theorem List.mapM_eq_some {f : β → Option γ} {g : β → γ} {l : List β}
    (h : ∀ x ∈ l, f x = some (g x)) : l.mapM f = some (l.map g) := by
  induction l with
  | nil => rfl
  | cons x rest ih =>
      obtain ⟨hx, hrest⟩ := List.forall_mem_cons.mp h
      simp [List.mapM_cons, hx, ih hrest]

/-- The states of the one loop are those of the other, in the form `e`. -/
theorem List.foldlM_eq_some {σ : Type} (e : σ → β) (P : σ → Prop) {f : β → γ → Option β}
    {g : σ → γ → σ} {l : List γ}
    (h : ∀ acc, P acc → ∀ x ∈ l, f (e acc) x = some (e (g acc x)) ∧ P (g acc x)) {acc : σ}
    (hacc : P acc) : l.foldlM f (e acc) = some (e (l.foldl g acc)) ∧ P (l.foldl g acc) := by
  induction l generalizing acc with
  | nil => exact ⟨rfl, hacc⟩
  | cons x rest ih =>
      obtain ⟨hx, hnext⟩ := h acc hacc x List.mem_cons_self
      rw [List.foldlM_cons, hx]
      exact ih (fun acc hacc y hy => h acc hacc y (List.mem_cons_of_mem _ hy)) hnext

theorem Array.ofFnM_eq_some {n : Nat} {f : Fin n → Option β} {g : Fin n → β}
    (h : ∀ i, f i = some (g i)) : Array.ofFnM f = some (Array.ofFn g) := by
  rw [funext h]
  exact Array.ofFnM_pure

/-- An array made position by position from the elements of another one. -/
theorem Array.ofFn_eq_mapIdx (xs : Array β) (g : Nat → β → γ) :
    (Array.ofFn fun i : Fin xs.size => g i (getElem xs i.val i.isLt)) = xs.mapIdx g :=
  Array.ext (by simp) fun i _ _ => by simp

theorem Option.bind_of_eq_some {x : Option β} {b : β} (h : x = some b) (f : β → Option γ) :
    (x >>= f) = f b := by
  rw [h]
  rfl

theorem guard_eq_some {p : Prop} [Decidable p] (h : p) : (guard p : Option Unit) = some () := by
  simp [guard, h]

/-! ## Views -/

theorem block?_eq {xs : Array α} {start count : Nat} (h : start + count ≤ xs.size) :
    block? xs start count = some (xs.extract start (start + count)) :=
  if_pos h

theorem RowMajor.coordinates?_eq {dims : List Nat} (h : 0 < count dims) (i : Nat) :
    coordinates? dims i = some (coordinates dims i) :=
  if_neg fun hzero => Nat.lt_irrefl 0 (count_pos_iff.mp h 0 hzero)

/-- The view lies inside its buffer. -/
structure View.Whole (v : View α) : Prop where
  regular : v.layout.Regular
  extent_le : v.layout.extent ≤ v.data.size

/-- The operand supplies one element for each of `n` positions. -/
def Operand.Supplies (o : Operand α) (n : Nat) : Prop :=
  ∀ v, o = .view v → v.Whole ∧ v.size = n

variable [Element α]

theorem View.Whole.get?_eq {v : View α} (h : v.Whole) {i : Nat} (hi : i < v.size) :
    v.get? i = some (v.get i) := by
  have hcount : 0 < count v.layout.shape.dims := Nat.zero_lt_of_lt hi
  have hin : v.layout.locate i < v.data.size :=
    Nat.lt_of_lt_of_le (h.regular.locate_lt_extent hi) h.extent_le
  rw [View.get?, View.get, h.regular.strided, coordinates?_eq hcount, Option.bind_eq_bind,
    Option.bind_some, ← h.regular.locate]
  simp [hin]

theorem View.Whole.take?_eq {v : View α} (h : v.Whole) : v.take? v.size = some v.elements := by
  rw [View.take?, View.elements]
  split
  · rename_i hp
    exact block?_eq (Nat.le_trans (Layout.start_add_size_le_extent h.regular hp) h.extent_le)
  · exact Array.ofFnM_eq_some fun i => h.get?_eq i.isLt

theorem Operand.Supplies.read?_eq {o : Operand α} {n : Nat} (h : o.Supplies n) {i : Nat}
    (hi : i < n) (current : α) : o.read? i current = some (o.read i current) := by
  cases o with
  | inPlace => rfl
  | view v =>
      obtain ⟨hwhole, rfl⟩ := h v rfl
      exact hwhole.get?_eq hi

namespace Kernel

/-! ## Element by element -/

omit [Element α] in
theorem replaceAt?_eq {f? : Nat → α → Option (Option α)} {f : Nat → α → Option α}
    {positions : List Nat} {block : Array α}
    (h : ∀ i ∈ positions, i < block.size ∧ ∀ x, f? i x = some (f i x)) :
    replaceAt? f? positions block = some (replaceAt f positions block) := by
  induction positions generalizing block with
  | nil => rfl
  | cons i rest ih =>
      obtain ⟨⟨hi, hf⟩, hrest⟩ := List.forall_mem_cons.mp h
      rw [replaceAt?, replaceAt, Array.getElem?_eq_getElem hi]
      simp only [Option.bind_eq_bind, Option.bind_some, hf]
      cases f i block[i] with
      | none => rfl
      | some x => exact ih fun j hj => by simpa using hrest j hj

section Elementwise

variable {lhs rhs : Operand α} {block : Array α}

theorem binary?_eq (operator : BinaryOperator) (hl : lhs.Supplies block.size)
    (hr : rhs.Supplies block.size) :
    binary? operator lhs rhs block = some (binary operator lhs rhs block) := by
  refine (Option.bind_of_eq_some (replaceAt?_eq (f := fun i current =>
    operator.value? (lhs.read i current) (rhs.read i current)) fun i hi => ?_) _).trans ?_
  · have hi := List.mem_range.mp hi
    exact ⟨hi, fun x => by simp [hl.read?_eq hi, hr.read?_eq hi]⟩
  · rw [binary]
    obtain ⟨written, complete⟩ := replaceAt
      (fun i current => operator.value? (lhs.read i current) (rhs.read i current))
      (List.range block.size) block
    cases complete <;> rfl

theorem unary?_eq (operator : UnaryOperator) (h : lhs.Supplies block.size) :
    unary? operator lhs block = some (unary operator lhs block) := by
  refine (Option.bind_of_eq_some (Array.ofFnM_eq_some (g := fun i : Fin block.size =>
    operator.value (lhs.read i block[i])) fun i => ?_) _).trans ?_
  · simp [h.read?_eq i.isLt]
  · exact congrArg (fun xs => some (Outcome.complete xs))
      (Array.ofFn_eq_mapIdx block fun i x => operator.value (lhs.read i x))

end Elementwise

/-! ## Reduction -/

omit [Element α] in
theorem keptPosition?_eq {dims : List Nat} {i : Nat} (hi : i < count dims) (axes : List Nat) :
    keptPosition? dims (Shape.keptAxes dims.length axes) i
      = some (keptPosition dims (Shape.keptAxes dims.length axes) i) := by
  have hget : ∀ xs : List Nat, xs.length = dims.length →
      ∀ a ∈ Shape.keptAxes dims.length axes, xs[a]? = some (xs.getD a 0) := by
    intro xs hlen a ha
    have : a < xs.length := hlen ▸ (mem_keptAxes.mp ha).1
    simp [this]
  rw [keptPosition?, coordinates?_eq (Nat.zero_lt_of_lt hi)]
  simp only [Option.bind_eq_bind, Option.bind_some,
    List.mapM_eq_some (hget (coordinates dims i) (length_coordinates dims i)),
    List.mapM_eq_some (hget dims rfl)]
  rfl

theorem reduce?_eq (r : Reduction) (axes : List Nat) {v : View α} (h : v.Whole) {block : Array α}
    (hsize : block.size = (v.layout.shape.without axes).size) :
    reduce? r axes v block = some (reduce r axes v block) := by
  -- the block keeps its size, so that every element finds its accumulator
  refine Option.bind_of_eq_some (List.foldlM_eq_some id (fun out => out.size = block.size)
    (g := fun (out : Array α) i => out.modify (keptPosition v.layout.shape.dims
      (Shape.keptAxes v.layout.shape.dims.length axes) i) fun acc => r.combine acc (v.get i))
    (fun out hout i hi => ?_) (by simp)).1 _
  have hi : i < count v.layout.shape.dims := List.mem_range.mp hi
  have ho : keptPosition v.layout.shape.dims
      (Shape.keptAxes v.layout.shape.dims.length axes) i < out.size := by
    rw [hout, hsize]
    exact keptPosition_lt hi axes
  refine ⟨?_, by rw [Array.size_modify, hout]⟩
  simp only [id_eq, keptPosition?_eq hi axes, h.get?_eq hi, Option.bind_eq_bind, Option.bind_some,
    Array.getElem?_eq_getElem ho, Option.some.injEq]
  refine Array.ext (by simp) fun j _ hj => ?_
  rw [Array.getElem_setIfInBounds, Array.getElem_modify]
  split
  · rename_i he
    subst he
    rfl
  · rfl

/-! ## Contraction -/

theorem contract?_eq {contracted : Nat} {lhs rhs : View α} (hl : lhs.Whole) (hr : rhs.Whole)
    {block : Array α} (hleft : contracted ≤ lhs.layout.shape.dims.length)
    (hright : contracted ≤ rhs.layout.shape.dims.length)
    (hcommon : lhs.layout.shape.dims.drop (lhs.layout.shape.dims.length - contracted)
      = rhs.layout.shape.dims.take contracted)
    (hsize : block.size
      = count (lhs.layout.shape.dims.take (lhs.layout.shape.dims.length - contracted)
        ++ rhs.layout.shape.dims.drop contracted)) (hpos : block.size ≠ 0) :
    contract? contracted lhs rhs block = some (contract contracted lhs rhs block) := by
  have hlsize : lhs.size
      = count (lhs.layout.shape.dims.take (lhs.layout.shape.dims.length - contracted))
      * count (lhs.layout.shape.dims.drop (lhs.layout.shape.dims.length - contracted)) :=
    (count_take_mul_drop _ _).symm
  have hrsize : rhs.size
      = count (lhs.layout.shape.dims.drop (lhs.layout.shape.dims.length - contracted))
      * count (rhs.layout.shape.dims.drop contracted) := by
    rw [hcommon]
    exact (count_take_mul_drop _ _).symm
  rw [count_append] at hsize
  have hcolumns : count (rhs.layout.shape.dims.drop contracted) ≠ 0 := by
    intro h
    rw [h, Nat.mul_zero] at hsize
    exact hpos hsize
  refine (Option.bind_of_eq_some (guard_eq_some ⟨hleft, hright⟩) _).trans ?_
  refine (Option.bind_of_eq_some (guard_eq_some hcolumns) _).trans ?_
  refine (Option.bind_of_eq_some (Array.ofFnM_eq_some (g := fun o : Fin block.size =>
    innerProduct lhs rhs
      (count (lhs.layout.shape.dims.drop (lhs.layout.shape.dims.length - contracted)))
      (count (rhs.layout.shape.dims.drop contracted))
      (o / count (rhs.layout.shape.dims.drop contracted))
      (o % count (rhs.layout.shape.dims.drop contracted))) fun o => ?_) _).trans ?_
  · have ho := Nat.lt_of_lt_of_eq o.isLt hsize
    have hrow := Nat.div_lt_of_lt_mul (Nat.mul_comm .. ▸ ho)
    have hcol := Nat.mod_lt o.val (Nat.pos_of_ne_zero hcolumns)
    refine (List.foldlM_eq_some id (fun _ => True) (fun acc _ k hk => ⟨?_, trivial⟩) trivial).1
    have hk := List.mem_range.mp hk
    simp [hl.get?_eq (hlsize ▸ flat_lt hrow hk), hr.get?_eq (hrsize ▸ flat_lt hk hcol)]
  · exact congrArg (fun xs => some (Outcome.complete xs)) (Array.ofFn_eq_mapIdx block fun o _ =>
      innerProduct lhs rhs _ _ (o / _) (o % _))

/-! ## Categories -/

omit [Element α] in
theorem count_insertIdx {dims : List Nat} {axis : Nat} (h : axis ≤ dims.length) (depth : Nat) :
    count (dims.insertIdx axis depth) = depth * count dims := by
  induction dims generalizing axis with
  | nil =>
      obtain rfl : axis = 0 := Nat.le_zero.mp h
      rfl
  | cons d ds ih =>
      cases axis with
      | zero => rfl
      | succ axis =>
          rw [List.insertIdx_succ_cons, count_cons, ih (Nat.le_of_succ_le_succ h), count_cons,
            Nat.mul_left_comm]

omit [Element α] in
/-- The mark of an element lies inside the block. -/
theorem hotPosition_lt {dims : List Nat} {depth axis i c : Nat} (hi : i < count dims)
    (hc : c < depth) : hotPosition depth (count (dims.drop axis)) i c < depth * count dims := by
  rw [← count_take_mul_drop dims axis] at hi ⊢
  have hinner : 0 < count (dims.drop axis) := Nat.pos_of_ne_zero fun h => by simp [h] at hi
  have houter := Nat.div_lt_of_lt_mul (Nat.mul_comm .. ▸ hi)
  have hlt := flat_lt (flat_lt houter hc) (Nat.mod_lt i hinner)
  rwa [Nat.mul_comm (count (dims.take axis)) depth, Nat.mul_assoc] at hlt

theorem markCategories?_eq {depth inner : Nat} {v : View α} (h : v.Whole) {positions : List Nat}
    {block : Array α} (hinner : ∀ i ∈ positions, i < v.size ∧ inner ≠ 0 ∧
      ∀ c < depth, hotPosition depth inner i c < block.size) :
    markCategories? depth inner v positions block
      = some (markCategories depth inner v positions block) := by
  induction positions generalizing block with
  | nil => rfl
  | cons i rest ih =>
      obtain ⟨⟨hi, hne, hlt⟩, hrest⟩ := List.forall_mem_cons.mp hinner
      rw [markCategories?, markCategories, h.get?_eq hi]
      simp only [Option.bind_eq_bind, Option.bind_some]
      cases hcategory : isCategory depth (Element.toFloat (v.get i)) with
      | false => rfl
      | true =>
          simp only [if_true, guard_eq_some hne, guard_eq_some (hlt _ (isCategory_lt hcategory)),
            Option.bind_some]
          exact ih fun j hj => by simpa using hrest j hj

theorem oneHot?_eq {depth axis : Nat} {v : View α} (h : v.Whole) {block : Array α}
    (haxis : axis ≤ v.layout.shape.dims.length)
    (hsize : block.size = count (v.layout.shape.dims.insertIdx axis depth)) :
    oneHot? depth axis v block = some (oneHot depth axis v block) := by
  rw [count_insertIdx haxis] at hsize
  rw [oneHot?, oneHot]
  simp only [guard_eq_some haxis, Option.bind_eq_bind, Option.bind_some]
  refine markCategories?_eq h fun i hi => ?_
  have hi : i < count v.layout.shape.dims := List.mem_range.mp hi
  refine ⟨hi, fun hzero => ?_, fun c hc => ?_⟩
  · have hsplit := count_take_mul_drop v.layout.shape.dims axis
    rw [hzero, Nat.mul_zero] at hsplit
    omega
  · rw [Array.size_replicate, hsize]
    exact hotPosition_lt hi hc

/-! ## Windows -/

theorem windowElement?_eq {dims windows strides : List Nat} {o w : Nat} (hrank : 2 ≤ dims.length)
    (hw : windows.length = (dims.drop 2).length) (hs : strides.length = (dims.drop 2).length)
    (hlt : w < count windows) :
    windowElement? dims windows strides (coordinates
        (dims.take 2 ++ Operation.pooledSizes (dims.drop 2) windows strides) o) w
      = some (windowElement dims windows strides (coordinates
        (dims.take 2 ++ Operation.pooledSizes (dims.drop 2) windows strides) o) w) := by
  refine (Option.bind_of_eq_some (coordinates?_eq (Nat.zero_lt_of_lt hlt) w) _).trans ?_
  refine Option.bind_of_eq_some (guard_eq_some ?_) _
  simp only [length_coordinates, List.length_append, length_pooledSizes hw hs, hw, hs,
    List.length_take, List.length_drop]
  omega

theorem maxPool?_eq {windows strides : List Nat} {v : View α} (h : v.Whole) {output : Layout}
    {block : Array α} (hrank : 2 ≤ v.layout.shape.dims.length)
    (hw : windows.length = (v.layout.shape.dims.drop 2).length)
    (hs : strides.length = (v.layout.shape.dims.drop 2).length)
    (hfit : Operation.windowsFit (v.layout.shape.dims.drop 2) windows strides = true)
    (hout : output.shape.dims = v.layout.shape.dims.take 2
      ++ Operation.pooledSizes (v.layout.shape.dims.drop 2) windows strides)
    (hsize : block.size = output.size) :
    maxPool? windows strides v output block = some (maxPool windows strides v output block) := by
  refine (Option.bind_of_eq_some (Array.ofFnM_eq_some (g := fun o : Fin block.size =>
    Reduction.max.fold ((List.range (count windows)).map fun w =>
      v.get (windowElement v.layout.shape.dims windows strides
        (coordinates output.shape.dims o) w))) fun o => ?_) _).trans ?_
  · have ho : o.val < count output.shape.dims := Nat.lt_of_lt_of_eq o.isLt hsize
    refine (Option.bind_of_eq_some (coordinates?_eq (Nat.zero_lt_of_lt ho) _) _).trans ?_
    have houter : 2 ≤ (coordinates output.shape.dims o).length := by
      rw [length_coordinates, hout, List.length_append, List.length_take]
      omega
    refine (Option.bind_of_eq_some (guard_eq_some ⟨houter, hrank⟩) _).trans ?_
    refine Option.bind_of_eq_some (List.mapM_eq_some (g := fun w => v.get (windowElement
      v.layout.shape.dims windows strides (coordinates output.shape.dims o) w)) fun w hw' => ?_) _
    have hw' := List.mem_range.mp hw'
    rw [hout] at ho ⊢
    refine (Option.bind_of_eq_some (windowElement?_eq hrank hw hs hw') _).trans ?_
    exact h.get?_eq (windowElement_lt hrank hw hs hfit ho hw')
  · exact congrArg (fun xs => some (Outcome.complete xs)) (Array.ofFn_eq_mapIdx block fun o _ =>
      Reduction.max.fold ((List.range (count windows)).map fun w =>
        v.get (windowElement v.layout.shape.dims windows strides
          (coordinates output.shape.dims o) w)))

/-! ## Literals -/

omit [Element α] in
theorem literal?_eq {values block : Array α} (h : values.size = block.size ∨ values.size = 1) :
    literal? values block = some (literal values block) := by
  unfold literal? literal
  match hv : values.toList with
  | [_] => rfl
  | [] | _ :: _ :: _ =>
      refine if_pos (h.resolve_right fun hone => ?_)
      simp [← Array.length_toList, hv] at hone

end Kernel

end TensorGraph
