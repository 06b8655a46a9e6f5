/-
# Kernels read tensors, not layouts

One statement per kernel: on views of any layout and on an output block with
any contents, it writes what the dense evaluator computes from the elements of
the views in row-major order.  So strides, offsets and what an earlier step or
run left in the block do not matter.

Elementwise kernels are the exception in one respect: an operand may be the
output block itself.  `Operand.Shows` says what both kinds of operand have in
common, and nothing later looks at the difference.
-/
import TensorGraph.Proofs.Evaluation

namespace TensorGraph

open Evaluation RowMajor

variable {α : Type} [Element α]

/-! ## The elements of a view -/

namespace View

theorem nth_gather {v : View α} {i : Nat} (h : i < v.size) : nth v.gather i = v.get i := by
  rw [nth_of_lt (by simpa using h)]
  simp [gather]

theorem gather_eq_tabulate (v : View α) : v.gather = tabulate v.size v.get := rfl

/-- A view of dense elements shows them. -/
theorem gather_dense {shape : Shape} {xs : Array α} (h : xs.size = shape.size) :
    (View.dense shape xs).gather = xs := by
  refine Array.ext (by simpa [View.size, View.dense] using h.symm) fun i hi hi' => ?_
  have hlt : i < shape.size := h ▸ hi'
  have hloc := (Layout.regular_packed (Element.kind α) shape).locate_of_isPacked
    (Layout.isPacked_packed _ shape) (i := i) hlt
  rw [Layout.start_packed, Nat.zero_add] at hloc
  simp [gather, get, View.dense, hloc, hi']

theorem extent_dense {shape : Shape} {xs : Array α} (h : xs.size = shape.size) :
    (View.dense shape xs).layout.extent = (View.dense shape xs).data.size := by
  by_cases hpos : shape.size = 0
  · simp [dense, Layout.extent, hpos, h]
  · have hextent := (Layout.regular_packed (Element.kind α) shape).extent_of_isPacked
      (Layout.isPacked_packed _ shape) hpos
    simp [dense, hextent, h]

/-- The block of a packed view inside its buffer is what the view shows. -/
theorem extract_eq_gather {v : View α} (h : v.layout.Regular) (hp : v.layout.isPacked = true)
    (hfit : v.layout.start + v.layout.size ≤ v.data.size) :
    v.data.extract v.layout.start (v.layout.start + v.layout.size) = v.gather := by
  refine Array.ext ?_ fun i hi hi' => ?_
  · simp only [Array.size_extract, size_gather, View.size]
    omega
  · have hlt : i < v.layout.size := by simpa [View.size] using hi'
    have hin : v.layout.start + i < v.data.size := by omega
    simp [gather, get, h.locate_of_isPacked hp hlt, hin]

/-- Taking a block and taking one element after another give the same array. -/
theorem elements_eq_gather {v : View α} (h : v.layout.Regular)
    (hfit : v.layout.extent ≤ v.data.size) : v.elements = v.gather := by
  rw [elements]
  split
  · rename_i hp
    exact extract_eq_gather h hp (Nat.le_trans (Layout.start_add_size_le_extent h hp) hfit)
  · rfl

/-! ### Readings -/

theorem gather_reshape {data : Array α} {l : Layout} {s : Shape} (h : l.Regular)
    (hp : l.isPacked = true) (hs : l.size = s.size) :
    (⟨data, l.reshape s⟩ : View α).gather = (⟨data, l⟩ : View α).gather := by
  rw [gather_eq_tabulate, gather_eq_tabulate]
  have : (⟨data, l.reshape s⟩ : View α).size = (⟨data, l⟩ : View α).size := hs.symm
  rw [this]
  exact tabulate_congr fun i hi => by
    simp only [get, Layout.locate_reshape h hp hs (hs ▸ hi : i < s.size)]

theorem gather_transpose {data : Array α} {l : Layout} {order : List Nat} (h : l.Regular)
    (hlen : order.length = l.shape.rank)
    (hax : Shape.distinctAxes l.shape.rank order = true) :
    (⟨data, l.transpose order⟩ : View α).gather
      = reorder l.shape.dims order (⟨data, l⟩ : View α).gather := by
  refine tabulate_congr fun i hi => ?_
  rw [nth_gather (reordered_lt hlen hax hi)]
  simp only [get, Layout.locate_transpose h hlen hax hi]

theorem gather_broadcast {data : Array α} {l : Layout} {s : Shape} {axes : List Nat}
    (h : l.Regular) (hs : s.without axes = l.shape) :
    (⟨data, l.broadcast s axes⟩ : View α).gather
      = broadcast s.dims axes (⟨data, l⟩ : View α).gather := by
  rw [broadcast, gather_eq_tabulate]
  refine tabulate_congr fun i hi => ?_
  have hlt : Kernel.keptPosition s.dims (Shape.keptAxes s.dims.length axes) i
      < (⟨data, l⟩ : View α).size := by
    rw [View.size, Layout.size, ← hs]
    exact keptPosition_lt hi axes
  refine Eq.trans ?_ (nth_gather hlt).symm
  simp only [get, Layout.locate_broadcast h hs hi]
  rfl

end View

/-! ## Element by element -/

namespace Operand

/-- The element that the operand supplies at an index, where the block holds its
own, is that of `xs`. -/
def Shows (o : Operand α) (block xs : Array α) : Prop :=
  ∀ (i : Nat) (h : i < block.size), o.read i block[i] = nth xs i

theorem shows_view {v : View α} {block : Array α} (h : block.size = v.size) :
    (view v).Shows block v.gather :=
  fun _ hi => (View.nth_gather (h ▸ hi)).symm

theorem shows_inPlace (block : Array α) : inPlace.Shows block block :=
  fun _ hi => (nth_of_lt hi).symm

end Operand

namespace Kernel

omit [Element α] in
theorem replaceAt_snd (f : Nat → α → Option α) {positions : List Nat} (hnd : positions.Nodup)
    (block : Array α) :
    (replaceAt f positions block).2
      = positions.all fun i => (block[i]?.bind (f i)).isSome := by
  induction positions generalizing block with
  | nil => rfl
  | cons i rest ih =>
      obtain ⟨hi, hrest⟩ := List.nodup_cons.mp hnd
      rw [replaceAt, List.all_cons]
      cases hx : block[i]?.bind (f i) with
      | none => rfl
      | some x =>
          have others : ∀ j ∈ rest, (block.setIfInBounds i x)[j]? = block[j]? := by
            intro j hj
            refine Array.getElem?_setIfInBounds_ne ?_
            rintro rfl
            exact hi hj
          simp only [ih hrest, Option.isSome_some, Bool.true_and]
          rw [Bool.eq_iff_iff, List.all_eq_true, List.all_eq_true]
          exact forall₂_congr fun j hj => by rw [others j hj]

omit [Element α] in
theorem getElem?_replaceAt (f : Nat → α → Option α) {positions : List Nat}
    (hnd : positions.Nodup) (block : Array α) (h : (replaceAt f positions block).2 = true)
    (j : Nat) :
    (replaceAt f positions block).1[j]?
      = if j ∈ positions then block[j]?.bind (f j) else block[j]? := by
  induction positions generalizing block with
  | nil => rfl
  | cons i rest ih =>
      obtain ⟨hi, hrest⟩ := List.nodup_cons.mp hnd
      rw [replaceAt] at h ⊢
      cases hx : block[i]?.bind (f i) with
      | none => simp [hx] at h
      | some x =>
          simp only [hx] at h ⊢
          rw [ih hrest _ h]
          by_cases hj : j = i
          · subst hj
            have inside : j < block.size := by
              by_contra hout
              simp [hout] at hx
            have hx' : f j block[j] = some x := by simpa [inside] using hx
            simp [hi, hx', inside]
          · rw [Array.getElem?_setIfInBounds_ne (Ne.symm hj)]
            simp [hj]

omit [Element α] in
/-- The order of the positions decides how much is written before a stop, and nothing else. -/
theorem replaceAt_perm (f : Nat → α → Option α) {positions positions' : List Nat}
    (hperm : positions.Perm positions') (hnd : positions.Nodup) (block : Array α) :
    (replaceAt f positions block).2 = (replaceAt f positions' block).2 ∧
      ((replaceAt f positions block).2 = true →
        (replaceAt f positions block).1 = (replaceAt f positions' block).1) := by
  have hnd' := hperm.nodup_iff.mp hnd
  have hstops : (replaceAt f positions block).2 = (replaceAt f positions' block).2 := by
    rw [replaceAt_snd f hnd, replaceAt_snd f hnd', Bool.eq_iff_iff, List.all_eq_true,
      List.all_eq_true]
    exact forall_congr' fun i => imp_congr_left hperm.mem_iff
  refine ⟨hstops, fun hdone => Array.ext_getElem? fun j => ?_⟩
  rw [getElem?_replaceAt f hnd block hdone, getElem?_replaceAt f hnd' block (hstops ▸ hdone)]
  exact if_congr hperm.mem_iff rfl rfl

theorem binary_spec (f : BinaryOperator) {lhs rhs : Operand α} {block xs ys : Array α}
    (hl : lhs.Shows block xs) (hr : rhs.Shows block ys) :
    (binary f lhs rhs block).result = Evaluation.binary f block.size xs ys
      ∧ (binary f lhs rhs block).block.size = block.size := by
  have each : ∀ i < block.size,
      block[i]?.bind (fun current => f.value? (lhs.read i current) (rhs.read i current))
        = f.value? (nth xs i) (nth ys i) := by
    intro i hi
    simp [hi, hl i hi, hr i hi]
  have hnd : (List.range block.size).Nodup := List.nodup_range
  have hall := replaceAt_snd
    (fun i current => f.value? (lhs.read i current) (rhs.read i current)) hnd block
  have hget := getElem?_replaceAt
    (fun i current => f.value? (lhs.read i current) (rhs.read i current)) hnd block
  have hsize := size_replaceAt
    (fun i current => f.value? (lhs.read i current) (rhs.read i current))
    (List.range block.size) block
  have hsome : (List.range block.size).all (fun i => (f.value? (nth xs i) (nth ys i)).isSome)
      = (replaceAt (fun i current => f.value? (lhs.read i current) (rhs.read i current))
          (List.range block.size) block).2 := by
    rw [hall, Bool.eq_iff_iff, List.all_eq_true, List.all_eq_true]
    exact forall₂_congr fun i hi => by rw [each i (List.mem_range.mp hi)]
  simp only [binary, Evaluation.binary]
  split
  · rename_i written heq
    rw [heq] at hsome hget hsize
    rw [if_pos hsome]
    have hw : written
        = tabulate block.size fun i => (f.value? (nth xs i) (nth ys i)).getD Element.zero := by
      refine Array.ext (by simpa using hsize) fun i hi hi' => ?_
      have hib : i < block.size := by simpa using hi'
      have hi₂ := hget rfl i
      rw [if_pos (List.mem_range.mpr hib), each i hib] at hi₂
      have hz : some written[i] = f.value? (nth xs i) (nth ys i) := by
        rw [← hi₂]
        exact (Array.getElem?_eq_getElem hi).symm
      simp [← hz]
    exact ⟨congrArg Except.ok hw, hsize⟩
  · rename_i written heq
    rw [heq] at hsome hsize
    rw [if_neg (by simp [hsome])]
    exact ⟨rfl, hsize⟩

theorem unary_spec (f : UnaryOperator) {o : Operand α} {block xs : Array α}
    (h : o.Shows block xs) :
    unary f o block = .complete (Evaluation.unary f block.size xs) := by
  refine congrArg Outcome.complete (Array.ext (by simp [Evaluation.unary]) fun i hi _ => ?_)
  have hib : i < block.size := by simpa using hi
  simp [Evaluation.unary, h i hib]

/-! ## Folds -/

omit [Element α] in
/-- A cell of an array of accumulators sees exactly the steps that go to it. -/
theorem getElem?_foldl_modify (target : Nat → Nat) (step : α → Nat → α) (positions : List Nat)
    (out : Array α) (o : Nat) :
    (positions.foldl (fun out i => out.modify (target i) fun acc => step acc i) out)[o]?
      = out[o]?.map fun x => (positions.filter fun i => target i = o).foldl step x := by
  induction positions generalizing out with
  | nil => simp
  | cons i rest ih =>
      rw [List.foldl_cons, ih, Array.getElem?_modify]
      by_cases h : target i = o
      · simp [h, Function.comp_def]
      · simp [h]

omit [Element α] in
/-- The elements that a pass folds into one position are those of the cells with its
coordinates along the kept axes. -/
theorem map_filter_keptPosition {dims axes : List Nat} {o : Nat}
    (ho : o < count ((Shape.keptAxes dims.length axes).map fun a => dims.getD a 0)) (f : Nat → α) :
    ((List.range (count dims)).filter fun i =>
        keptPosition dims (Shape.keptAxes dims.length axes) i = o).map f
      = ((cells dims).filter fun c => ((Shape.keptAxes dims.length axes).map fun a => c.getD a 0)
          = coordinates ((Shape.keptAxes dims.length axes).map fun a => dims.getD a 0) o).map
        fun c => f (position c (strides dims)) := by
  rw [cells, List.filter_map, List.map_map]
  have hsame : ((List.range (count dims)).filter fun i =>
        keptPosition dims (Shape.keptAxes dims.length axes) i = o)
      = (List.range (count dims)).filter ((fun c => decide
          (((Shape.keptAxes dims.length axes).map fun a => c.getD a 0)
            = coordinates ((Shape.keptAxes dims.length axes).map fun a => dims.getD a 0) o))
          ∘ coordinates dims) := by
    refine List.filter_congr fun i hi => decide_eq_decide.mpr ?_
    have hbelow := below_kept (List.mem_range.mp hi) axes
    constructor
    · rintro rfl
      exact (coordinates_position hbelow).symm
    · intro heq
      rw [keptPosition, heq, position_coordinates ho]
  rw [hsame]
  refine List.map_congr_left fun i hi => ?_
  have hlt := List.mem_range.mp (List.mem_of_mem_filter hi)
  rw [Function.comp_apply, position_coordinates hlt]

theorem reduce_spec (r : Reduction) (axes : List Nat) (v : View α) (block : Array α)
    (hsize : block.size = count ((Shape.keptAxes v.layout.shape.dims.length axes).map fun a =>
      v.layout.shape.dims.getD a 0)) :
    reduce r axes v block = .complete (Evaluation.reduce r v.layout.shape.dims axes v.gather) := by
  refine congrArg Outcome.complete (Array.ext_getElem? fun o => ?_)
  rw [getElem?_foldl_modify (keptPosition v.layout.shape.dims
    (Shape.keptAxes v.layout.shape.dims.length axes)) (fun acc i => r.combine acc (v.get i))]
  have hd : (Evaluation.reduce r v.layout.shape.dims axes v.gather).size = block.size := by
    rw [Evaluation.reduce, size_tabulate, hsize]
  by_cases ho : o < block.size
  · have ho' : o < (Evaluation.reduce r v.layout.shape.dims axes v.gather).size := hd ▸ ho
    rw [Array.getElem?_eq_getElem ho']
    have hfibre := map_filter_keptPosition (hsize ▸ ho) v.get
    have hentries : ∀ c ∈ cells v.layout.shape.dims, entry v.layout.shape.dims v.gather c
        = v.get (position c (strides v.layout.shape.dims)) := fun c hc =>
      View.nth_gather (position_lt_count (mem_cells.mp hc))
    simp only [Evaluation.reduce, getElem_tabulate, Array.getElem?_replicate, ho, if_true,
      Option.map_some, Option.some.injEq]
    rw [List.map_congr_left fun c hc => hentries c (List.mem_of_mem_filter hc), ← hfibre,
      Reduction.fold, List.foldl_map]
    rfl
  · have hout : (Evaluation.reduce r v.layout.shape.dims axes v.gather).size ≤ o := by omega
    rw [Array.getElem?_eq_none hout]
    simp [ho]

theorem contract_spec {contracted : Nat} {lhs rhs : View α} {block : Array α}
    (hcommon : lhs.layout.shape.dims.drop (lhs.layout.shape.dims.length - contracted)
      = rhs.layout.shape.dims.take contracted)
    (hsize : block.size
      = count (lhs.layout.shape.dims.take (lhs.layout.shape.dims.length - contracted)
        ++ rhs.layout.shape.dims.drop contracted)) :
    contract contracted lhs rhs block
      = .complete (Evaluation.contract contracted lhs.layout.shape.dims rhs.layout.shape.dims
          lhs.gather rhs.gather) := by
  rw [count_append] at hsize
  have hlsize : lhs.size
      = count (lhs.layout.shape.dims.take (lhs.layout.shape.dims.length - contracted))
      * count (lhs.layout.shape.dims.drop (lhs.layout.shape.dims.length - contracted)) :=
    (count_take_mul_drop _ _).symm
  have hrsize : rhs.size
      = count (lhs.layout.shape.dims.drop (lhs.layout.shape.dims.length - contracted))
      * count (rhs.layout.shape.dims.drop contracted) := by
    rw [hcommon]
    exact (count_take_mul_drop _ _).symm
  refine congrArg Outcome.complete (Array.ext ?_ fun o ho _ => ?_)
  · simpa [Evaluation.contract] using hsize
  · have hob : o < count (lhs.layout.shape.dims.take (lhs.layout.shape.dims.length - contracted))
        * count (rhs.layout.shape.dims.drop contracted) := by
      simpa [hsize] using ho
    have hcols : 0 < count (rhs.layout.shape.dims.drop contracted) :=
      Nat.pos_of_ne_zero fun h => by simp [h] at hob
    have hrow := Nat.div_lt_of_lt_mul (Nat.mul_comm .. ▸ hob)
    have hcol := Nat.mod_lt o hcols
    simp only [Array.getElem_mapIdx, Evaluation.contract, getElem_tabulate, innerProduct]
    refine List.foldl_ext _ _ _ fun acc k hk => ?_
    have hk' := List.mem_range.mp hk
    rw [View.nth_gather (hlsize ▸ flat_lt hrow hk'), View.nth_gather (hrsize ▸ flat_lt hk' hcol)]

/-- Along an axis, `placements` counts the multiples of the stride at which a window fits. -/
theorem lt_placements_iff {size window stride p : Nat}
    (h : Operation.windowFits size window stride = true) :
    p < Operation.placements size window stride ↔ p * stride + window ≤ size := by
  simp only [Operation.windowFits, Bool.and_eq_true, bne_iff_ne, decide_eq_true_eq] at h
  obtain ⟨⟨_, hle⟩, hstride⟩ := h
  rw [Operation.placements, Nat.lt_succ_iff,
    Nat.le_div_iff_mul_le (Nat.pos_of_ne_zero hstride), Nat.le_sub_iff_add_le hle]

theorem length_pooledSizes : ∀ {sizes windows strides : List Nat},
    windows.length = sizes.length → strides.length = sizes.length →
    (Operation.pooledSizes sizes windows strides).length = sizes.length
  | [], _, _, _, _ => rfl
  | _ :: _, [], _, h, _ => nomatch h
  | _ :: _, _ :: _, [], _, h => nomatch h
  | _ :: _, _ :: _, _ :: _, hw, hs =>
      congrArg Nat.succ (length_pooledSizes (Nat.succ.inj hw) (Nat.succ.inj hs))

theorem below_windowCoordinates : ∀ {sizes windows strides os ws : List Nat},
    windows.length = sizes.length → strides.length = sizes.length →
    Operation.windowsFit sizes windows strides = true →
    Below os (Operation.pooledSizes sizes windows strides) → Below ws windows →
    Below (windowCoordinates os strides ws) sizes
  | [], [], [], _, _, _, _, _, ho, _ => by
      cases ho
      exact .nil
  | size :: sizes, window :: windows, stride :: strides, _, _, hw, hs, hfit, ho, hb => by
      cases ho with
      | @cons o _ os _ hlt hos =>
          cases hb with
          | @cons w _ ws _ hwlt hws =>
              obtain ⟨hfits, hrest⟩ := Bool.and_eq_true_iff.mp hfit
              have hstart := (lt_placements_iff hfits).mp hlt
              refine .cons (by omega) ?_
              exact below_windowCoordinates (Nat.succ.inj hw) (Nat.succ.inj hs) hrest hos hws

/-- Every place of every window is a cell of the input. -/
theorem below_window {dims windows strides o w : List Nat} (hrank : 2 ≤ dims.length)
    (hw : windows.length = (dims.drop 2).length) (hs : strides.length = (dims.drop 2).length)
    (hfit : Operation.windowsFit (dims.drop 2) windows strides = true)
    (ho : Below o (dims.take 2 ++ Operation.pooledSizes (dims.drop 2) windows strides))
    (hb : Below w windows) :
    Below (o.take 2 ++ windowCoordinates (o.drop 2) strides w) dims := by
  have htake : (dims.take 2).length = 2 := List.length_take_of_le hrank
  have hout := List.forall₂_take 2 ho
  have hin := List.forall₂_drop 2 ho
  rw [List.take_left' htake] at hout
  rw [List.drop_left' htake] at hin
  have hall : Below _ (dims.take 2 ++ dims.drop 2) :=
    List.rel_append hout (below_windowCoordinates hw hs hfit hin hb)
  rwa [List.take_append_drop] at hall

/-- Every element of every window lies inside the input. -/
theorem windowElement_lt {dims windows strides : List Nat} {o w : Nat} (hrank : 2 ≤ dims.length)
    (hw : windows.length = (dims.drop 2).length) (hs : strides.length = (dims.drop 2).length)
    (hfit : Operation.windowsFit (dims.drop 2) windows strides = true)
    (ho : o < count (dims.take 2 ++ Operation.pooledSizes (dims.drop 2) windows strides))
    (hlt : w < count windows) :
    windowElement dims windows strides
      (coordinates (dims.take 2 ++ Operation.pooledSizes (dims.drop 2) windows strides) o) w
      < count dims :=
  position_lt_count (below_window hrank hw hs hfit (below_coordinates (Nat.zero_lt_of_lt ho) o)
    (below_coordinates (Nat.zero_lt_of_lt hlt) w))

theorem windowCoordinates_eq_zipWith : ∀ os strides ws : List Nat,
    windowCoordinates os strides ws
      = List.zipWith (· + ·) (List.zipWith (· * ·) os strides) ws
  | o :: os, s :: ss, w :: ws => congrArg _ (windowCoordinates_eq_zipWith os ss ws)
  | [], _, _ => by simp [windowCoordinates]
  | _ :: _, [], _ => by simp [windowCoordinates]
  | _ :: _, _ :: _, [] => by simp [windowCoordinates]

theorem windowElement_position {dims windows strides o w : List Nat} (h : Below w windows) :
    windowElement dims windows strides o (position w (RowMajor.strides windows))
      = position (windowCell strides o w) (RowMajor.strides dims) := by
  rw [windowElement, coordinates_position h, windowCell, windowCoordinates_eq_zipWith]

/-- What the kernel reads of a window. -/
theorem map_get_windowElement (v : View α) (windows strides o : List Nat) :
    ((List.range (count windows)).map fun w =>
        v.get (windowElement v.layout.shape.dims windows strides o w))
      = (cells windows).map fun w => v.entry (windowCell strides o w) := by
  rw [← map_position_cells windows, List.map_map]
  refine List.map_congr_left fun w hw => ?_
  rw [Function.comp_apply, windowElement_position (mem_cells.mp hw), View.get_position]

theorem maxPool_spec {windows strides : List Nat} {v : View α} {output : Layout}
    {block : Array α} (hrank : 2 ≤ v.layout.shape.dims.length)
    (hw : windows.length = (v.layout.shape.dims.drop 2).length)
    (hs : strides.length = (v.layout.shape.dims.drop 2).length)
    (hfit : Operation.windowsFit (v.layout.shape.dims.drop 2) windows strides = true)
    (hout : output.shape.dims = v.layout.shape.dims.take 2
      ++ Operation.pooledSizes (v.layout.shape.dims.drop 2) windows strides)
    (hsize : block.size = output.size) :
    maxPool windows strides v output block
      = .complete (Evaluation.maxPool windows strides v.layout.shape.dims output.shape.dims
          v.gather) := by
  refine congrArg Outcome.complete (Array.ext ?_ fun o ho _ => ?_)
  · rw [Evaluation.maxPool, size_tabulate, Array.size_mapIdx, hsize]
    rfl
  · have hob : o < count output.shape.dims := by
      have : o < output.size := by simpa [hsize] using ho
      exact this
    simp only [Array.getElem_mapIdx, Evaluation.maxPool, getElem_tabulate]
    rw [map_get_windowElement]
    refine congrArg _ (List.map_congr_left fun w hw' => ?_)
    have hbelow := below_coordinates (Nat.zero_lt_of_lt hob) o
    rw [hout] at hbelow ⊢
    have hcell := below_window hrank hw hs hfit hbelow (mem_cells.mp hw')
    rw [windowCoordinates_eq_zipWith] at hcell
    exact (View.nth_gather (position_lt_count hcell)).symm

/-! ## Categories -/

/-- The marks that are made, and the first element that cannot make one. -/
theorem markCategories_spec (depth inner : Nat) (v : View α) {x : Nat → α} {positions : List Nat}
    (hx : ∀ i ∈ positions, v.get i = x i) (block : Array α) :
    (markCategories depth inner v positions block).result =
      match positions.find? fun i => !isCategory depth (Element.toFloat (x i)) with
      | some i => .error (.plain (.notCategory (Element.toFloat (x i)) depth))
      | none => .ok (tabulate block.size fun o =>
          if positions.any fun i =>
            hotPosition depth inner i (Element.toFloat (x i)).toUInt64.toNat = o
          then Element.one else nth block o) := by
  induction positions generalizing block with
  | nil =>
      change Except.ok block = Except.ok _
      refine congrArg Except.ok (Array.ext (by simp) fun i hi _ => ?_)
      simp [nth_of_lt hi]
  | cons i rest ih =>
      obtain ⟨hi, hrest⟩ := List.forall_mem_cons.mp hx
      rw [markCategories, List.find?_cons, hi]
      cases hcategory : isCategory depth (Element.toFloat (x i)) with
      | false => rfl
      | true =>
          rw [if_pos rfl, ih hrest]
          simp only [Bool.not_true]
          cases rest.find? fun i => !isCategory depth (Element.toFloat (x i)) with
          | some j => rfl
          | none =>
              simp only [Array.size_setIfInBounds, List.any_cons]
              refine congrArg Except.ok (tabulate_congr fun o ho => ?_)
              by_cases hplace : hotPosition depth inner i (Element.toFloat (x i)).toUInt64.toNat = o
              · simp [nth, hplace, ho]
              · simp [nth, hplace, ho]

theorem size_markCategories (depth inner : Nat) (v : View α) (positions : List Nat)
    (block : Array α) : (markCategories depth inner v positions block).block.size = block.size := by
  induction positions generalizing block with
  | nil => rfl
  | cons i rest ih =>
      simp only [markCategories]
      split
      · rw [ih, Array.size_setIfInBounds]
      · rfl

theorem nth_replicate (n i : Nat) :
    nth (Array.replicate n Element.zero : Array α) i = Element.zero := by
  simp only [nth, Array.getD_eq_getD_getElem?, Array.getElem?_replicate]
  split
  · rfl
  · rfl

theorem oneHot_spec {depth axis : Nat} {v : View α} {block : Array α}
    (haxis : axis ≤ v.layout.shape.dims.length)
    (hsize : block.size = count (v.layout.shape.dims.insertIdx axis depth)) :
    (oneHot depth axis v block).result
      = Evaluation.oneHot depth axis v.layout.shape.dims v.gather := by
  have hget : ∀ i ∈ List.range v.size, v.get i = nth v.gather i := fun i hi =>
    (View.nth_gather (List.mem_range.mp hi)).symm
  have hcells : List.range v.size
      = (cells v.layout.shape.dims).map fun c => position c (strides v.layout.shape.dims) :=
    (map_position_cells _).symm
  have hjudge : (fun i => !isCategory depth (Element.toFloat (nth v.gather i)))
        ∘ (fun c => position c (strides v.layout.shape.dims))
      = fun c => !isCategory depth (Element.toFloat (entry v.layout.shape.dims v.gather c)) := rfl
  rw [oneHot, markCategories_spec _ _ _ hget, hcells, List.find?_map, hjudge, Evaluation.oneHot]
  simp only [Array.size_replicate, nth_replicate, hsize, List.any_map]
  cases (cells v.layout.shape.dims).find? fun c =>
      !isCategory depth (Element.toFloat (entry v.layout.shape.dims v.gather c)) with
  | some c => rfl
  | none =>
      refine congrArg Except.ok (tabulate_congr fun o _ => if_congr ?_ rfl rfl)
      rw [List.any_eq_true, List.any_eq_true]
      refine exists_congr fun c => and_congr_right fun hc => ?_
      rw [Function.comp_apply, position_insertIdx (mem_cells.mp hc) haxis]
      rfl

theorem size_oneHot (depth axis : Nat) (v : View α) (block : Array α) :
    (oneHot depth axis v block).block.size = block.size := by
  rw [oneHot, size_markCategories, Array.size_replicate]

end Kernel
end TensorGraph
