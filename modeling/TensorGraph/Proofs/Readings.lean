/-
# Chains of readings

A value without a step of its own lies in the buffer of another one, which it
reads through a chain of reshapes, transpositions and repetitions.  What such a
chain means is said of tensors alone, without layouts:

| reading | shows in the cell `c` |
| :-- | :-- |
| `reshape shape` | the cell with the same row-major number |
| `transpose order` | the cell whose coordinate `order[k]` is the `k`-th of `c` |
| `broadcast shape axes` | the cell left of `c` without the coordinates along `axes` |

`shown` puts these meanings together, for tensors with elements of any type.
The layout that the chain makes of a packed one leads to exactly that element
(`Chain.locate_final`): one reading at a time, `Legal.locate`, and along the chain
by induction.
-/
import TensorGraph.Element.Integer
import TensorGraph.Proofs.Cells
import TensorGraph.Proofs.Graphs

namespace TensorGraph

open RowMajor

/-- One way of reading a tensor anew. -/
inductive Reading where
  | reshape (shape : Shape)
  /-- Axis `k` of the result is axis `order[k]` of the input. -/
  | transpose (order : List Nat)
  /-- The input repeated along the listed axes of `shape`. -/
  | broadcast (shape : Shape) (axes : List Nat)

namespace Reading

/-! ## What a chain means -/

/-- The sizes of the result. -/
def sizes (dims : List Nat) : Reading → List Nat
  | reshape shape => shape.dims
  | transpose order => order.map fun a => dims.getD a 0
  | broadcast shape _ => shape.dims

/-- The cell of the input that the result shows in its cell `c`. -/
def source (dims c : List Nat) : Reading → List Nat
  | reshape shape => coordinates dims (position c (strides shape.dims))
  | transpose order => (List.range dims.length).map fun a => c.getD (order.idxOf a) 0
  | broadcast shape axes => (Shape.keptAxes shape.rank axes).map fun a => c.getD a 0

/-- The tensor that a chain of readings makes of the tensor `x`. -/
def shown {β : Type} (dims : List Nat) (x : List Nat → β) : List Reading → List Nat → β
  | [] => x
  | r :: rs => shown (r.sizes dims) (fun c => x (r.source dims c)) rs

/-! ## What a chain does to layouts -/

/-- The layout of the result. -/
def layout (l : Layout) : Reading → Layout
  | reshape shape => l.reshape shape
  | transpose order => l.transpose order
  | broadcast shape axes => l.broadcast shape axes

/-- The layout at the end of a chain. -/
def final (l : Layout) (rs : List Reading) : Layout := rs.foldl layout l

/-- What the layout `l` may be read as: only what lies packed is reshaped. -/
inductive Legal (α : Type) [Element α] (l : Layout) : Reading → Prop
  | reshape {shape : Shape} : l.isPacked = true → l.size = shape.size → Legal α l (.reshape shape)
  | transpose {order : List Nat} : order.Perm (List.range l.rank) → Legal α l (.transpose order)
  | broadcast {input : NodeId} {shape : Shape} {axes : List Nat} :
      (Operation.broadcast input shape axes : Operation α).outputShape (fun _ => l.shape)
        = .ok shape →
      Legal α l (.broadcast shape axes)

/-- Each reading is one that the layout before it may have. -/
inductive Chain (α : Type) [Element α] : Layout → List Reading → Prop
  | nil (l : Layout) : Chain α l []
  | cons {l : Layout} {r : Reading} {rs : List Reading} :
      Legal α l r → Chain α (r.layout l) rs → Chain α l (r :: rs)

theorem sizes_eq (l : Layout) (r : Reading) : r.sizes l.shape.dims = (r.layout l).shape.dims := by
  cases r <;> rfl

theorem sizes_final (l : Layout) (rs : List Reading) :
    (final l rs).shape.dims = rs.foldl sizes l.shape.dims := by
  induction rs generalizing l with
  | nil => rfl
  | cons r rs ih => rw [List.foldl_cons, sizes_eq, ← ih]; rfl

theorem regular_layout (l : Layout) : ∀ r : Reading, (r.layout l).Regular
  | reshape s => Layout.regular_reshape l s
  | transpose order => Layout.regular_transpose l order
  | broadcast s axes => Layout.regular_broadcast l s axes

theorem regular_final {l : Layout} (h : l.Regular) (rs : List Reading) : (final l rs).Regular := by
  induction rs generalizing l with
  | nil => exact h
  | cons r rs ih => exact ih (regular_layout l r)

theorem distinctAxes_of_perm {rank : Nat} {order : List Nat} (h : order.Perm (List.range rank)) :
    Shape.distinctAxes rank order = true := by
  simp only [Shape.distinctAxes, Bool.and_eq_true, List.all_eq_true, decide_eq_true_eq]
  exact ⟨fun a ha => List.mem_range.mp (h.mem_iff.mp ha), h.nodup_iff.mpr List.nodup_range⟩

variable {α : Type} [Element α] {l : Layout}

/-! ## One reading -/

section Step

variable {r : Reading} (h : Legal α l r) {c : List Nat} (hc : Below c (r.sizes l.shape.dims))

include h hc

/-- What shows in a cell is a cell of the input. -/
theorem Legal.below_source : Below (r.source l.shape.dims c) l.shape.dims := by
  cases h with
  | @reshape shape _ hsize =>
      exact below_coordinates (hsize ▸ count_pos_of_below hc : 0 < l.size) _
  | @transpose order hperm =>
      simp only [sizes] at hc
      have hlen : order.length = l.shape.dims.length := hperm.length_eq.trans List.length_range
      have hbelow := below_reordered hlen (distinctAxes_of_perm hperm) (position_lt_count hc)
      rwa [coordinates_position hc] at hbelow
  | @broadcast input shape axes hshape =>
      simp only [sizes] at hc
      have hbelow := below_kept (position_lt_count hc) axes
      rw [coordinates_position hc] at hbelow
      exact (Operation.broadcast_eq_ok.mp hshape).2.1 ▸ hbelow

/-- In each cell the result lies where its input lies in the cell that shows there. -/
theorem Legal.place_eq (hl : l.Regular) :
    (r.layout l).place c = l.place (r.source l.shape.dims c) := by
  rw [Layout.place, Layout.place, ← sizes_eq]
  cases h with
  | @reshape shape hpacked hsize =>
      simp only [sizes, source] at hc ⊢
      have hlt : position c (strides shape.dims) < shape.size := position_lt_count hc
      rw [position_coordinates (hsize ▸ hlt : _ < l.size)]
      exact Layout.locate_reshape hl hpacked hsize hlt
  | @transpose order hperm =>
      simp only [sizes] at hc ⊢
      have hlen : order.length = l.shape.dims.length := hperm.length_eq.trans List.length_range
      have hlt : position c (strides (order.map fun a => l.shape.dims.getD a 0))
          < (l.transpose order).size := position_lt_count hc
      have hstep := Layout.locate_transpose hl hlen (distinctAxes_of_perm hperm) hlt
      rwa [reordered, coordinates_position hc] at hstep
  | @broadcast input shape axes hshape =>
      simp only [sizes] at hc ⊢
      have hwithout := (Operation.broadcast_eq_ok.mp hshape).2.1
      have hstep := Layout.locate_broadcast hl hwithout (position_lt_count hc)
      rw [Kernel.keptPosition, coordinates_position hc] at hstep
      exact hwithout ▸ hstep

end Step

/-! ## A chain of readings -/

/-- Whatever the tensor, a chain shows in each of its cells one and the same cell of it,
and the layout at the end leads to the place of that cell. -/
theorem Chain.exists_origin {rs : List Reading} (h : Chain α l rs) (hl : l.Regular)
    {c : List Nat} (hc : Below c (final l rs).shape.dims) :
    ∃ e, Below e l.shape.dims ∧ (final l rs).place c = l.place e ∧
      ∀ {β : Type} (x : List Nat → β), shown l.shape.dims x rs c = x e := by
  induction h with
  | nil l => exact ⟨c, hc, rfl, fun _ => rfl⟩
  | @cons l r rs hr _ ih =>
      obtain ⟨e, he, hplace, hshown⟩ := ih (regular_layout l r) hc
      rw [← sizes_eq] at he
      refine ⟨r.source l.shape.dims e, hr.below_source he, hplace.trans (hr.place_eq he hl), ?_⟩
      intro β x
      rw [shown, sizes_eq, hshown]

/-- The cell of the input that a transposition shows at `c` has the coordinates of `c`, each
on the axis that the order names for it. -/
theorem getD_source_transpose {dims order : List Nat} (hperm : order.Perm (List.range dims.length))
    (c : List Nat) {k : Nat} (hk : k < dims.length) :
    ((transpose order).source dims c).getD (order.getD k 0) 0 = c.getD k 0 := by
  have hko : k < order.length := by rwa [hperm.length_eq, List.length_range]
  have hnd : order.Nodup := hperm.nodup_iff.mpr List.nodup_range
  have hlt : order[k] < dims.length :=
    List.mem_range.mp (hperm.mem_iff.mp (List.getElem_mem hko))
  simp [source, hko, hlt, hnd.idxOf_getElem k hko]

/-- What a chain of readings makes of a packed layout: element `i` of the result lies at
the row-major number of the cell `e` that the chain shows there, whatever the packed array
holds.  From every such layout a transposition goes on to take coordinate `order[k]` of its
input from coordinate `k`, and a repetition to drop the coordinates along `axes` and no
others. -/
theorem Chain.locate_final {kind : ElementKind} {shape : Shape} {rs : List Reading}
    (h : Chain α (.packed kind shape) rs) (hl : l = final (.packed kind shape) rs) :
    l.shape.dims = rs.foldl sizes shape.dims ∧
    (∀ i < l.size, ∃ e, Below e shape.dims ∧ l.locate i = position e (strides shape.dims) ∧
      ∀ {β : Type} (x : List Nat → β), shown shape.dims x rs (coordinates l.shape.dims i) = x e) ∧
    (∀ order : List Nat, order.Perm (List.range l.rank) →
      ∀ c, Below c (l.transpose order).shape.dims → ∃ d, Below d l.shape.dims ∧
        (∀ k < l.rank, d.getD (order.getD k 0) 0 = c.getD k 0) ∧
        (l.transpose order).place c = l.place d) ∧
    ∀ (input : NodeId) (s : Shape) (axes : List Nat),
      (Operation.broadcast input s axes : Operation α).outputShape (fun _ => l.shape) = .ok s →
      ∀ c, Below c s.dims →
        Below (((List.range s.rank).filter (· ∉ axes)).map (c.getD · 0)) l.shape.dims ∧
        (l.broadcast s axes).place c
          = l.place (((List.range s.rank).filter (· ∉ axes)).map (c.getD · 0)) := by
  subst hl
  have hpacked : (Layout.packed kind shape).Regular := Layout.regular_packed kind shape
  have hregular := regular_final hpacked rs
  refine ⟨sizes_final _ rs, ?_, ?_, ?_⟩
  · intro i hi
    have hbelow := below_coordinates (Nat.zero_lt_of_lt hi) i
    obtain ⟨e, he, hplace, hshown⟩ := h.exists_origin hpacked hbelow
    refine ⟨e, he, ?_, hshown⟩
    rw [Layout.locate_eq_place _ hi, hplace, hpacked.place_eq he, Layout.start_packed,
      Nat.zero_add]
    rfl
  · intro order hperm c hc
    have hlegal : Legal α _ (.transpose order) := .transpose hperm
    exact ⟨_, hlegal.below_source hc, fun k hk => getD_source_transpose hperm c hk,
      hlegal.place_eq hc hregular⟩
  · intro input s axes hs c hc
    have hlegal : Legal α _ (.broadcast s axes) := .broadcast hs
    have hkept : (List.range s.rank).filter (· ∉ axes) = Shape.keptAxes s.rank axes := by
      simp [Shape.keptAxes]
    rw [hkept]
    exact ⟨hlegal.below_source hc, hlegal.place_eq hc hregular⟩

/-- A row is turned into a column, read without its axis of size one, repeated and turned
again.  The column is packed although the stride of its last axis leads out of it. -/
def turned : List Reading :=
  [.transpose [1, 0], .reshape ⟨[3]⟩, .broadcast ⟨[2, 3]⟩ [0], .transpose [1, 0]]

theorem chain_turned : Chain UInt8 (.packed .u8 ⟨[1, 3]⟩) turned := by
  have hrule : (Operation.broadcast ⟨0⟩ ⟨[2, 3]⟩ [0] : Operation UInt8).outputShape
      (fun _ => ⟨[3]⟩) = .ok ⟨[2, 3]⟩ := rfl
  exact .cons (.transpose (by decide)) <| .cons (.reshape rfl rfl) <|
    .cons (.broadcast hrule) <| .cons (.transpose (by decide)) (.nil _)

theorem locate_turned : (final (.packed .u8 ⟨[1, 3]⟩) turned).locate 3 = 1 ∧
    ∀ x : List Nat → Nat, shown [1, 3] x turned [1, 1] = x [0, 1] := by
  obtain ⟨e, he, hlocate, hshown⟩ := (chain_turned.locate_final rfl).2.1 3 (by decide)
  have hone : (final (.packed .u8 ⟨[1, 3]⟩) turned).locate 3 = 1 := rfl
  have hcell : e = [0, 1] := by
    rw [← coordinates_position he, ← hlocate, hone]
    rfl
  exact ⟨hone, fun x => (hshown x).trans (congrArg x hcell)⟩

end Reading
end TensorGraph
