/-
# One step computes one node

`Step.Ready` is what a step relies on when it runs: its inputs hold the values
of the nodes that it reads, its output place is packed and has the node's
shape, and an input in the output's own buffer is read exactly where the step
writes (element by element) or does not occur (everything else).

`Step.Ready.outcome`: then the block that the step writes, and the error that
stops it, are those of the dense evaluator, whatever the output block held.
One lemma per kind of operation; the kernels' own statements do the work.
-/
import TensorGraph.Custom.Rules
import TensorGraph.Proofs.Memory

namespace TensorGraph

open Evaluation RowMajor

variable {α : Type} [Element α]

/-- What is relied on of a custom operator: it writes inside its block, and what
it answers depends only on the shapes and the row-major elements of its inputs. -/
structure CustomOperator.Faithful (f : CustomOperator α) : Prop where
  size_eq : ∀ views output block, (f.compute views output block).block.size = block.size
  result_eq : ∀ views views' output block block',
    List.Forall₂ (fun v w : View α => v.layout.shape = w.layout.shape ∧ v.gather = w.gather)
      views views' →
    (∀ v ∈ views ++ views', v.layout.Regular ∧ v.layout.extent ≤ v.data.size) →
    f.outputShape (views.map fun v => v.layout.shape) = .ok output.shape →
    block.size = output.size → block'.size = output.size →
    (f.compute views output block).result = (f.compute views' output block').result

namespace CustomOperator

/-- The operator leaves its block as long as it was. -/
def Confined (f : CustomOperator α) : Prop :=
  ∀ views output block, (f.compute views output block).block.size = block.size

theorem commonShape_eq_ok {shapes : List Shape} {shape : Shape}
    (h : commonShape shapes = .ok shape) : ∀ x ∈ shapes, x = shape := by
  cases shapes with
  | nil => exact nofun
  | cons first rest =>
      rw [commonShape] at h
      split at h
      · cases h
      · rename_i hnone
        cases h
        exact List.forall_mem_cons.mpr ⟨rfl, by simpa using hnone⟩

theorem sumAt_congr {views views' : List (View α)} {i : Nat}
    (h : List.Forall₂ (fun v w => v.get i = w.get i) views views') :
    sumAt views i = sumAt views' i := by
  unfold sumAt
  generalize (Element.zero : α) = acc
  induction h generalizing acc with
  | nil => rfl
  | cons hget _ ih => rw [List.foldl_cons, List.foldl_cons, hget, ih]

/-- Sums may be relied on. -/
theorem faithful_sum (name : String) : (sum name : CustomOperator α).Faithful := by
  refine ⟨fun views output block => by simp [sum, writeAll, Outcome.complete], ?_⟩
  intro views views' output block block' hviews _ hshape hblock hblock'
  have hsum : ∀ i < output.size, sumAt views i = sumAt views' i := by
    intro i hi
    have hsame : List.Forall₂ (fun v w : View α => v ∈ views ∧ v.layout.shape = w.layout.shape ∧
        v.gather = w.gather) views views' :=
      (List.forall₂_and_left _ _).mpr ⟨fun _ hv => hv, hviews⟩
    refine sumAt_congr (hsame.imp ?_)
    rintro v w ⟨hv, hlayout, hgather⟩
    have hsize : v.size = output.size := congrArg Shape.size
      (commonShape_eq_ok hshape _ (List.mem_map_of_mem hv))
    have hsize' : w.size = output.size := (congrArg Shape.size hlayout).symm.trans hsize
    rw [← View.nth_gather (hsize ▸ hi), hgather, View.nth_gather (hsize' ▸ hi)]
  refine congrArg Except.ok (?_ : block.mapIdx _ = block'.mapIdx _)
  refine Array.ext (by simp [hblock, hblock']) fun i hi _ => ?_
  rw [Array.getElem_mapIdx, Array.getElem_mapIdx]
  exact hsum i (by simpa [hblock] using hi)

end CustomOperator
/-- The value of the node `x` lies at `q`. -/
structure Memory.Holds (m : Memory α) (g : Graph α) (values : NodeId → Array α) (x : NodeId)
    (q : Placement) : Prop where
  covers : m.Covers q
  shape_eq : q.layout.shape = g.shapeOf x
  gather_eq : (m.view q).gather = values x

theorem Memory.Holds.size_value {m : Memory α} {g : Graph α} {values : NodeId → Array α}
    {x : NodeId} {q : Placement} (h : m.Holds g values x q) :
    (values x).size = (g.shapeOf x).size := by
  rw [← h.gather_eq, View.size_gather, ← h.shape_eq]
  rfl

namespace Step

/-- What a step that computes the node `n` relies on. -/
structure Ready (st : Step α) (g : Graph α) (values : NodeId → Array α) (n : Node α)
    (m : Memory α) : Prop where
  op_eq : st.op = n.op
  covers : m.Covers st.output
  packed : st.output.layout.isPacked = true
  shape_eq : st.output.layout.shape = n.layout.shape
  inputs : List.Forall₂ (m.Holds g values) n.op.inputs st.inputs
  aligned : ∀ r ∈ st.inputs, r.buffer = st.output.buffer → r.layout = st.output.layout
  apart : n.op.isElementwise = false →
    st.output.layout = n.layout ∧ ∀ r ∈ st.inputs, r.buffer ≠ st.output.buffer

namespace Ready

variable {st : Step α} {g : Graph α} {given values : NodeId → Array α} {n : Node α} {m : Memory α}
  (h : st.Ready g values n m)

include h

theorem size_block : (m.block st.output).size = n.layout.size := by
  rw [h.covers.size_block h.packed, Layout.size, h.shape_eq]
  rfl

theorem one_input {x : NodeId} (hop : n.op.inputs = [x]) :
    ∃ r, st.inputs = [r] ∧ m.Holds g values x r := by
  have hin := h.inputs
  rw [hop, List.forall₂_cons_left_iff] at hin
  obtain ⟨r, rest, hr, hrest, he⟩ := hin
  rw [List.forall₂_nil_left_iff] at hrest
  exact ⟨r, by rw [he, hrest], hr⟩

theorem two_inputs {x y : NodeId} (hop : n.op.inputs = [x, y]) :
    ∃ q r, st.inputs = [q, r] ∧ m.Holds g values x q ∧ m.Holds g values y r := by
  have hin := h.inputs
  rw [hop, List.forall₂_cons_left_iff] at hin
  obtain ⟨q, rest, hq, hrest, he⟩ := hin
  rw [List.forall₂_cons_left_iff] at hrest
  obtain ⟨r, rest, hr, hrest, rfl⟩ := hrest
  rw [List.forall₂_nil_left_iff] at hrest
  exact ⟨q, r, by rw [he, hrest], hq, hr⟩

/-! ## Reading the inputs -/

/-- An operand supplies the input's elements, be it the output block itself. -/
theorem operand_shows {x : NodeId} {r : Placement} (hr : r ∈ st.inputs)
    (hx : m.Holds g values x r) (hshape : g.shapeOf x = n.layout.shape) :
    (st.operand m r).Shows (m.block st.output) (values x) := by
  rw [operand]
  split
  · rename_i hb
    obtain ⟨buffer, layout⟩ := r
    obtain rfl : buffer = st.output.buffer := hb
    obtain rfl : layout = st.output.layout := h.aligned _ hr rfl
    have hblock : m.block st.output = values x :=
      (h.covers.block_eq_gather h.packed).trans hx.gather_eq
    rw [hblock]
    exact Operand.shows_inPlace _
  · rw [← hx.gather_eq]
    refine Operand.shows_view ?_
    rw [h.size_block, View.size, Layout.size, Layout.size, ← hshape, ← hx.shape_eq]
    rfl

theorem input_eq (hel : n.op.isElementwise = false) {r : Placement} (hr : r ∈ st.inputs) :
    st.input m r = .ok (m.view r) := by
  rw [input, if_neg ((h.apart hel).2 r hr)]

/-! ## Sizes

What the rule for the output shape says about the places of the inputs. -/

theorem reshape_input {x : NodeId} {shape : Shape} (hop : n.op = .reshape x shape)
    (hrule : n.op.outputShape g.shapeOf = .ok n.layout.shape) :
    ∃ q, st.inputs = [q] ∧ m.Holds g values x q ∧ (m.view q).size = n.layout.size := by
  obtain ⟨q, hin, hq⟩ := h.one_input (x := x) (by rw [hop]; rfl)
  rw [hop, Operation.reshape_eq_ok] at hrule
  refine ⟨q, hin, hq, ?_⟩
  change q.layout.shape.size = n.layout.shape.size
  rw [hq.shape_eq, hrule.1, hrule.2]

theorem reduce_input {f : Reduction} {x : NodeId} {axes : List Nat} (hop : n.op = .reduce f x axes)
    (hrule : n.op.outputShape g.shapeOf = .ok n.layout.shape) :
    ∃ q, st.inputs = [q] ∧ m.Holds g values x q ∧
      (m.block st.output).size = (q.layout.shape.without axes).size := by
  obtain ⟨q, hin, hq⟩ := h.one_input (x := x) (by rw [hop]; rfl)
  rw [hop, Operation.reduce_eq_ok, ← hq.shape_eq] at hrule
  refine ⟨q, hin, hq, ?_⟩
  rw [h.size_block, hrule.2]
  rfl

theorem dot_inputs {x y : NodeId} {contracted : Nat} (hop : n.op = .dot x y contracted)
    (hrule : n.op.outputShape g.shapeOf = .ok n.layout.shape) :
    ∃ q r, st.inputs = [q, r] ∧ m.Holds g values x q ∧ m.Holds g values y r ∧
      contracted ≤ q.layout.shape.dims.length ∧ contracted ≤ r.layout.shape.dims.length ∧
      q.layout.shape.dims.drop (q.layout.shape.dims.length - contracted)
        = r.layout.shape.dims.take contracted ∧
      (m.block st.output).size
        = count (q.layout.shape.dims.take (q.layout.shape.dims.length - contracted)
          ++ r.layout.shape.dims.drop contracted) := by
  obtain ⟨q, r, hin, hq, hr⟩ := h.two_inputs (x := x) (y := y) (by rw [hop]; rfl)
  rw [hop, Operation.dot_eq_ok, ← hq.shape_eq, ← hr.shape_eq] at hrule
  obtain ⟨⟨hleft, hright⟩, hcommon, hshape⟩ := hrule
  refine ⟨q, r, hin, hq, hr, hleft, hright, hcommon, ?_⟩
  rw [h.size_block, Layout.size, ← hshape]
  rfl

theorem oneHot_input {x : NodeId} {depth axis : Nat} (hop : n.op = .oneHot x depth axis)
    (hrule : n.op.outputShape g.shapeOf = .ok n.layout.shape) :
    ∃ q, st.inputs = [q] ∧ m.Holds g values x q ∧ axis ≤ q.layout.shape.dims.length ∧
      (m.block st.output).size = count (q.layout.shape.dims.insertIdx axis depth) := by
  obtain ⟨q, hin, hq⟩ := h.one_input (x := x) (by rw [hop]; rfl)
  rw [hop, Operation.oneHot_eq_ok, ← hq.shape_eq] at hrule
  refine ⟨q, hin, hq, hrule.1, ?_⟩
  rw [h.size_block, Layout.size, ← hrule.2]
  rfl

theorem maxPool_input {x : NodeId} {window : Shape} {strides : List Nat}
    (hop : n.op = .maxPool x window strides)
    (hrule : n.op.outputShape g.shapeOf = .ok n.layout.shape) :
    ∃ q, st.inputs = [q] ∧ m.Holds g values x q ∧ 2 ≤ q.layout.shape.dims.length ∧
      window.dims.length = (q.layout.shape.dims.drop 2).length ∧
      strides.length = (q.layout.shape.dims.drop 2).length ∧
      Operation.windowsFit (q.layout.shape.dims.drop 2) window.dims strides = true ∧
      st.output.layout.shape.dims = q.layout.shape.dims.take 2
        ++ Operation.pooledSizes (q.layout.shape.dims.drop 2) window.dims strides := by
  obtain ⟨q, hin, hq⟩ := h.one_input (x := x) (by rw [hop]; rfl)
  rw [hop, Operation.maxPool_eq_ok, ← hq.shape_eq] at hrule
  obtain ⟨hrank, hwindow, hstrides, hfit, hshape⟩ := hrule
  refine ⟨q, hin, hq, Nat.le_of_succ_le hrank, hwindow, hstrides, hfit, ?_⟩
  rw [h.shape_eq, ← hshape]

/-! ## Kind by kind -/

theorem binary {f : BinaryOperator} {lhs rhs : NodeId} (hop : n.op = .binary f lhs rhs)
    (hrule : n.op.outputShape g.shapeOf = .ok n.layout.shape) :
    (st.outcome m (m.block st.output)).result = evaluateNode g given values n ∧
      (st.outcome m (m.block st.output)).block.size = n.layout.size := by
  obtain ⟨q, r, hin, hq, hr⟩ := h.two_inputs (x := lhs) (y := rhs) (by rw [hop]; rfl)
  rw [hop, Operation.binary_eq_ok] at hrule
  have hl := h.operand_shows (by simp [hin]) hq hrule.2
  have hr := h.operand_shows (by simp [hin]) hr (hrule.1 ▸ hrule.2)
  have hspec := Kernel.binary_spec f hl hr
  simp only [outcome, h.op_eq, hop, hin, evaluateNode]
  rw [h.size_block] at hspec
  exact hspec

theorem unary {f : UnaryOperator} {x : NodeId} (hop : n.op = .unary f x)
    (hrule : n.op.outputShape g.shapeOf = .ok n.layout.shape) :
    (st.outcome m (m.block st.output)).result = evaluateNode g given values n ∧
      (st.outcome m (m.block st.output)).block.size = n.layout.size := by
  obtain ⟨q, hin, hq⟩ := h.one_input (x := x) (by rw [hop]; rfl)
  rw [hop, Operation.unary_eq_ok] at hrule
  have hshows := h.operand_shows (by simp [hin]) hq hrule.2
  simp only [outcome, h.op_eq, hop, hin, evaluateNode]
  rw [Kernel.unary_spec f hshows, h.size_block]
  exact ⟨rfl, size_tabulate _ _⟩

theorem reshape {x : NodeId} {shape : Shape} (hop : n.op = .reshape x shape)
    (hrule : n.op.outputShape g.shapeOf = .ok n.layout.shape) :
    (st.outcome m (m.block st.output)).result = evaluateNode g given values n ∧
      (st.outcome m (m.block st.output)).block.size = n.layout.size := by
  obtain ⟨q, hin, hq, hsize⟩ := h.reshape_input hop hrule
  have helements : (m.view q).elements = (m.view q).gather :=
    View.elements_eq_gather hq.covers.regular hq.covers.extent_le
  simp only [outcome, h.op_eq, hop, hin, evaluateNode,
    h.input_eq (by rw [hop]; rfl) (r := q) (by simp [hin]), Outcome.after]
  rw [helements]
  exact ⟨congrArg Except.ok hq.gather_eq, (View.size_gather _).trans hsize⟩

theorem reduce {f : Reduction} {x : NodeId} {axes : List Nat} (hop : n.op = .reduce f x axes)
    (hrule : n.op.outputShape g.shapeOf = .ok n.layout.shape) :
    (st.outcome m (m.block st.output)).result = evaluateNode g given values n ∧
      (st.outcome m (m.block st.output)).block.size = n.layout.size := by
  obtain ⟨q, hin, hq, hsize⟩ := h.reduce_input hop hrule
  simp only [outcome, h.op_eq, hop, hin, evaluateNode,
    h.input_eq (by rw [hop]; rfl) (r := q) (by simp [hin]), Outcome.after]
  rw [Kernel.reduce_spec f axes (m.view q) _ hsize, hq.gather_eq, ← hq.shape_eq]
  exact ⟨rfl, (size_tabulate _ _).trans (hsize.symm.trans h.size_block)⟩

theorem dot {x y : NodeId} {contracted : Nat} (hop : n.op = .dot x y contracted)
    (hrule : n.op.outputShape g.shapeOf = .ok n.layout.shape) :
    (st.outcome m (m.block st.output)).result = evaluateNode g given values n ∧
      (st.outcome m (m.block st.output)).block.size = n.layout.size := by
  obtain ⟨q, r, hin, hq, hr, _, _, hcommon, hsize⟩ := h.dot_inputs hop hrule
  simp only [outcome, h.op_eq, hop, hin, evaluateNode,
    h.input_eq (by rw [hop]; rfl) (r := q) (by simp [hin]),
    h.input_eq (by rw [hop]; rfl) (r := r) (by simp [hin]), Outcome.after]
  have hspec : Kernel.contract contracted (m.view q) (m.view r) (m.block st.output) = _ :=
    Kernel.contract_spec hcommon hsize
  rw [hspec, hq.gather_eq, hr.gather_eq, ← hq.shape_eq, ← hr.shape_eq]
  refine ⟨rfl, ?_⟩
  rw [← h.size_block, hsize, count_append]
  exact size_tabulate _ _

theorem oneHot {x : NodeId} {depth axis : Nat} (hop : n.op = .oneHot x depth axis)
    (hrule : n.op.outputShape g.shapeOf = .ok n.layout.shape) :
    (st.outcome m (m.block st.output)).result = evaluateNode g given values n ∧
      (st.outcome m (m.block st.output)).block.size = n.layout.size := by
  obtain ⟨q, hin, hq, haxis, hsize⟩ := h.oneHot_input hop hrule
  simp only [outcome, h.op_eq, hop, hin, evaluateNode,
    h.input_eq (by rw [hop]; rfl) (r := q) (by simp [hin]), Outcome.after]
  refine ⟨?_, by rw [Kernel.size_oneHot, h.size_block]⟩
  have hspec : (Kernel.oneHot depth axis (m.view q) (m.block st.output)).result = _ :=
    Kernel.oneHot_spec haxis hsize
  rw [hspec, hq.gather_eq, ← hq.shape_eq]
  rfl

theorem maxPool {x : NodeId} {window : Shape} {strides : List Nat}
    (hop : n.op = .maxPool x window strides)
    (hrule : n.op.outputShape g.shapeOf = .ok n.layout.shape) :
    (st.outcome m (m.block st.output)).result = evaluateNode g given values n ∧
      (st.outcome m (m.block st.output)).block.size = n.layout.size := by
  obtain ⟨q, hin, hq, hrank, hwindow, hstrides, hfit, hdims⟩ := h.maxPool_input hop hrule
  simp only [outcome, h.op_eq, hop, hin, evaluateNode,
    h.input_eq (by rw [hop]; rfl) (r := q) (by simp [hin]), Outcome.after]
  have hspec : Kernel.maxPool window.dims strides (m.view q) st.output.layout
      (m.block st.output) = _ :=
    Kernel.maxPool_spec hrank hwindow hstrides hfit hdims (h.covers.size_block h.packed)
  rw [hspec, hq.gather_eq, ← hq.shape_eq, ← h.shape_eq]
  refine ⟨rfl, (size_tabulate _ _).trans ?_⟩
  rw [Layout.size, ← h.shape_eq]
  rfl

theorem custom_eq {f : CustomOperator α} {xs : List NodeId} (hop : n.op = .custom f xs) :
    st.outcome m (m.block st.output)
      = f.compute (st.inputs.map m.view) n.layout (m.block st.output) := by
  have hel : n.op.isElementwise = false := by rw [hop]; rfl
  have hread : st.inputs.mapM (st.input m) = .ok (st.inputs.map m.view) := by
    rw [Except.mapM_eq_ok, List.forall₂_map_right_iff, List.forall₂_same]
    exact fun r hr => h.input_eq hel hr
  simp only [outcome, h.op_eq, hop, hread, Outcome.after]
  rw [(h.apart hel).1]

theorem custom {f : CustomOperator α} {xs : List NodeId} (hop : n.op = .custom f xs)
    (hrule : n.op.outputShape g.shapeOf = .ok n.layout.shape) (hf : f.Faithful) :
    (st.outcome m (m.block st.output)).result = evaluateNode g given values n ∧
      (st.outcome m (m.block st.output)).block.size = n.layout.size := by
  have hin : List.Forall₂ (m.Holds g values) xs st.inputs := by
    have := h.inputs
    rwa [hop] at this
  rw [hop, Operation.outputShape] at hrule
  simp only [h.custom_eq hop, hop, evaluateNode]
  refine ⟨hf.result_eq _ _ _ _ _ ?_ ?_ ?_ h.size_block (size_blank _), ?_⟩
  · rw [List.forall₂_map_left_iff, List.forall₂_map_right_iff]
    refine List.Forall₂.flip (hin.imp fun x r hx => ⟨hx.shape_eq, ?_⟩)
    rw [View.gather_dense hx.size_value, hx.gather_eq]
  · intro v hv
    rcases List.mem_append.mp hv with hv | hv
    · obtain ⟨r, hr, rfl⟩ := List.mem_map.mp hv
      obtain ⟨x, _, hx⟩ := hin.exists_left hr
      exact ⟨hx.covers.regular, hx.covers.extent_le⟩
    · obtain ⟨x, hx, rfl⟩ := List.mem_map.mp hv
      obtain ⟨r, _, hx⟩ := hin.exists_right hx
      exact ⟨Layout.regular_packed _ _, Nat.le_of_eq (View.extent_dense hx.size_value)⟩
  · rw [← hrule, List.map_map]
    refine congrArg f.outputShape ?_
    rw [← List.forall₂_eq_eq_eq, List.forall₂_map_left_iff, List.forall₂_map_right_iff]
    exact List.Forall₂.flip (hin.imp fun x r hx => hx.shape_eq)
  · rw [hf.size_eq, h.size_block]

/-! ## Any step that is not an assignment -/

variable (given) in
theorem outcome {σ : Sites} (hcomputes : σ.computes n.op = true)
    (hrule : n.op.outputShape g.shapeOf = .ok n.layout.shape)
    (hcustom : ∀ f xs, n.op = .custom f xs → f.Faithful) :
    (st.outcome m (m.block st.output)).result = evaluateNode g given values n ∧
      (st.outcome m (m.block st.output)).block.size = n.layout.size := by
  cases hop : n.op with
  | binary => exact h.binary hop hrule
  | unary => exact h.unary hop hrule
  | reshape => exact h.reshape hop hrule
  | reduce => exact h.reduce hop hrule
  | dot => exact h.dot hop hrule
  | oneHot => exact h.oneHot hop hrule
  | maxPool => exact h.maxPool hop hrule
  | custom f xs => exact h.custom hop hrule (hcustom f xs hop)
  | _ => simp [hop, Sites.computes] at hcomputes

/-- The block has the right size as soon as custom operators leave its size alone. -/
theorem size_outcome {σ : Sites} (hcomputes : σ.computes n.op = true)
    (hrule : n.op.outputShape g.shapeOf = .ok n.layout.shape)
    (hcustom : ∀ f xs, n.op = .custom f xs → f.Confined) :
    (st.outcome m (m.block st.output)).block.size = n.layout.size := by
  by_cases hkernel : ∃ f xs, n.op = .custom f xs
  · obtain ⟨f, xs, hop⟩ := hkernel
    rw [h.custom_eq hop, hcustom f xs hop, h.size_block]
  · exact (h.outcome values hcomputes hrule fun f xs hop => absurd ⟨f, xs, hop⟩ hkernel).2

variable (given) in
/-- The step writes one block of the right size.  It stops with the node's error
if the node has no value, and otherwise that block is the value. -/
theorem run {σ : Sites} (hcomputes : σ.computes n.op = true)
    (hrule : n.op.outputShape g.shapeOf = .ok n.layout.shape)
    (hcustom : ∀ f xs, n.op = .custom f xs → f.Faithful) :
    ∃ block : Array α, block.size = st.output.layout.size ∧
      match evaluateNode g given values n with
      | .ok xs => st.run m = (m.write st.output xs, none) ∧ block = xs
      | .error e => st.run m = (m.write st.output block, some e) := by
  obtain ⟨hresult, hsize⟩ := h.outcome given hcomputes hrule hcustom
  refine ⟨_, hsize.trans (by rw [Layout.size, Layout.size, h.shape_eq]), ?_⟩
  rw [← hresult, Outcome.result]
  cases hf : (st.outcome m (m.block st.output)).failure with
  | none => exact ⟨by rw [Step.run, hf], rfl⟩
  | some e => rw [Step.run, hf]

end Ready
end Step
end TensorGraph
