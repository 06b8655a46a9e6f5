/-
# Graphs that requests have built

`Graph.Built` is the subject of every statement about whole graphs: graphs that
come about from the empty one by accepted operations.  A refused operation
leaves the graph as it was, so it does not appear.  What holds of all of them
is said node by node in `Node.Sound`:

* the node has the number of its place, and reads smaller numbers only;
* its layout is packed, and its shape is what the shape rule gives for the
  shapes of its inputs as they are now;
* an assignment's target is a variable.
-/
import Mathlib.Data.List.Forall2
import Mathlib.Tactic.ByContra
import TensorGraph.Plan.Slice
import TensorGraph.Workspace

namespace List.Forall₂

variable {α β : Type} {R : α → β → Prop} {xs : List α} {ys : List β}

theorem exists_right (h : List.Forall₂ R xs ys) {x : α} (hx : x ∈ xs) : ∃ y ∈ ys, R x y := by
  induction h with
  | nil => cases hx
  | cons hr _ ih =>
      rcases List.mem_cons.mp hx with rfl | hx
      · exact ⟨_, List.mem_cons_self, hr⟩
      · obtain ⟨y, hy, hr⟩ := ih hx
        exact ⟨y, List.mem_cons_of_mem _ hy, hr⟩

theorem exists_left (h : List.Forall₂ R xs ys) {y : β} (hy : y ∈ ys) : ∃ x ∈ xs, R x y := by
  induction h with
  | nil => cases hy
  | cons hr _ ih =>
      rcases List.mem_cons.mp hy with rfl | hy
      · exact ⟨_, List.mem_cons_self, hr⟩
      · obtain ⟨x, hx, hr⟩ := ih hy
        exact ⟨x, List.mem_cons_of_mem _ hx, hr⟩

theorem append_left {xs' : List α} (h : List.Forall₂ R (xs ++ xs') ys) :
    ∃ zs zs', ys = zs ++ zs' ∧ List.Forall₂ R xs zs ∧ List.Forall₂ R xs' zs' := by
  refine ⟨ys.take xs.length, ys.drop xs.length, (List.take_append_drop _ _).symm, ?_, ?_⟩
  · simpa using List.forall₂_take xs.length h
  · simpa using List.forall₂_drop xs.length h

theorem map_eq {γ : Type} {f : α → γ} {g : β → γ}
    (h : List.Forall₂ (fun x y => f x = g y) xs ys) : xs.map f = ys.map g := by
  induction h with
  | nil => rfl
  | cons hr _ ih => rw [List.map_cons, List.map_cons, hr, ih]

theorem of_map_eq {γ : Type} {f : α → γ} {g : β → γ} (h : xs.map f = ys.map g) :
    List.Forall₂ (fun x y => f x = g y) xs ys := by
  have heq : List.Forall₂ (· = ·) (xs.map f) (ys.map g) := by
    rw [List.forall₂_eq_eq_eq]
    exact h
  exact List.forall₂_map_right_iff.mp (List.forall₂_map_left_iff.mp heq)

end List.Forall₂

/-- An element of a list with one more at its end is the last one or was there before. -/
theorem List.snoc_eq_append_cons {α : Type} {xs ys zs : List α} {x y : α}
    (h : xs ++ [x] = ys ++ y :: zs) :
    (ys = xs ∧ y = x ∧ zs = []) ∨ ∃ zs', zs = zs' ++ [x] ∧ xs = ys ++ y :: zs' := by
  rcases List.eq_nil_or_concat zs with rfl | ⟨zs', z, rfl⟩
  · obtain ⟨he, hlast⟩ := List.append_inj' h rfl
    exact .inl ⟨he.symm, (List.singleton_inj.mp hlast).symm, rfl⟩
  · rw [List.concat_eq_append, ← List.cons_append, ← List.append_assoc] at h
    obtain ⟨he, hlast⟩ := List.append_inj' h rfl
    exact .inr ⟨zs', by rw [List.concat_eq_append, List.singleton_inj.mp hlast], he⟩

/-- One of two elements of a list comes before the other. -/
theorem List.mem_before_or {α : Type} {xs before after before' after' : List α} {x y : α}
    (h : xs = before ++ x :: after) (h' : xs = before' ++ y :: after') (hne : x ≠ y) :
    x ∈ before' ∨ y ∈ before := by
  rcases List.append_eq_append_iff.mp (h.symm.trans h') with ⟨mid, h, h'⟩ | ⟨mid, h, h'⟩
  · cases mid with
    | nil => exact absurd (List.cons.inj h').1 hne
    | cons z mid =>
        obtain rfl := (List.cons.inj h').1
        exact .inl (by simp [h])
  · cases mid with
    | nil => exact absurd (List.cons.inj h').1.symm hne
    | cons z mid =>
        obtain rfl := (List.cons.inj h').1
        exact .inr (by simp [h])

namespace TensorGraph

/-! ## Computations that may fail -/

namespace Except

variable {ε α β : Type}

theorem ok_bind (a : α) (f : α → Except ε β) : (Except.ok a >>= f) = f a := rfl

theorem bind_eq_ok {x : Except ε α} {f : α → Except ε β} {b : β} :
    (x >>= f) = .ok b ↔ ∃ a, x = .ok a ∧ f a = .ok b := by
  cases x with
  | error e => simp [bind, Except.bind]
  | ok a => simp [bind, Except.bind]

/-- A check and what comes after it. -/
theorem then_eq_ok {x : Except ε PUnit} {f : PUnit → Except ε β} {b : β} :
    (x >>= f) = .ok b ↔ x = .ok () ∧ f () = .ok b :=
  bind_eq_ok.trans ⟨fun ⟨_, hx, hf⟩ => ⟨hx, hf⟩, fun ⟨hx, hf⟩ => ⟨_, hx, hf⟩⟩

/-- The contents of what is known to have succeeded. -/
def get : (x : Except ε α) → x.isOk = true → α
  | .ok a, _ => a

theorem eq_ok_get {x : Except ε α} (h : x.isOk = true) : x = .ok (get x h) := by
  cases x with
  | error => cases h
  | ok => rfl

theorem exists_bind_eq_ok {x : Except ε α} {f : α → Except ε β} {a : α} (hx : x = .ok a)
    (hf : ∃ b, f a = .ok b) : ∃ b, (x >>= f) = .ok b := by
  obtain ⟨b, hb⟩ := hf
  exact ⟨b, bind_eq_ok.mpr ⟨a, hx, hb⟩⟩

theorem ite_ok_eq_ok {c : Prop} [Decidable c] {e : ε} {a b : α} :
    (if c then .ok a else .error e) = Except.ok b ↔ c ∧ a = b := by
  by_cases h : c
  · simp [h]
  · simp [h]

theorem ite_error_eq_ok {c : Prop} [Decidable c] {e : ε} {x : Except ε α} {b : α} :
    (if c then .error e else x) = Except.ok b ↔ ¬ c ∧ x = .ok b := by
  by_cases h : c
  · simp [h]
  · simp [h]

theorem forM_eq_ok {f : α → Except ε PUnit} {xs : List α} :
    xs.forM f = .ok () ↔ ∀ x ∈ xs, f x = .ok () := by
  induction xs with
  | nil => exact ⟨fun _ _ hx => absurd hx List.not_mem_nil, fun _ => rfl⟩
  | cons x rest ih =>
      rw [List.forM, bind_eq_ok, List.forall_mem_cons, ← ih]
      constructor
      · rintro ⟨_, hx, hr⟩
        exact ⟨hx, hr⟩
      · rintro ⟨hx, hr⟩
        exact ⟨_, hx, hr⟩

theorem mapM_eq_ok {f : α → Except ε β} {xs : List α} {ys : List β} :
    xs.mapM f = .ok ys ↔ List.Forall₂ (fun x y => f x = .ok y) xs ys := by
  induction xs generalizing ys with
  | nil => simp [pure, Except.pure, eq_comm]
  | cons x rest ih =>
      rw [List.mapM_cons, bind_eq_ok, List.forall₂_cons_left_iff]
      refine exists_congr fun y => ?_
      rw [bind_eq_ok]
      constructor
      · rintro ⟨hy, zs, hz, e⟩
        exact ⟨zs, hy, ih.mp hz, (Except.ok.inj e).symm⟩
      · rintro ⟨zs, hy, hz, rfl⟩
        exact ⟨hy, zs, ih.mpr hz, rfl⟩

theorem mem_of_mapM_eq_ok {f : α → Except ε β} {xs : List α} {ys : List β}
    (h : xs.mapM f = .ok ys) {x : α} (hx : x ∈ xs) : ∃ y ∈ ys, f x = .ok y :=
  (mapM_eq_ok.mp h).exists_right hx

theorem exists_mapM_eq_ok {f : α → Except ε β} {xs : List α} (h : ∀ x ∈ xs, ∃ y, f x = .ok y) :
    ∃ ys, xs.mapM f = .ok ys := by
  induction xs with
  | nil => exact ⟨[], rfl⟩
  | cons x rest ih =>
      obtain ⟨⟨y, hy⟩, hrest⟩ := List.forall_mem_cons.mp h
      obtain ⟨ys, hys⟩ := ih hrest
      exact ⟨y :: ys, mapM_eq_ok.mpr (.cons hy (mapM_eq_ok.mp hys))⟩

theorem bind_eq_error {x : Except ε α} {f : α → Except ε β} {e : ε} :
    (x >>= f) = .error e ↔ x = .error e ∨ ∃ a, x = .ok a ∧ f a = .error e := by
  cases x with
  | error e' => simp [bind, Except.bind]
  | ok a => simp [bind, Except.bind]

theorem exists_of_forM_eq_error {f : α → Except ε Unit} {xs : List α} {e : ε}
    (h : xs.forM f = .error e) : ∃ x ∈ xs, f x = .error e := by
  induction xs with
  | nil => cases h
  | cons x rest ih =>
      rw [List.forM] at h
      rcases bind_eq_error.mp h with hx | ⟨_, _, hrest⟩
      · exact ⟨x, List.mem_cons_self, hx⟩
      · obtain ⟨y, hy, he⟩ := ih hrest
        exact ⟨y, List.mem_cons_of_mem _ hy, he⟩

theorem exists_of_mapM_eq_error {f : α → Except ε β} {xs : List α} {e : ε}
    (h : xs.mapM f = .error e) : ∃ x ∈ xs, f x = .error e := by
  induction xs with
  | nil => cases h
  | cons x rest ih =>
      rw [List.mapM_cons] at h
      rcases bind_eq_error.mp h with hx | ⟨_, _, h⟩
      · exact ⟨x, List.mem_cons_self, hx⟩
      · rcases bind_eq_error.mp h with hrest | ⟨_, _, h⟩
        · obtain ⟨y, hy, he⟩ := ih hrest
          exact ⟨y, List.mem_cons_of_mem _ hy, he⟩
        · cases h

end Except

/-! ## The rule for the output shape -/

namespace Operation

variable {α : Type} [Element α]

/-- The shape depends on the shapes of the inputs alone. -/
theorem outputShape_congr {f g : NodeId → Shape} {op : Operation α}
    (h : ∀ id ∈ op.inputs, f id = g id) : op.outputShape f = op.outputShape g := by
  cases op with
  | custom operator inputs =>
      exact congrArg operator.outputShape (List.map_congr_left h)
  | placeholder | constant | persistent => rfl
  | binary _ lhs rhs | dot lhs rhs _ | assign lhs rhs =>
      have hl : f lhs = g lhs := h lhs (by simp [inputs])
      have hr : f rhs = g rhs := h rhs (by simp [inputs])
      simp only [outputShape, hl, hr]
  | unary _ input | broadcast input _ _ | reorder input _ | reshape input _
  | reduce _ input _ | oneHot input _ _ | maxPool input _ _ =>
      have hi : f input = g input := h input (by simp [inputs])
      simp only [outputShape, hi]

/-! What an accepted operation was checked for. -/

section Accepted

variable {shapeOf : NodeId → Shape} {x y : NodeId} {s shape : Shape} {axes : List Nat}

theorem constant_eq_ok {values : Array α} :
    (constant s values : Operation α).outputShape shapeOf = .ok shape ↔
      (values.size = s.size ∨ values.size = 1) ∧ s = shape :=
  Except.ite_ok_eq_ok

theorem persistent_eq_ok {init : InitialValue α} :
    (persistent s init : Operation α).outputShape shapeOf = .ok shape ↔
      init.fault? = none ∧ s = shape := by
  rw [outputShape]
  cases init.fault? with
  | none => simp
  | some fault => simp [refuse]

theorem binary_eq_ok {f : BinaryOperator} :
    (binary f x y : Operation α).outputShape shapeOf = .ok shape ↔
      shapeOf x = shapeOf y ∧ shapeOf x = shape :=
  Except.ite_ok_eq_ok

theorem unary_eq_ok {f : UnaryOperator} :
    (unary f x : Operation α).outputShape shapeOf = .ok shape ↔
      ¬ (f = .negative ∧ (Element.kind α).signed = false) ∧ shapeOf x = shape := by
  rw [outputShape, refuse, Except.ite_error_eq_ok, Except.ok.injEq]

theorem broadcast_eq_ok :
    (broadcast x s axes : Operation α).outputShape shapeOf = .ok shape ↔
      Shape.distinctAxes s.rank axes = true ∧ s.without axes = shapeOf x ∧ s = shape := by
  simp only [outputShape, refuse, Except.ite_error_eq_ok, Except.ite_ok_eq_ok,
    Bool.not_eq_true', Bool.not_eq_false]

theorem reorder_eq_ok :
    (reorder x axes : Operation α).outputShape shapeOf = .ok shape ↔
      (axes.length = (shapeOf x).rank ∧ Shape.distinctAxes (shapeOf x).rank axes = true) ∧
        (shapeOf x).select axes = shape :=
  Except.ite_ok_eq_ok

theorem reshape_eq_ok :
    (reshape x s : Operation α).outputShape shapeOf = .ok shape ↔
      (shapeOf x).size = s.size ∧ s = shape :=
  Except.ite_ok_eq_ok

theorem reduce_eq_ok {f : Reduction} :
    (reduce f x axes : Operation α).outputShape shapeOf = .ok shape ↔
      Shape.distinctAxes (shapeOf x).rank axes = true ∧ (shapeOf x).without axes = shape :=
  Except.ite_ok_eq_ok

theorem oneHot_eq_ok {depth axis : Nat} :
    (oneHot x depth axis : Operation α).outputShape shapeOf = .ok shape ↔
      axis ≤ (shapeOf x).rank ∧ ⟨(shapeOf x).dims.insertIdx axis depth⟩ = shape :=
  Except.ite_ok_eq_ok

theorem assign_eq_ok :
    (assign x y : Operation α).outputShape shapeOf = .ok shape ↔
      shapeOf x = shapeOf y ∧ shapeOf x = shape :=
  Except.ite_ok_eq_ok

theorem dot_eq_ok {contracted : Nat} :
    (dot x y contracted : Operation α).outputShape shapeOf = .ok shape ↔
      (contracted ≤ (shapeOf x).rank ∧ contracted ≤ (shapeOf y).rank) ∧
      (shapeOf x).dims.drop ((shapeOf x).rank - contracted) = (shapeOf y).dims.take contracted ∧
      ⟨(shapeOf x).dims.take ((shapeOf x).rank - contracted)
        ++ (shapeOf y).dims.drop contracted⟩ = shape := by
  simp only [outputShape, refuse, Except.ite_error_eq_ok, Except.ite_ok_eq_ok, not_or,
    Nat.not_lt]

theorem maxPool_eq_ok {window : Shape} {strides : List Nat} :
    (maxPool x window strides : Operation α).outputShape shapeOf = .ok shape ↔
      3 ≤ (shapeOf x).rank ∧ window.rank = ((shapeOf x).dims.drop 2).length ∧
      strides.length = ((shapeOf x).dims.drop 2).length ∧
      windowsFit ((shapeOf x).dims.drop 2) window.dims strides = true ∧
      ⟨(shapeOf x).dims.take 2
        ++ pooledSizes ((shapeOf x).dims.drop 2) window.dims strides⟩ = shape := by
  simp only [outputShape, refuse, Except.ite_error_eq_ok, Except.ite_ok_eq_ok, Nat.not_lt, ne_eq,
    Decidable.not_not]

end Accepted
end Operation

/-- What holds of the node with the given number in a graph that requests have built. -/
structure Node.Sound {α : Type} [Element α] (g : Graph α) (id : NodeId) (n : Node α) : Prop where
  id_eq : n.id = id
  inputs_lt : ∀ x ∈ n.op.inputs, x.index < id.index
  shape_eq : n.op.outputShape g.shapeOf = .ok n.layout.shape
  layout_eq : n.layout = .packed (Element.kind α) n.layout.shape
  target_eq : ∀ t, n.op.target? = some t → ∃ m, g.node? t = some m ∧ m.op.isPersistent = true

namespace Graph

variable {α : Type} [Element α]

/-- Graphs that come about by accepted operations. -/
inductive Built : Graph α → Prop
  | empty : Built .empty
  | add {g g' : Graph α} {op : Operation α} {n : Node α} :
      Built g → g.add op = .ok (g', n) → Built g'

omit [Element α] in
theorem node?_lt {g : Graph α} {id : NodeId} {n : Node α} (h : g.node? id = some n) :
    id.index < g.size :=
  (Array.getElem?_eq_some_iff.mp h).1

omit [Element α] in
theorem node?_of_lt {g : Graph α} {id : NodeId} (h : id.index < g.size) :
    ∃ n, g.node? id = some n :=
  ⟨g.nodes[id.index], Array.getElem?_eq_getElem h⟩

omit [Element α] in
theorem node?_push (g : Graph α) (n : Node α) (id : NodeId) :
    (g.push n).node? id = if id.index = g.size then some n else g.node? id := by
  simp only [node?, push, Array.getElem?_push]
  rfl

omit [Element α] in
theorem node_eq_ok_iff {g : Graph α} {id : NodeId} {n : Node α} :
    g.node id = .ok n ↔ g.node? id = some n := by
  rw [node]
  cases g.node? id with
  | none => simp
  | some m => simp

omit [Element α] in
theorem known_iff {g : Graph α} {ids : List NodeId} :
    g.known ids = .ok () ↔ ∀ id ∈ ids, id.index < g.size := by
  induction ids with
  | nil => simp [known]
  | cons id rest ih =>
      rw [known, List.forall_mem_cons]
      cases h : g.node? id with
      | none =>
          have : ¬ id.index < g.size := by simpa [node?, size] using h
          simp [this]
      | some n => simp [ih, node?_lt h]

omit [Element α] in
/-- The error is the first listed node that is not in the graph. -/
theorem known_eq_error {g : Graph α} {ids : List NodeId} {e : Error} :
    g.known ids = .error e ↔ ∃ before id after, ids = before ++ id :: after ∧
      (∀ x ∈ before, x.index < g.size) ∧ g.size ≤ id.index ∧ e = .unknownNode id := by
  induction ids with
  | nil => simp [known]
  | cons id rest ih =>
      rw [known]
      cases h : g.node? id with
      | none =>
          have hout : g.size ≤ id.index := by simpa [node?, size] using h
          constructor
          · intro he
            exact ⟨[], id, rest, rfl, by simp, hout, (Except.error.inj he).symm⟩
          · rintro ⟨before, x, after, hsplit, hbefore, _, rfl⟩
            cases before with
            | nil => rw [(List.cons.inj hsplit).1]
            | cons y before =>
                have hy := hbefore y List.mem_cons_self
                rw [← (List.cons.inj hsplit).1] at hy
                exact absurd hout (Nat.not_le.mpr hy)
      | some n =>
          have hin := node?_lt h
          rw [ih]
          constructor
          · rintro ⟨before, x, after, rfl, hbefore, hx, rfl⟩
            exact ⟨id :: before, x, after, rfl, List.forall_mem_cons.mpr ⟨hin, hbefore⟩, hx, rfl⟩
          · rintro ⟨before, x, after, hsplit, hbefore, hx, rfl⟩
            cases before with
            | nil =>
                rw [← (List.cons.inj hsplit).1] at hx
                exact absurd hin (Nat.not_lt.mpr hx)
            | cons y before =>
                exact ⟨before, x, after, (List.cons.inj hsplit).2,
                  (List.forall_mem_cons.mp hbefore).2, hx, rfl⟩

omit [Element α] in
theorem shapeOf_of_node? {g : Graph α} {id : NodeId} {n : Node α} (h : g.node? id = some n) :
    g.shapeOf id = n.layout.shape := by
  simp [shapeOf, h]

omit [Element α] in
theorem inputsOf_of_node? {g : Graph α} {id : NodeId} {n : Node α} (h : g.node? id = some n) :
    g.inputsOf id = n.op.inputs := by
  simp [inputsOf, h]

/-- What an accepted operation was checked for. -/
theorem nodeFor?_eq_ok {g : Graph α} {op : Operation α} {n : Node α}
    (h : g.nodeFor? op = .ok n) :
    (∀ x ∈ op.inputs, x.index < g.size) ∧
      (∀ t, op.target? = some t → ∃ m, g.node? t = some m ∧ m.op.isPersistent = true) ∧
      ∃ shape, op.outputShape g.shapeOf = .ok shape ∧
        n = ⟨⟨g.size⟩, op, .packed (Element.kind α) shape⟩ := by
  obtain ⟨_, hknown, h⟩ := Except.bind_eq_ok.mp h
  obtain ⟨_, htarget, h⟩ := Except.bind_eq_ok.mp h
  obtain ⟨shape, hshape, h⟩ := Except.bind_eq_ok.mp h
  refine ⟨known_iff.mp hknown, fun t ht => ?_, shape, hshape, (Except.ok.inj h).symm⟩
  simp only [checkTarget, ht] at htarget
  split at htarget
  · rename_i hany
    cases hv : g.node? t with
    | none => simp [hv] at hany
    | some m => exact ⟨m, rfl, by simpa [hv] using hany⟩
  · cases htarget

theorem add_eq_ok {g g' : Graph α} {op : Operation α} {n : Node α}
    (h : g.add op = .ok (g', n)) : g.nodeFor? op = .ok n ∧ g' = g.push n := by
  obtain ⟨m, hm, h⟩ := Except.bind_eq_ok.mp h
  cases h
  exact ⟨hm, rfl⟩

/-- Every node of a graph that requests have built is sound. -/
theorem Built.sound {g : Graph α} (h : g.Built) :
    ∀ {id : NodeId} {n : Node α}, g.node? id = some n → n.Sound g id := by
  induction h with
  | empty =>
      intro id n hn
      simp [node?, Graph.empty] at hn
  | @add g g' op m hg hadd ih =>
      obtain ⟨hm, rfl⟩ := add_eq_ok hadd
      obtain ⟨hin, htarget, shape, hshape, rfl⟩ := nodeFor?_eq_ok hm
      have earlier : ∀ x : NodeId, x.index < g.size →
          (g.push ⟨⟨g.size⟩, op, .packed (Element.kind α) shape⟩).node? x = g.node? x := by
        intro x hx
        rw [node?_push, if_neg (Nat.ne_of_lt hx)]
      have sameShape : ∀ x : NodeId, x.index < g.size →
          (g.push ⟨⟨g.size⟩, op, .packed (Element.kind α) shape⟩).shapeOf x = g.shapeOf x := by
        intro x hx
        rw [shapeOf, shapeOf, earlier x hx]
      intro id n hn
      rw [node?_push] at hn
      split at hn
      · rename_i hid
        cases hn
        refine ⟨NodeId.mk.injEq .. ▸ hid.symm, fun x hx => hid ▸ hin x hx, ?_, rfl, ?_⟩
        · rw [Operation.outputShape_congr fun x hx => sameShape x (hin x hx)]
          exact hshape
        · intro t ht
          obtain ⟨v, hv, hp⟩ := htarget t ht
          exact ⟨v, (earlier t (node?_lt hv)).trans hv, hp⟩
      · have hs := ih hn
        have hlt := node?_lt hn
        refine ⟨hs.id_eq, hs.inputs_lt, ?_, hs.layout_eq, ?_⟩
        · rw [Operation.outputShape_congr fun x hx =>
            sameShape x (Nat.lt_trans (hs.inputs_lt x hx) hlt)]
          exact hs.shape_eq
        · intro t ht
          obtain ⟨v, hv, hp⟩ := hs.target_eq t ht
          exact ⟨v, (earlier t (node?_lt hv)).trans hv, hp⟩

/-- The graph of some operations, added one after the other. -/
def ofOperations (ops : List (Operation α)) : Except Error (Graph α) :=
  ops.foldlM (fun g op => (·.1) <$> g.add op) .empty

theorem Built.foldlM {holds : Operation α → Prop} {ops : List (Operation α)} {g g' : Graph α}
    (hbuilt : g.Built) (hnodes : ∀ id n, g.node? id = some n → holds n.op)
    (hops : ∀ op ∈ ops, holds op) (h : ops.foldlM (fun g op => (·.1) <$> g.add op) g = .ok g') :
    g'.Built ∧ ∀ id n, g'.node? id = some n → holds n.op := by
  induction ops generalizing g with
  | nil =>
      cases h
      exact ⟨hbuilt, hnodes⟩
  | cons op rest ih =>
      obtain ⟨hop, hrest⟩ := List.forall_mem_cons.mp hops
      obtain ⟨g₁, hadd, h⟩ := Except.bind_eq_ok.mp h
      cases he : g.add op with
      | error e => simp [he, Functor.map, Except.map] at hadd
      | ok r =>
          obtain rfl : r.1 = g₁ := by simpa [he, Functor.map, Except.map] using hadd
          refine ih (.add hbuilt he) (fun id n hn => ?_) hrest h
          obtain ⟨hnew, hg⟩ := add_eq_ok he
          obtain ⟨_, _, shape, _, hnew⟩ := nodeFor?_eq_ok hnew
          rw [hg, node?_push] at hn
          split at hn
          · cases hn
            rwa [hnew]
          · exact hnodes id n hn

theorem ofOperations_eq_ok {ops : List (Operation α)} {g : Graph α} (h : ofOperations ops = .ok g) :
    g.Built ∧ ∀ id n, g.node? id = some n → n.op ∈ ops :=
  Built.foldlM .empty (fun id n hn => by simp [node?, empty] at hn) (fun _ hop => hop) h

end Graph

namespace Workspace

variable {α : Type} [Element α]

/-- Workspaces that come about by new graphs and accepted requests. -/
inductive Built : Workspace α → Prop
  | empty : Built .empty
  | graph {w : Workspace α} : Built w → Built w.addGraph.1
  | request {w w' : Workspace α} {r : Request α} {h : Handle} :
      Built w → w.build r = .ok (w', h) → Built w'

omit [Element α] in
@[simp] theorem graph_addGraph (w : Workspace α) (i : Nat) : w.addGraph.1.graph i = w.graph i := by
  simp only [Workspace.graph, addGraph, Array.getD_eq_getD_getElem?, Array.getElem?_push]
  split
  · rename_i hi
    simp [hi]
  · rfl

omit [Element α] in
/-- The graphs of a workspace after a node has joined one of them. -/
theorem graph_modify (w : Workspace α) (j : Nat) (n : Node α) (i : Nat) :
    (⟨w.graphs.modify j (·.push n)⟩ : Workspace α).graph i
      = if i = j ∧ j < w.graphs.size then (w.graph i).push n else w.graph i := by
  simp only [Workspace.graph, Array.getD_eq_getD_getElem?, Array.getElem?_modify]
  by_cases hi : j = i
  · subst hi
    by_cases hlt : j < w.graphs.size
    · simp [hlt]
    · simp [hlt]
  · simp [hi, Ne.symm hi]

/-- An accepted request adds one node to one graph. -/
theorem build_eq_ok {w w' : Workspace α} {r : Request α} {h : Handle}
    (hb : w.build r = .ok (w', h)) :
    ∃ i op n, r.resolve = .ok (i, op) ∧ (w.graph i).nodeFor? op = .ok n ∧
      w' = ⟨w.graphs.modify i (·.push n)⟩ ∧ h = ⟨i, n.id, n.layout⟩ := by
  obtain ⟨⟨i, op⟩, hresolve, hb⟩ := Except.bind_eq_ok.mp hb
  obtain ⟨n, hn, hb⟩ := Except.bind_eq_ok.mp hb
  cases hb
  exact ⟨i, op, n, hresolve, hn, rfl, rfl⟩

/-- Whatever is requested through handles, each graph of a workspace has been built. -/
theorem Built.built_graph {w : Workspace α} (h : w.Built) (i : Nat) : (w.graph i).Built := by
  induction h with
  | empty => exact .empty
  | graph _ ih =>
      rw [graph_addGraph]
      exact ih
  | @request w w' r handle _ hb ih =>
      obtain ⟨j, op, n, _, hn, rfl, _⟩ := build_eq_ok hb
      rw [graph_modify]
      split
      · rename_i hij
        obtain ⟨rfl, _⟩ := hij
        exact .add ih (Except.bind_eq_ok.mpr ⟨n, hn, rfl⟩)
      · exact ih

end Workspace
end TensorGraph
