/-
# A run computes what the dense evaluator computes

The steps before the assignments, against the evaluator that gives every node
an array of its own.  `Tracks` relates the two after the nodes `before`:

* every value that is still needed lies where the plan put it;
* buffers that are not scratch are as they were when the run began.

One node keeps it (`Tracks.visit`), whichever way its place came about: a
source is where it was, a reading looks at a place that is tracked, and a step
writes only where nothing is needed any more.  When a node has no value the
step stops with the node's error, and only scratch has changed
(`Undisturbed`).  Contents that an earlier run left behind play no part: the
relation speaks of nothing that has not been visited in this one.
-/
import TensorGraph.Computation.Basic
import TensorGraph.Proofs.Steps

namespace TensorGraph

open Evaluation

variable {α : Type}

/-- What a place that a step writes guarantees. -/
structure Writable (s : Slice α) (σ : Sites) (before : List NodeId) (n : Node α) (q : Placement) :
    Prop where
  packed : q.layout.isPacked = true
  scratch : σ.role q.buffer = some .intermediate
  free : ∀ x ∈ before, ∀ r, σ.place x = some r → r.buffer = q.buffer →
    ¬ s.NeededFrom (before.length + 1) x
  aligned : ∀ x ∈ n.op.inputs, ∀ r, σ.place x = some r → r.buffer = q.buffer →
    r.layout = q.layout
  apart : n.op.isElementwise = false →
    q.layout = n.layout ∧ ∀ x ∈ n.op.inputs, ∀ r, σ.place x = some r → r.buffer ≠ q.buffer

theorem Sites.computes_kind {σ : Sites} {op : Operation α} (h : σ.computes op = true) :
    op.isSource = false ∧ op.isAssignment = false := by
  cases op with
  | placeholder | constant | persistent | assign => simp [computes] at h
  | _ => exact ⟨rfl, rfl⟩

theorem Hosted.writable [Element α] {s : Slice α} {σ : Sites} {before : List NodeId} {n : Node α}
    {q : Placement} {id : NodeId} (h : Hosted s σ before n q) (hsound : n.Sound s.graph id)
    (hin : ∀ x ∈ n.op.inputs, x ∈ before) (hcomputes : σ.computes n.op = true) :
    Writable s σ before n q := by
  cases h with
  | @fresh b _ _ _ hrole hnew =>
      have hrole' : Draft.roleOf n.op = .intermediate := by
        have := (Sites.computes_kind hcomputes).1
        cases hop : n.op with
        | placeholder | constant | persistent => simp [hop, Operation.isSource] at this
        | _ => rfl
      refine ⟨hsound.isPacked, hrole.trans (congrArg some hrole'),
        fun x hx r hr hb => absurd hb (hnew x hx r hr),
        fun x hx r hr hb => absurd hb (hnew x (hin x hx) r hr), fun _ => ⟨rfl, fun x hx r hr =>
          hnew x (hin x hx) r hr⟩⟩
  | reshaped hop hq hp => simp [hop, Sites.computes, hq, hp] at hcomputes
  | reordered hop | repeated hop | assigned hop => simp [hop, Sites.computes] at hcomputes
  | overwriting hel _ _ _ hp hrole hfree haligned =>
      exact ⟨hp, hrole, hfree, haligned, fun h => by simp [hel] at h⟩

/-- Only a step that works element by element can have nothing to do. -/
theorem Hosted.size_ne_zero {s : Slice α} {σ : Sites} {before : List NodeId} {n : Node α}
    {q : Placement} (h : Hosted s σ before n q) (hcomputes : σ.computes n.op = true)
    (hel : n.op.isElementwise = false) : n.layout.size ≠ 0 := by
  cases h with
  | fresh _ _ hsize => exact hsize
  | reshaped hop hq hp => simp [hop, Sites.computes, hq, hp] at hcomputes
  | reordered hop | repeated hop | assigned hop => simp [hop, Sites.computes] at hcomputes
  | overwriting hel' => cases hel.symm.trans hel'

/-- A source has a buffer to itself, and it is not scratch. -/
theorem Hosted.source {s : Slice α} {σ : Sites} {before : List NodeId} {n : Node α}
    {q : Placement} (h : Hosted s σ before n q) (hsource : n.op.isSource = true) :
    σ.role q.buffer = some (Draft.roleOf n.op) ∧
      (∀ x ∈ before, ∀ r, σ.place x = some r → r.buffer ≠ q.buffer) ∧
      Draft.roleOf n.op ≠ .intermediate ∧ q.layout = n.layout := by
  have hrole : Draft.roleOf n.op ≠ .intermediate := by
    cases hop : n.op with
    | placeholder | constant | persistent => simp [Draft.roleOf]
    | _ => simp [hop, Operation.isSource] at hsource
  cases h with
  | fresh _ _ _ hb hnew => exact ⟨hb, hnew, hrole, rfl⟩
  | reshaped hop | reordered hop | repeated hop | assigned hop =>
      simp [hop, Operation.isSource] at hsource
  | overwriting hel =>
      cases hop : n.op with
      | binary | unary => simp [hop, Operation.isSource] at hsource
      | _ => simp [hop, Operation.isElementwise] at hel

/-- A node that only reads another one shows its value where it lies. -/
theorem Hosted.reading [Element α] {s : Slice α} {σ : Sites} {before : List NodeId} {n : Node α}
    {q : Placement} (given : NodeId → Array α) {values : NodeId → Array α} {m : Memory α}
    (h : Hosted s σ before n q) (hrule : n.op.outputShape s.graph.shapeOf = .ok n.layout.shape)
    (hcomputes : σ.computes n.op = false) (hsource : n.op.isSource = false)
    (hassign : n.op.isAssignment = false)
    (hholds : ∀ x ∈ n.op.inputs, ∀ r, σ.place x = some r → m.Holds s.graph values x r) :
    evaluateNode s.graph given values n = .ok (m.view q).gather := by
  cases h with
  | fresh _ hread =>
      cases hop : n.op with
      | placeholder | constant | persistent => simp [hop, Operation.isSource] at hsource
      | reshape | broadcast | reorder => simp [hread (by rw [hop]; rfl)] at hcomputes
      | assign => simp [hop, Operation.isAssignment, Operation.target?] at hassign
      | _ => simp [hop, Sites.computes] at hcomputes
  | @reshaped x shape r hop hr hp =>
      have hx := hholds x (by simp [hop, Operation.inputs]) r hr
      rw [hop, Operation.reshape_eq_ok, ← hx.shape_eq] at hrule
      simp only [evaluateNode, hop]
      rw [← hx.gather_eq]
      exact congrArg Except.ok (View.gather_reshape hx.covers.regular hp hrule.1).symm
  | @reordered x order r hop hr =>
      have hx := hholds x (by simp [hop, Operation.inputs]) r hr
      rw [hop, Operation.reorder_eq_ok, ← hx.shape_eq] at hrule
      simp only [evaluateNode, hop]
      rw [← hx.gather_eq, ← hx.shape_eq]
      exact congrArg Except.ok
        (View.gather_transpose hx.covers.regular hrule.1.1 hrule.1.2).symm
  | @repeated x shape axes r hop hr =>
      have hx := hholds x (by simp [hop, Operation.inputs]) r hr
      rw [hop, Operation.broadcast_eq_ok, ← hx.shape_eq] at hrule
      simp only [evaluateNode, hop]
      rw [← hx.gather_eq]
      exact congrArg Except.ok (View.gather_broadcast hx.covers.regular hrule.2.1).symm
  | assigned hop => simp [hop, Operation.isAssignment, Operation.target?] at hassign
  | overwriting hel =>
      cases hop : n.op with
      | binary | unary => simp [hop, Sites.computes] at hcomputes
      | _ => simp [hop, Operation.isElementwise] at hel

/-! ## Bound steps -/

theorem Plan.placement_eq_ok {p : Plan} {id : NodeId} {q : Placement} :
    p.placement id = .ok q ↔ p.placements.get? id = some q := by
  rw [placement]
  cases p.placements.get? id with
  | none => simp
  | some r => simp

/-- The step of a node reads and writes where the plan puts the values. -/
theorem Computation.bindStep_eq_ok {g : Graph α} {p : Plan} {id : NodeId} {st : Step α}
    {n : Node α} {q : Placement} (h : bindStep g p id = .ok st) (hn : g.node? id = some n)
    (hq : p.placements.get? id = some q) :
    st.op = n.op ∧ st.output = q ∧
      List.Forall₂ (fun x r => p.placements.get? x = some r) n.op.inputs st.inputs := by
  obtain ⟨m, hm, h⟩ := Except.bind_eq_ok.mp h
  rw [Graph.node_eq_ok_iff, hn] at hm
  cases hm
  obtain ⟨inputs, hin, h⟩ := Except.bind_eq_ok.mp h
  obtain ⟨r, hr, h⟩ := Except.bind_eq_ok.mp h
  rw [Plan.placement_eq_ok, hq] at hr
  cases hr
  cases h
  exact ⟨rfl, rfl, (Except.mapM_eq_ok.mp hin).imp fun _ _ hx => Plan.placement_eq_ok.mp hx⟩

theorem Step.runAll_append [Element α] (xs ys : List (Step α)) (m : Memory α) :
    Step.runAll (xs ++ ys) m = match Step.runAll xs m with
      | (m', none) => Step.runAll ys m'
      | (m', some e) => (m', some e) := by
  induction xs generalizing m with
  | nil => rfl
  | cons x rest ih =>
      simp only [List.cons_append, Step.runAll]
      split
      · exact ih _
      · rfl

/-! ## The relation -/

/-- The memory fits the plan, and only scratch has changed since the start of the run. -/
structure Undisturbed (p : Plan) (start m : Memory α) : Prop where
  fits : m.Fits p
  kept : ∀ b, p.sites.role b ≠ some .intermediate → m.storage b = start.storage b

/-- After the nodes `before`, what is still needed of their values is in memory. -/
structure Tracks [Element α] (s : Slice α) (p : Plan) (start : Memory α) (before : List NodeId)
    (values : NodeId → Array α) (m : Memory α) : Prop where
  undisturbed : Undisturbed p start m
  holds : ∀ x ∈ before, s.runsLast x = false → s.NeededFrom before.length x →
    ∀ q, p.placements.get? x = some q → (m.view q).gather = values x

/-- The sources hold what is given for them. -/
def Sourced [Element α] (s : Slice α) (p : Plan) (given : NodeId → Array α) (m : Memory α) : Prop :=
  ∀ id ∈ s.order, ∀ n, s.graph.node? id = some n → n.op.isSource = true →
    ∀ q, p.placements.get? id = some q → (m.view q).gather = given id

/-- The custom operators of a slice can be relied on. -/
def Slice.Faithful [Element α] (s : Slice α) : Prop :=
  ∀ id ∈ s.order, ∀ n, s.graph.node? id = some n → ∀ f xs, n.op = .custom f xs → f.Faithful

/-- The custom operators of a slice leave their blocks as long as they were. -/
def Slice.Confined [Element α] (s : Slice α) : Prop :=
  ∀ id ∈ s.order, ∀ n, s.graph.node? id = some n → ∀ f xs, n.op = .custom f xs → f.Confined

theorem Slice.Faithful.confined [Element α] {s : Slice α} (h : s.Faithful) : s.Confined :=
  fun id hid n hn f xs hop => (h id hid n hn f xs hop).size_eq

theorem Slice.faithful_of_operations [Element α] {s : Slice α} {ops : List (Operation α)}
    (hg : Graph.ofOperations ops = .ok s.graph)
    (h : ∀ f xs, Operation.custom f xs ∈ ops → f.Faithful) : s.Faithful := by
  intro id _ n hn f xs hop
  exact h f xs (hop ▸ (Graph.ofOperations_eq_ok hg).2 id n hn)

section Visit

variable [Element α] {s : Slice α} {p : Plan} {given values : NodeId → Array α}
  {start m : Memory α} {before after : List NodeId} {id : NodeId} {n : Node α} {q : Placement}

/-- The inputs of the next node hold their values. -/
theorem Tracks.inputs (ht : Tracks s p start before values m) (hp : s.Planned p)
    (ho : s.order = before ++ id :: after) (hn : s.graph.node? id = some n) :
    ∀ x ∈ n.op.inputs, ∀ r, p.placements.get? x = some r → m.Holds s.graph values x r := by
  intro x hx r hr
  have hin : x ∈ s.graph.inputsOf id := Graph.inputsOf_of_node? hn ▸ hx
  have hid : id ∈ s.order := by simp [ho]
  refine ⟨hp.covers ht.undisturbed.fits hr, (hp.shaped hr).1, ht.holds x ?_ ?_ ?_ r hr⟩
  · exact hp.ordered.input_mem_before ho hin
  · exact hp.checked.reads_value id hid x hin
  · exact Slice.neededFrom_input ho hin

/-- At the end of the order, memory shows every value that is still needed. -/
theorem Tracks.shown (ht : Tracks s p start s.order values m) (hp : s.Planned p)
    (hid : id ∈ s.order) (hlast : s.runsLast id = false)
    (hneeded : s.NeededFrom s.order.length id) : m.shown p id = values id := by
  obtain ⟨q, hq⟩ := hp.place_of_mem hid
  rw [Memory.shown_of_place hq]
  exact ht.holds id hid hlast hneeded q hq

/-- The relation goes on to the next node if its value is in place and nothing
that is still needed has moved. -/
theorem Tracks.extend (ht : Tracks s p start before values m) (hid : id ∉ before)
    {m' : Memory α} (hundisturbed : Undisturbed p start m') {xs : Array α}
    (hnew : s.runsLast id = false → ∀ r, p.placements.get? id = some r → (m'.view r).gather = xs)
    (hold : ∀ x ∈ before, s.NeededFrom (before.length + 1) x →
      ∀ r, p.placements.get? x = some r → m'.view r = m.view r) :
    Tracks s p start (before ++ [id]) (record values id xs) m' := by
  refine ⟨hundisturbed, fun x hx hlast hneeded r hr => ?_⟩
  rw [List.length_append] at hneeded
  rcases List.mem_append.mp hx with hx | hx
  · have hne : x ≠ id := fun he => hid (he ▸ hx)
    rw [record_of_ne _ _ hne, hold x hx hneeded r hr]
    exact ht.holds x hx hlast (hneeded.anti (Nat.le_succ _)) r hr
  · obtain rfl := List.mem_singleton.mp hx
    rw [record_self]
    exact hnew hlast r hr

theorem visit_of_node? (hn : s.graph.node? id = some n) :
    Evaluation.visit s.graph given values id =
      match evaluateNode s.graph given values n with
      | .ok xs => .ok (record values id xs)
      | .error e => .error e := by
  rw [Evaluation.visit, Graph.node_eq_ok_iff.mpr hn]
  change (evaluateNode s.graph given values n >>= _) = _
  cases evaluateNode s.graph given values n with
  | ok xs => rfl
  | error e => rfl

/-- A node without a step: its value is in place already. -/
theorem Tracks.visit_placed (ht : Tracks s p start before values m) (hp : s.Planned p)
    (hsourced : Sourced s p given start) (ho : s.order = before ++ id :: after)
    (hcomputes : s.computes p.sites id = false) :
    ∃ values', Evaluation.visit s.graph given values id = .ok values' ∧
      Tracks s p start (before ++ [id]) values' m := by
  obtain ⟨n, q, hn, hq, hhosted⟩ := hp.hosted before id after ho
  have hid := hp.ordered.not_mem_before ho
  simp only [Slice.computes, hn, Option.any_some] at hcomputes
  rw [visit_of_node? hn]
  have extend : ∀ xs, (s.runsLast id = false → (m.view q).gather = xs) →
      Tracks s p start (before ++ [id]) (record values id xs) m := by
    intro xs hxs
    refine ht.extend hid ht.undisturbed (fun hlast r hr => ?_) fun _ _ _ _ _ => rfl
    cases hq.symm.trans hr
    exact hxs hlast
  cases hassign : n.op.isAssignment with
  | true =>
      cases hop : n.op with
      | assign target value =>
          refine ⟨_, by simp only [evaluateNode, hop], extend (values value) fun hlast => ?_⟩
          rw [Slice.runsLast_of_node? hn, hassign] at hlast
          cases hlast
      | _ => simp [hop, Operation.isAssignment, Operation.target?] at hassign
  | false =>
      cases hsource : n.op.isSource with
      | true =>
          have hgiven : evaluateNode s.graph given values n = .ok (given id) := by
            rw [← (hp.built.sound hn).id_eq]
            cases hop : n.op with
            | placeholder | constant | persistent => simp only [evaluateNode, hop]
            | _ => simp [hop, Operation.isSource] at hsource
          refine ⟨_, by rw [hgiven], extend (given id) fun _ => ?_⟩
          have hkept : m.view q = start.view q := by
            refine Memory.view_congr (ht.undisturbed.kept q.buffer ?_)
            obtain ⟨hrole, _, hne, _⟩ := hhosted.source hsource
            rw [hrole]
            exact fun he => hne (Option.some.inj he)
          rw [hkept]
          exact hsourced id (by simp [ho]) n hn hsource q hq
      | false =>
          have hreading := hhosted.reading given (hp.built.sound hn).shape_eq hcomputes
            hsource hassign (ht.inputs hp ho hn)
          exact ⟨_, by rw [hreading], extend _ fun _ => rfl⟩

/-- Where the plan lets a step write. -/
theorem Slice.Planned.writable (hp : s.Planned p) (ho : s.order = before ++ id :: after)
    (hcomputes : s.computes p.sites id = true) : ∃ n q, s.graph.node? id = some n ∧
      p.placements.get? id = some q ∧ Writable s p.sites before n q := by
  obtain ⟨n, q, hn, hq, hhosted⟩ := hp.hosted before id after ho
  simp only [Slice.computes, hn, Option.any_some] at hcomputes
  refine ⟨n, q, hn, hq, hhosted.writable (hp.built.sound hn) (fun x hx => ?_) hcomputes⟩
  exact hp.ordered.input_mem_before ho (Graph.inputsOf_of_node? hn ▸ hx)

/-- Once the inputs of a node hold their values, the step of the node finds all that
it relies on. -/
theorem Slice.Planned.ready (hp : s.Planned p) (ho : s.order = before ++ id :: after)
    (hn : s.graph.node? id = some n) (hcomputes : s.computes p.sites id = true) {st : Step α}
    (hst : Computation.bindStep s.graph p id = .ok st) (hm : m.Fits p)
    (hholds : ∀ x ∈ n.op.inputs, ∀ r, p.placements.get? x = some r → m.Holds s.graph values x r) :
    st.Ready s.graph values n m := by
  obtain ⟨n', q, hn', hq, hwritable⟩ := hp.writable ho hcomputes
  cases hn'.symm.trans hn
  obtain ⟨hop, rfl, hin⟩ := Computation.bindStep_eq_ok hst hn hq
  refine ⟨hop, hp.covers hm hq, hwritable.packed, ?_, ?_, fun r hr hb => ?_, fun hel => ?_⟩
  · rw [(hp.shaped hq).1, Graph.shapeOf_of_node? hn]
  · refine ((List.forall₂_and_left n.op.inputs st.inputs).mpr ⟨fun _ hx => hx, hin⟩).imp ?_
    exact fun x r hx => hholds x hx.1 r hx.2
  · obtain ⟨x, hx, hplace⟩ := hin.exists_left hr
    exact hwritable.aligned x hx r hplace hb
  · refine ⟨(hwritable.apart hel).1, fun r hr => ?_⟩
    obtain ⟨x, hx, hplace⟩ := hin.exists_left hr
    exact (hwritable.apart hel).2 x hx r hplace

variable (given) in
/-- A node with a step: the step stops with the node's error, or writes its value. -/
theorem Tracks.visit_computed (ht : Tracks s p start before values m) (hp : s.Planned p)
    (hfaithful : s.Faithful) (ho : s.order = before ++ id :: after)
    (hcomputes : s.computes p.sites id = true) {st : Step α}
    (hst : Computation.bindStep s.graph p id = .ok st) :
    match Evaluation.visit s.graph given values id with
    | .ok values' => ∃ m', st.run m = (m', none) ∧ Tracks s p start (before ++ [id]) values' m'
    | .error e => ∃ m', st.run m = (m', some e) ∧ Undisturbed p start m' := by
  obtain ⟨n, q, hn, hq, hwritable⟩ := hp.writable ho hcomputes
  have hid := hp.ordered.not_mem_before ho
  have hcovers := hp.covers ht.undisturbed.fits hq
  have hready := hp.ready ho hn hcomputes hst ht.undisturbed.fits (ht.inputs hp ho hn)
  obtain ⟨_, rfl, _⟩ := Computation.bindStep_eq_ok hst hn hq
  simp only [Slice.computes, hn, Option.any_some] at hcomputes
  obtain ⟨block, hsize, hrun⟩ := hready.run given hcomputes (hp.built.sound hn).shape_eq
    fun f xs hf => hfaithful id (by simp [ho]) n hn f xs hf
  have hwritten : ∀ {xs : Array α}, xs.size = st.output.layout.size →
      Undisturbed p start (m.write st.output xs) := by
    intro xs hxs
    refine ⟨hcovers.fits_write hwritable.packed ht.undisturbed.fits hxs, fun b hb => ?_⟩
    rw [Memory.storage_write_of_ne, ht.undisturbed.kept b hb]
    rintro rfl
    exact hb hwritable.scratch
  rw [visit_of_node? hn]
  cases hev : evaluateNode s.graph given values n with
  | ok xs =>
      simp only [hev] at hrun ⊢
      obtain ⟨hrun, rfl⟩ := hrun
      refine ⟨_, hrun, ht.extend hid (hwritten hsize) (fun _ r hr => ?_)
        fun x hx hneeded r hr => ?_⟩
      · cases hq.symm.trans hr
        exact hcovers.gather_write hwritable.packed hsize
      · refine Memory.view_write_of_ne _ _ fun hb => ?_
        exact hwritable.free x hx r hr hb hneeded
  | error e =>
      simp only [hev] at hrun ⊢
      exact ⟨_, hrun, hwritten hsize⟩

/-- From related states on, the remaining steps do what the remaining visits do. -/
theorem Tracks.run (ht : Tracks s p start before values m) (hp : s.Planned p)
    (hfaithful : s.Faithful) (hsourced : Sourced s p given start) (ho : s.order = before ++ after)
    {sts : List (Step α)}
    (hsts : List.Forall₂ (fun id st => Computation.bindStep s.graph p id = .ok st)
      (after.filter (s.computes p.sites)) sts) :
    match after.foldlM (Evaluation.visit s.graph given) values with
    | .ok values' => ∃ m', Step.runAll sts m = (m', none) ∧ Tracks s p start s.order values' m'
    | .error e => ∃ m', Step.runAll sts m = (m', some e) ∧ Undisturbed p start m' := by
  induction after generalizing before values m sts with
  | nil =>
      rw [List.filter_nil, List.forall₂_nil_left_iff] at hsts
      subst hsts
      rw [List.append_nil] at ho
      exact ⟨m, rfl, ho ▸ ht⟩
  | cons id rest ih =>
      have ho' : s.order = (before ++ [id]) ++ rest := by rw [ho]; simp
      rw [List.foldlM_cons]
      cases hcomputes : s.computes p.sites id with
      | false =>
          rw [List.filter_cons_of_neg (by simp [hcomputes])] at hsts
          obtain ⟨values', hvisit, ht'⟩ := ht.visit_placed hp hsourced ho hcomputes
          rw [hvisit]
          exact ih ht' ho' hsts
      | true =>
          rw [List.filter_cons_of_pos hcomputes, List.forall₂_cons_left_iff] at hsts
          obtain ⟨st, sts', hst, hsts', rfl⟩ := hsts
          have hvisit := ht.visit_computed given hp hfaithful ho hcomputes hst
          cases hv : Evaluation.visit s.graph given values id with
          | ok values' =>
              rw [hv] at hvisit
              obtain ⟨m', hrun, ht'⟩ := hvisit
              simp only [Step.runAll, hrun]
              exact ih ht' ho' hsts'
          | error e =>
              rw [hv] at hvisit
              obtain ⟨m', hrun, hundisturbed⟩ := hvisit
              simp only [Step.runAll, hrun]
              exact ⟨m', rfl, hundisturbed⟩

end Visit

end TensorGraph
