/-
# What a run can fail with

The strict program has no result where something goes astray.  What is left are
the errors that the caller is meant to see, and these are few:

| error | of |
| :-- | :-- |
| no result | a division |
| not a category | a one-hot encoding |
| any | a custom operator, which made it |

Nothing is assumed of the plan or of the storage here: `Step.fault_of_run?` reads
the errors off a strict step, and `Computation.error_of_execute?` off a strict call.
-/
import TensorGraph.Proofs.Strict

namespace TensorGraph

variable {α δ : Type} [Element α]

/-- The errors that stop a step. -/
inductive Step.Fault (st : Step α) : Error → Prop
  | quotient {lhs rhs : NodeId} :
      st.op = .binary .divide lhs rhs →
      Fault st (.plain (.noResult .divide (Element.kind α)))
  | category {input : NodeId} {depth axis : Nat} {x : Float} :
      st.op = .oneHot input depth axis → Kernel.isCategory depth x = false →
      Fault st (.plain (.notCategory x depth))
  | custom {f : CustomOperator α} {inputs : List NodeId} {views : List (View α)}
      {block : Array α} {error : Error} :
      st.op = .custom f inputs → (f.compute views st.output.layout block).failure = some error →
      Fault st error

/-! ## Kernels -/

namespace Kernel

omit [Element α] in
theorem replaceAt?_stopped {f : Nat → α → Option (Option α)} {positions : List Nat}
    {block written : Array α} (h : replaceAt? f positions block = some (written, false)) :
    ∃ i x, f i x = some none := by
  induction positions generalizing block with
  | nil => cases h
  | cons i rest ih =>
      obtain ⟨x, _, h⟩ := Option.bind_eq_some_iff.mp h
      obtain ⟨result, hresult, h⟩ := Option.bind_eq_some_iff.mp h
      cases result with
      | none => exact ⟨i, x, hresult⟩
      | some y => exact ih h

variable {block : Array α} {result : Outcome α}

/-- Of the operators on two operands only a division stops. -/
theorem binary?_stopped {operator : BinaryOperator} {lhs rhs : Operand α} {e : Error}
    (h : binary? operator lhs rhs block = some result) (he : result.failure = some e) :
    operator = .divide ∧ e = .plain (.noResult operator (Element.kind α)) := by
  obtain ⟨⟨written, complete⟩, hreplace, h⟩ := Option.bind_eq_some_iff.mp h
  cases complete with
  | true =>
      cases h
      cases he
  | false =>
      cases h
      cases he
      refine ⟨?_, rfl⟩
      obtain ⟨i, current, h⟩ := replaceAt?_stopped hreplace
      obtain ⟨x, _, h⟩ := Option.bind_eq_some_iff.mp h
      obtain ⟨y, _, h⟩ := Option.bind_eq_some_iff.mp h
      refine Decidable.byContradiction fun hne => ?_
      have hsome := operator.isSome_value? x y hne
      rw [Option.some.inj h] at hsome
      cases hsome

theorem unary?_complete {operator : UnaryOperator} {operand : Operand α}
    (h : unary? operator operand block = some result) : result.failure = none := by
  obtain ⟨_, _, h⟩ := Option.bind_eq_some_iff.mp h
  cases h
  rfl

theorem reduce?_complete {reduction : Reduction} {axes : List Nat} {v : View α}
    (h : reduce? reduction axes v block = some result) : result.failure = none := by
  obtain ⟨_, _, h⟩ := Option.bind_eq_some_iff.mp h
  cases h
  rfl

theorem contract?_complete {contracted : Nat} {lhs rhs : View α}
    (h : contract? contracted lhs rhs block = some result) : result.failure = none := by
  obtain ⟨_, _, h⟩ := Option.bind_eq_some_iff.mp h
  obtain ⟨_, _, h⟩ := Option.bind_eq_some_iff.mp h
  obtain ⟨_, _, h⟩ := Option.bind_eq_some_iff.mp h
  cases h
  rfl

theorem maxPool?_complete {window strides : List Nat} {v : View α} {output : Layout}
    (h : maxPool? window strides v output block = some result) : result.failure = none := by
  obtain ⟨_, _, h⟩ := Option.bind_eq_some_iff.mp h
  cases h
  rfl

/-- An encoding stops at an element that is no category. -/
theorem markCategories?_stopped {depth inner : Nat} {v : View α} {positions : List Nat} {e : Error}
    (h : markCategories? depth inner v positions block = some result)
    (he : result.failure = some e) :
    ∃ x, isCategory depth x = false ∧ e = .plain (.notCategory x depth) := by
  induction positions generalizing block with
  | nil =>
      cases h
      cases he
  | cons i rest ih =>
      obtain ⟨y, _, h⟩ := Option.bind_eq_some_iff.mp h
      dsimp only at h
      cases hcategory : isCategory depth (Element.toFloat y) with
      | true =>
          rw [hcategory, if_pos rfl] at h
          obtain ⟨_, _, h⟩ := Option.bind_eq_some_iff.mp h
          obtain ⟨_, _, h⟩ := Option.bind_eq_some_iff.mp h
          exact ih h
      | false =>
          rw [hcategory, if_neg Bool.false_ne_true] at h
          cases h
          cases he
          exact ⟨_, hcategory, rfl⟩

theorem oneHot?_stopped {depth axis : Nat} {v : View α} {e : Error}
    (h : oneHot? depth axis v block = some result) (he : result.failure = some e) :
    ∃ x, isCategory depth x = false ∧ e = .plain (.notCategory x depth) := by
  obtain ⟨_, _, h⟩ := Option.bind_eq_some_iff.mp h
  exact markCategories?_stopped h he

end Kernel

/-! ## Steps -/

namespace Step

variable {st : Step α} {slots slots' : Slots α} {e : Error}

theorem fault_of_outcome? {block : Array α} {result : Outcome α}
    (h : st.outcome? slots block = some result) (he : result.failure = some e) : st.Fault e := by
  have never : result.failure ≠ none := by simp [he]
  unfold outcome? at h
  split at h
  · rename_i hop _
    obtain ⟨_, _, h⟩ := Option.bind_eq_some_iff.mp h
    obtain ⟨_, _, h⟩ := Option.bind_eq_some_iff.mp h
    obtain ⟨rfl, rfl⟩ := Kernel.binary?_stopped h he
    exact .quotient hop
  · obtain ⟨_, _, h⟩ := Option.bind_eq_some_iff.mp h
    exact absurd (Kernel.unary?_complete h) never
  · obtain ⟨_, _, h⟩ := Option.bind_eq_some_iff.mp h
    obtain ⟨_, _, h⟩ := Option.bind_eq_some_iff.mp h
    cases h
    cases he
  · obtain ⟨_, _, h⟩ := Option.bind_eq_some_iff.mp h
    exact absurd (Kernel.reduce?_complete h) never
  · obtain ⟨_, _, h⟩ := Option.bind_eq_some_iff.mp h
    obtain ⟨_, _, h⟩ := Option.bind_eq_some_iff.mp h
    exact absurd (Kernel.contract?_complete h) never
  · rename_i hop _
    obtain ⟨_, _, h⟩ := Option.bind_eq_some_iff.mp h
    obtain ⟨x, hx, rfl⟩ := Kernel.oneHot?_stopped h he
    exact .category hop hx
  · obtain ⟨_, _, h⟩ := Option.bind_eq_some_iff.mp h
    exact absurd (Kernel.maxPool?_complete h) never
  · rename_i hop
    obtain ⟨_, _, h⟩ := Option.bind_eq_some_iff.mp h
    cases h
    exact .custom hop he
  · obtain ⟨operand, _, h⟩ := Option.bind_eq_some_iff.mp h
    cases operand with
    | inPlace =>
        cases h
        cases he
    | view v =>
        obtain ⟨_, _, h⟩ := Option.bind_eq_some_iff.mp h
        cases h
        cases he
  · cases h

theorem fault_of_run? (h : st.run? slots = some (slots', some e)) : st.Fault e := by
  obtain ⟨_, _, h⟩ := Option.bind_eq_some_iff.mp h
  obtain ⟨_, _, h⟩ := Option.bind_eq_some_iff.mp h
  obtain ⟨result, hresult, h⟩ := Option.bind_eq_some_iff.mp h
  obtain ⟨_, _, h⟩ := Option.bind_eq_some_iff.mp h
  exact fault_of_outcome? hresult (Prod.mk.inj (Option.some.inj h)).2

theorem fault_of_runAll? {sts : List (Step α)} (h : runAll? sts slots = some (slots', some e)) :
    ∃ st ∈ sts, st.Fault e := by
  induction sts generalizing slots with
  | nil => cases h
  | cons st rest ih =>
      obtain ⟨⟨next, failure⟩, hrun, h⟩ := Option.bind_eq_some_iff.mp h
      cases failure with
      | none =>
          obtain ⟨st', hst', hfault⟩ := ih h
          exact ⟨st', List.mem_cons_of_mem _ hst', hfault⟩
      | some e' =>
          cases h
          exact ⟨st, List.mem_cons_self, fault_of_run? hrun⟩

end Step

/-! ## Calls -/

/-- A call on inputs that fit answers with the error of a step, or with that of a
device which cannot be waited for. -/
theorem Computation.error_of_execute? [Device δ α] {c : Computation α} {device device' : δ}
    {inputs : List (Tensor α)} (hcheck : c.checkInputs inputs = .ok ()) {slots : Slots α}
    {e : Error} (h : c.execute? device inputs = some (slots, device', .error e)) :
    (∃ st ∈ c.steps, st.Fault e) ∨ (Device.synchronize device).2 = .error e := by
  obtain ⟨_, _, h⟩ := Option.bind_eq_some_iff.mp h
  rw [hcheck] at h
  obtain ⟨loaded, _, h⟩ := Option.bind_eq_some_iff.mp h
  obtain ⟨⟨after, failure⟩, hrun, h⟩ := Option.bind_eq_some_iff.mp h
  cases failure with
  | some e' =>
      cases h
      exact .inl (Step.fault_of_runAll? hrun)
  | none =>
      dsimp only at h
      split at h
      · rename_i hsync
        cases h
        exact .inr (by rw [hsync])
      · obtain ⟨_, _, h⟩ := Option.bind_eq_some_iff.mp h
        cases h

end TensorGraph
