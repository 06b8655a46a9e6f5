/-
# Computations of one engine are isolated

An engine's computations share a device, and with it the memory that goes back and
forth between them.  None of them can tell: what is seen on one computation is what
would be seen if it were the only one, on a device of its own that keeps no memory.

| | |
| :-- | :-- |
| `Action`, `act` | what a caller may do with an engine, and what comes of it |
| `own`, `ownActions` | the actions that one computation receives, as if it were alone |
| `seen` | the answers to these, each with how the computation stands then |

A run of the engine keeps each of its computations equal, capacities of storage
forgotten, to the computation that receives its own actions alone (`Alike`).  One
action keeps it (`Alike.kept`), whether or not it is the computation's own.
-/
import TensorGraph.Engine
import TensorGraph.Proofs.Capacities

namespace TensorGraph

variable {α : Type}

/-! ## Actions on an engine -/

namespace Engine

/-- What a caller may do with an engine.  Graphs grow between the actions, so each
compilation comes with the graphs as they are then. -/
inductive Action (α : Type) where
  | compile (w : Workspace α) (outputs parameters : List Handle)
  | call (i : Nat) (inputs : List (Tensor α))
  | replace (i : Nat) (name : String) (s : Storage α)
  | release (i : Nat)
  | close

/-- What the caller is answered: of a new computation without its number, and of
returned storage the elements. -/
inductive Answer (α : Type) where
  | compiled (result : Except Error Unit)
  | called (result : Except Error (Outputs α))
  | returned (result : Except Error (Array α))
  | released

variable {δ : Type} [Element α] [Device δ α]

/-- The engine and its device after an action, and the answer. -/
def act (e : Engine α) (device : δ) : Action α → Engine α × δ × Answer α
  | .compile w outputs parameters =>
    let (e, device, result) := e.compile device w outputs parameters
    (e, device, .compiled (result.map fun _ => ()))
  | .call i inputs =>
    let (e, device, result) := e.call device i inputs
    (e, device, .called result)
  | .replace i name s =>
    let (e, result) := e.replace i name s
    (e, device, .returned (result.map (·.data)))
  | .release i =>
    let (e, device) := e.release device i
    (e, device, .released)
  | .close =>
    let (e, device) := e.close device
    (e, device, .released)

/-- An action that leads from `e` to `e'`, as the computation with number `i` would
receive it alone, where it has number 0; closing releases it.  Actions before it was
compiled and actions on other computations are not its own. -/
def own (e e' : Engine α) (i : Nat) : Action α → Option (Action α)
  | .compile w outputs parameters =>
    if (e.computation? i).isNone ∧ (e'.computation? i).isSome then
      some (.compile w outputs parameters)
    else none
  | .call j inputs => if j = i ∧ (e.computation? i).isSome then some (.call 0 inputs) else none
  | .replace j name s =>
    if j = i ∧ (e.computation? i).isSome then some (.replace 0 name s) else none
  | .release j => if j = i ∧ (e.computation? i).isSome then some (.release 0) else none
  | .close => if (e.computation? i).isSome then some (.release 0) else none

/-- The actions of a run that are a computation's own, as it would receive them alone. -/
def ownActions (i : Nat) : Engine α → δ → List (Action α) → List (Action α)
  | _, _, [] => []
  | e, device, a :: rest =>
    let (e', device, _) := e.act device a
    (e.own e' i a).toList ++ ownActions i e' device rest

/-- What can be told of a computation without running it. -/
def standing (e : Engine α) (i : Nat) : Option (Phase × Plan × String) :=
  (e.computation? i).map fun c => (c.phase, c.plan, c.listing)

/-- What is seen on a computation in the course of a run: for each of its own actions
the answer, and how the computation stands then. -/
def seen (i : Nat) : Engine α → δ → List (Action α) →
    List (Answer α × Option (Phase × Plan × String))
  | _, _, [] => []
  | e, device, a :: rest =>
    let (e', device, answer) := e.act device a
    match e.own e' i a with
    | some _ => (answer, e'.standing i) :: seen i e' device rest
    | none => seen i e' device rest

/-! ## One action -/

omit [Element α] in
theorem computation?_update (e : Engine α) (i j : Nat) (c : Computation α) :
    (e.update j c).computation? i
      = if j = i ∧ (e.computation? i).isSome then some c else e.computation? i := by
  simp only [computation?, update, Array.getElem?_setIfInBounds]
  by_cases hj : j = i
  · subst hj
    by_cases hlt : j < e.computations.size
    · simp [hlt]
    · simp [hlt]
  · simp [hj]

theorem releaseAll_fst (d : HostDevice α) (cs : List (Computation α)) :
    (releaseAll d cs).1 = cs.map fun c => (c.release (.plain : HostDevice α)).1 := by
  induction cs generalizing d with
  | nil => rfl
  | cons c rest ih => simp only [releaseAll, List.map_cons, ih, c.release_fst d .plain]

theorem computation?_close (e : Engine α) (d : HostDevice α) (i : Nat) :
    (e.close d).1.computation? i
      = (e.computation? i).map fun c => (c.release (.plain : HostDevice α)).1 := by
  simp only [computation?, close, releaseAll_fst]
  simp

/-- A compilation in which nothing fails. -/
theorem compile_eq {e : Engine α} {d : HostDevice α} {w : Workspace α}
    {outputs parameters : List Handle} {c : Computation α} (hopen : e.closed = false)
    (hprepare : prepare e.config w outputs parameters = .ok c)
    (hallocate : (c.allocate d).2.2 = .ok ()) (hpopulate : (c.allocate d).1.populate.2 = .ok ()) :
    e.compile d w outputs parameters =
      ({ e with computations := e.computations.push (c.allocate d).1.populate.1 },
        (c.allocate d).2.1, .ok e.computations.size) := by
  rw [compile, if_neg (by simp [hopen]), hprepare]
  dsimp only
  revert hallocate hpopulate
  rcases c.allocate d with ⟨c₁, d₁, e₁ | _⟩
  · exact fun hallocate => nomatch hallocate
  · dsimp only
    rcases c₁.populate with ⟨c₂, e₂ | _⟩
    · exact fun _ hpopulate => nomatch hpopulate
    · exact fun _ _ => rfl

/-- What a compilation comes to on a host device. -/
theorem compile_cases (e : Engine α) (d : HostDevice α) (w : Workspace α)
    (outputs parameters : List Handle) :
    (e.compile d w outputs parameters).1 = e ∨
      ∃ c, e.closed = false ∧ prepare e.config w outputs parameters = .ok c ∧
        (c.allocate d).2.2 = .ok () ∧ (c.allocate d).1.populate.2 = .ok () := by
  unfold compile
  split
  · exact .inl rfl
  · rename_i hopen
    split
    · exact .inl rfl
    · rename_i c hprepare
      rcases hallocate : c.allocate d with ⟨c₁, d₁, e₁ | _⟩
      · exact .inl rfl
      · rcases hpopulate : c₁.populate with ⟨c₂, e₂ | _⟩
        · exact .inl (by simp only [hpopulate])
        · refine .inr ⟨c, by simpa using hopen, hprepare, ?_, ?_⟩
          · rw [hallocate]
          · rw [hallocate, hpopulate]

/-- The computation with number `i` of an engine is as far as the computation that is
alone on another engine, which has been opened with the same configuration. -/
structure Alike (i : Nat) (e alone : Engine α) : Prop where
  config_eq : alone.config = e.config
  none_yet : e.computation? i = none → alone = .new e.config
  one : ∀ c, e.computation? i = some c →
    ∃ c', alone.computation? 0 = some c' ∧ c'.bare = c.bare

omit [Element α] in
theorem Alike.standing_eq {i : Nat} {e alone : Engine α} (h : Alike i e alone) :
    alone.standing 0 = e.standing i := by
  rw [standing, standing]
  cases hc : e.computation? i with
  | none =>
      rw [h.none_yet hc]
      rfl
  | some c =>
      obtain ⟨c', hc', hbare⟩ := h.one c hc
      rw [hc']
      have hsame := congrArg (fun c => (c.phase, c.plan, c.listing)) hbare
      exact congrArg some hsame

/-! ## Runs -/

/-- What happens alone when an action happens on the engine: nothing if it is not the
computation's own, and otherwise the same. -/
def Alike.Kept (i : Nat) (e alone : Engine α) (d d' : HostDevice α) (a : Action α) : Prop :=
  (e.own (e.act d a).1 i a = none → Alike i (e.act d a).1 alone) ∧
  ∀ b, e.own (e.act d a).1 i a = some b →
    alone.own (alone.act d' b).1 0 b = some b ∧
      (alone.act d' b).2.2 = (e.act d a).2.2 ∧ Alike i (e.act d a).1 (alone.act d' b).1

section Alike

variable {i : Nat} {e alone : Engine α} (h : Alike i e alone)

include h

omit [Element α] in
theorem Alike.update_other {j : Nat} (hj : j ≠ i) (c : Computation α) :
    Alike i (e.update j c) alone := by
  have hsame : (e.update j c).computation? i = e.computation? i := by
    rw [computation?_update, if_neg fun hji => hj hji.1]
  exact ⟨h.config_eq, hsame ▸ h.none_yet, hsame ▸ h.one⟩

omit [Element α] in
theorem Alike.update_self {c c' c₁ c₁' : Computation α} (hc : e.computation? i = some c)
    (hc' : alone.computation? 0 = some c') (hbare : c₁'.bare = c₁.bare) :
    Alike i (e.update i c₁) (alone.update 0 c₁') := by
  have hnew : (e.update i c₁).computation? i = some c₁ := by simp [computation?_update, hc]
  have hnew' : (alone.update 0 c₁').computation? 0 = some c₁' := by
    simp [computation?_update, hc']
  refine ⟨h.config_eq, fun hnone => ?_, fun c₂ hc₂ => ⟨c₁', hnew', ?_⟩⟩
  · rw [hnew] at hnone
    cases hnone
  · cases hnew.symm.trans hc₂
    exact hbare

/-- An action on the computation with number `j`, which is `b` when the computation is
alone. -/
theorem Alike.kept_one {d d' : HostDevice α} {j : Nat} {a b : Action α}
    (hown : ∀ e', e.own e' i a = if j = i ∧ (e.computation? i).isSome then some b else none)
    (hown' : ∀ e', alone.own e' 0 b = if (alone.computation? 0).isSome then some b else none)
    (hnone : e.computation? j = none → (e.act d a).1 = e)
    (hsome : ∀ c, e.computation? j = some c → ∃ c₁, (e.act d a).1 = e.update j c₁ ∧
      ∀ c', alone.computation? 0 = some c' → c'.bare = c.bare →
        ∃ c₁', (alone.act d' b).1 = alone.update 0 c₁' ∧
          (alone.act d' b).2.2 = (e.act d a).2.2 ∧ c₁'.bare = c₁.bare) :
    Kept i e alone d d' a := by
  rw [Kept, hown]
  by_cases hj : j = i
  · subst hj
    cases hc : e.computation? j with
    | none =>
        rw [hnone hc]
        exact ⟨fun _ => h, by simp⟩
    | some c =>
        obtain ⟨c₁, he, halone⟩ := hsome c hc
        obtain ⟨c', hc', hbare⟩ := h.one c hc
        obtain ⟨c₁', he', hanswer, hbare'⟩ := halone c' hc' hbare
        refine ⟨by simp, fun b' hb => ?_⟩
        obtain rfl : b = b' := by simpa using hb
        refine ⟨by simp [hown', hc'], hanswer, ?_⟩
        rw [he, he']
        exact h.update_self hc hc' hbare'
  · refine ⟨fun _ => ?_, by simp [hj]⟩
    cases hc : e.computation? j with
    | none =>
        rw [hnone hc]
        exact h
    | some c =>
        obtain ⟨c₁, he, _⟩ := hsome c hc
        rw [he]
        exact h.update_other hj c₁

theorem Alike.kept_call (d d' : HostDevice α) (j : Nat) (inputs : List (Tensor α)) :
    Kept i e alone d d' (.call j inputs) := by
  refine h.kept_one (b := .call 0 inputs) (fun _ => rfl) (fun _ => by simp [own])
    (fun hc => by simp only [act, call, hc]) fun c hc => ?_
  refine ⟨(c.run d inputs).1, by simp only [act, call, hc], fun c' hc' hbare => ?_⟩
  obtain ⟨hresult, hafter⟩ := Computation.run_alike hbare d d' inputs
  exact ⟨(c'.run d' inputs).1, by simp only [act, call, hc'],
    by simp only [act, call, hc, hc', hresult], hafter⟩

theorem Alike.kept_replace (d d' : HostDevice α) (j : Nat) (name : String) (s : Storage α) :
    Kept i e alone d d' (.replace j name s) := by
  refine h.kept_one (b := .replace 0 name s) (fun _ => rfl) (fun _ => by simp [own])
    (fun hc => by simp only [act, replace, hc]) fun c hc => ?_
  refine ⟨(c.replace name s).1, by simp only [act, replace, hc], fun c' hc' hbare => ?_⟩
  obtain ⟨hresult, hafter⟩ := Computation.replace_alike hbare name s
  exact ⟨(c'.replace name s).1, by simp only [act, replace, hc'],
    by simp only [act, replace, hc, hc', hresult], hafter⟩

theorem Alike.kept_release (d d' : HostDevice α) (j : Nat) :
    Kept i e alone d d' (.release j) := by
  refine h.kept_one (b := .release 0) (fun _ => rfl) (fun _ => by simp [own])
    (fun hc => by simp only [act, release, hc]) fun c hc => ?_
  refine ⟨(c.release d).1, by simp only [act, release, hc], fun c' hc' hbare => ?_⟩
  exact ⟨(c'.release d').1, by simp only [act, release, hc'], rfl,
    Computation.release_alike hbare d d'⟩

/-- Closing is to each computation what its release is. -/
theorem Alike.kept_close (d d' : HostDevice α) : Kept i e alone d d' .close := by
  have hclosed := e.computation?_close d i
  refine ⟨fun hown => ?_, fun b hb => ?_⟩
  · have hnone : e.computation? i = none := by simpa [own] using hown
    rw [hnone] at hclosed
    refine ⟨h.config_eq, fun _ => h.none_yet hnone, fun c hc => ?_⟩
    cases hclosed.symm.trans hc
  · cases hc : e.computation? i with
    | none => simp [own, hc] at hb
    | some c =>
        obtain rfl : Action.release 0 = b := by simpa [own, hc] using hb
        obtain ⟨c', hc', hbare⟩ := h.one c hc
        rw [hc] at hclosed
        have halone : (alone.act d' (.release 0)).1 = alone.update 0 (c'.release d').1 := by
          simp only [act, release, hc']
        refine ⟨by simp [own, hc'], rfl, ?_⟩
        rw [halone]
        refine ⟨h.config_eq, fun hnone => ?_, fun c₁ hc₁ => ⟨(c'.release d').1, ?_, ?_⟩⟩
        · cases hclosed.symm.trans hnone
        · simp [computation?_update, hc']
        · cases hclosed.symm.trans hc₁
          exact Computation.release_alike hbare .plain d'

theorem Alike.kept_compile (d d' : HostDevice α) (w : Workspace α)
    (outputs parameters : List Handle) :
    Kept i e alone d d' (.compile w outputs parameters) := by
  rcases e.compile_cases d w outputs parameters with
    hsame | ⟨c, hopen, hprepare, hallocate, hpopulate⟩
  · have hact : (e.act d (.compile w outputs parameters)).1 = e := hsame
    rw [Kept, hact]
    refine ⟨fun _ => h, fun b hb => ?_⟩
    cases hc : e.computation? i with
    | none => simp [own, hc] at hb
    | some c => simp [own, hc] at hb
  · have hcompile := compile_eq hopen hprepare hallocate hpopulate
    have hafter : (e.act d (.compile w outputs parameters)).1.computation? i
        = if i = e.computations.size then some (c.allocate d).1.populate.1
          else e.computation? i := by
      simp only [act, hcompile, computation?, Array.getElem?_push]
    by_cases hi : i = e.computations.size
    · rw [if_pos hi] at hafter
      have hnone : e.computation? i = none := by simp [computation?, hi]
      obtain rfl := h.none_yet hnone
      -- the same computation is prepared, and the device makes no difference
      obtain ⟨hresult, hattached⟩ := c.allocate_bare d' d
      obtain ⟨hresult', hpopulated⟩ := Computation.populate_alike hattached
      have halone : (Engine.new e.config : Engine α).act d' (.compile w outputs parameters)
          = (⟨e.config, #[(c.allocate d').1.populate.1], false⟩, (c.allocate d').2.1,
              .compiled (.ok ())) := by
        rw [act, compile_eq (e := .new e.config) rfl hprepare (hresult.trans hallocate)
          (hresult'.trans hpopulate)]
        rfl
      refine ⟨fun hown => by simp [own, hnone, hafter] at hown, fun b hb => ?_⟩
      obtain rfl : Action.compile w outputs parameters = b := by
        simpa [own, hnone, hafter] using hb
      rw [halone]
      refine ⟨by simp [own, computation?, new], by simp only [act, hcompile, Except.map],
        by simp only [act, hcompile], fun hnone' => ?_,
        fun c₁ hc₁ => ⟨(c.allocate d').1.populate.1, rfl, ?_⟩⟩
      · cases hafter.symm.trans hnone'
      · cases hafter.symm.trans hc₁
        exact hpopulated
    · rw [if_neg hi] at hafter
      refine ⟨fun _ => ⟨?_, fun hnone => ?_, fun c₁ hc₁ => h.one c₁ (hafter ▸ hc₁)⟩, fun b hb => ?_⟩
      · simp only [act, hcompile]
        exact h.config_eq
      · simp only [act, hcompile]
        exact h.none_yet (hafter ▸ hnone)
      · cases hc : e.computation? i with
        | none => simp [own, hafter, hc] at hb
        | some c => simp [own, hc] at hb

theorem Alike.kept (d d' : HostDevice α) (a : Action α) : Kept i e alone d d' a := by
  cases a with
  | compile w outputs parameters => exact h.kept_compile d d' w outputs parameters
  | call j inputs => exact h.kept_call d d' j inputs
  | replace j name s => exact h.kept_replace d d' j name s
  | release j => exact h.kept_release d d' j
  | close => exact h.kept_close d d'

/-- From there on, what is seen is what is seen alone. -/
theorem Alike.seen_eq (d d' : HostDevice α) (actions : List (Action α)) :
    e.seen i d actions = alone.seen 0 d' (e.ownActions i d actions) := by
  induction actions generalizing e alone d d' with
  | nil => rfl
  | cons a rest ih =>
      obtain ⟨hothers, hown⟩ := h.kept d d' a
      rw [seen, ownActions]
      cases hb : e.own (e.act d a).1 i a with
      | none =>
          simp only [hb, Option.toList_none, List.nil_append]
          exact ih (hothers hb) _ _
      | some b =>
          obtain ⟨hb', hanswer, hafter⟩ := hown b hb
          have hstanding := hafter.standing_eq
          simp only [Option.toList_some, List.cons_append, List.nil_append, seen, hb', hanswer,
            hstanding, hb]
          rw [ih hafter]

end Alike

omit [Element α] in
theorem alike_new (config : EngineConfig) (i : Nat) :
    Alike i (.new config : Engine α) (.new config) :=
  ⟨rfl, fun _ => rfl, fun c hc => by simp [computation?, new] at hc⟩

/-- Whatever happens on an engine with a host device, pooled or not: what is seen on
each of its computations, answers and standing, is what is seen when that computation
alone receives its own actions, in the same order, from an engine of the same
configuration whose device keeps no memory. -/
theorem isolated (config : EngineConfig) (device : HostDevice α) (actions : List (Action α))
    (i : Nat) :
    (Engine.new config).seen i device actions
      = (Engine.new config).seen 0 (.plain : HostDevice α)
          ((Engine.new config).ownActions i device actions) :=
  (alike_new config i).seen_eq device .plain actions

end Engine
end TensorGraph
