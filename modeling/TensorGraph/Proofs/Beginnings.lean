/-
# What variables begin with

A variable is populated from its initial value, for as many elements as it has, with words
of a stream of its own.  The seed of the stream is made of two words,

    the configured seed     xor     the number of the variable times an odd constant

and tells both of them apart: `xor` with a word loses nothing, and neither does
multiplication by an odd word, which has an inverse modulo `2 ^ 64`.

| seeds of two streams | |
| :-- | :-- |
| of two variables, from one configured seed, are different | `Kernel.streamSeed_eq_iff` |
| of one variable, from two configured seeds, are different | `Kernel.streamSeed_left_eq_iff` |

Nothing else finds its way into the contents.  `InitialValue.contents` does not know of the
slice, of its plan, of where the plan puts the variable or when it is its turn, nor of what
the storage held before; and these are the contents that population leaves in every
computation (`Slice.Fresh.populate_declared`).
-/
import TensorGraph.Proofs.Compilation

namespace TensorGraph

variable {α : Type} [Element α]

/-! ## Seeds of streams -/

namespace Kernel

/-- Words are told apart by their products with a word that has an inverse. -/
theorem mul_injective_of_inverse {a b : UInt64} (h : a * b = 1) :
    Function.Injective fun x : UInt64 => x * a := by
  have hinverse : Function.LeftInverse (fun x : UInt64 => x * b) fun x => x * a := by
    intro x
    calc x * a * b = x * (a * b) := UInt64.mul_assoc x a b
      _ = x := by rw [h, UInt64.mul_one]
  exact hinverse.injective

/-- Node numbers that fit in a word are told apart by the words that they come to. -/
theorem ofNat_index_inj {id id' : NodeId} (hid : id.index < UInt64.size)
    (hid' : id'.index < UInt64.size) :
    UInt64.ofNat id.index = UInt64.ofNat id'.index ↔ id = id' := by
  constructor
  · intro hword
    have hindex : id.index = id'.index := by
      rw [← UInt64.toNat_ofNat_of_lt' hid, hword, UInt64.toNat_ofNat_of_lt' hid']
    exact congrArg NodeId.mk hindex
  · rintro rfl
    rfl

/-- The streams of two variables have two seeds. -/
theorem streamSeed_eq_iff (seed : UInt64) {id id' : NodeId} (hid : id.index < UInt64.size)
    (hid' : id'.index < UInt64.size) : streamSeed seed id = streamSeed seed id' ↔ id = id' := by
  -- the constant is odd, so there is a word that undoes the multiplication
  have hinverse : (0x9E3779B97F4A7C15 : UInt64) * 0xF1DE83E19937733D = 1 := by decide
  rw [streamSeed, streamSeed, UInt64.xor_right_inj, (mul_injective_of_inverse hinverse).eq_iff,
    ofNat_index_inj hid hid']

/-- Two configured seeds give one variable two streams. -/
theorem streamSeed_left_eq_iff (id : NodeId) {seed seed' : UInt64} :
    streamSeed seed id = streamSeed seed' id ↔ seed = seed' :=
  UInt64.xor_left_inj _

end Kernel

/-! ## Contents of variables -/

/-- The contents that an initial value makes of `count` elements, with the stream of the
given seed. -/
def InitialValue.contents (init : InitialValue α) (stream : UInt64) (count : Nat) : Array α :=
  Kernel.populate init stream (Array.replicate count Element.zero)

namespace Slice

/-- A node of the slice is a variable, with this initial value and so many elements. -/
structure Declares (s : Slice α) (id : NodeId) (init : InitialValue α) (count : Nat) : Prop where
  mem : id ∈ s.order
  node : ∃ n shape, s.graph.node? id = some n ∧ n.op = .persistent shape init ∧ shape.size = count

/-- A computation of the slice with the configured seed: whatever was called on it, it has
storage and has not been populated. -/
inductive Fresh (s : Slice α) (overwriting : Bool) (seed : UInt64) : Computation α → Prop
  | after {δ : Type} [Device δ α] {c₀ : Computation α} (h : s.Compiles overwriting seed c₀)
      (calls : List (Call α δ)) (hallocated : (c₀.after calls).phase = .allocated) :
      Fresh s overwriting seed (c₀.after calls)

variable {s s' : Slice α} {overwriting : Bool} {seed : UInt64} {c : Computation α} {id : NodeId}
  {init : InitialValue α} {count : Nat}

omit [Element α] in
/-- Other slices of the graph that have the node declare the same variable. -/
theorem Declares.of_graph_eq (h : s.Declares id init count) (hgraph : s'.graph = s.graph)
    (hid : id ∈ s'.order) : s'.Declares id init count := by
  refine ⟨hid, ?_⟩
  rw [hgraph]
  exact h.node

/-- A declared variable begins with its contents. -/
theorem Declares.initial_eq (h : s.Declares id init count) (hbuilt : s.graph.Built)
    (seed : UInt64) : s.initial seed id = init.contents (Kernel.streamSeed seed id) count := by
  obtain ⟨n, shape, hn, hop, rfl⟩ := h.node
  have hshape : n.layout.shape = shape := by
    have hrule := (hbuilt.sound hn).shape_eq
    rw [hop, Operation.persistent_eq_ok] at hrule
    exact hrule.2.symm
  obtain ⟨_, op, layout⟩ := n
  obtain rfl : op = .persistent shape init := hop
  simp only [Slice.initial, hn]
  rw [hshape]
  rfl

/-- Population leaves every constant and every variable with what it begins with, wherever the
plan puts it. -/
theorem Fresh.populate_initial (h : s.Fresh overwriting seed c) (hid : id ∈ s.order) {n : Node α}
    (hn : s.graph.node? id = some n) (hpopulated : (Draft.roleOf n.op).populated = true) :
    c.populate.2 = .ok () ∧ c.populate.1.memory.shown c.plan id = s.initial seed id := by
  cases h with
  | @after δ _ c₀ h calls hallocated =>
      obtain ⟨hbound, hseed, _⟩ := h.bound
      have hliving := Computation.after_living h.living_self calls
      have hc := hliving.bound hbound
      have hfits : (c₀.after calls).memory.Fits (c₀.after calls).plan :=
        hliving.plan_eq ▸ hliving.fits (by rw [hallocated]; rfl)
      -- calls change nothing but storage and phase, so the presets draw from what was configured
      have hsame : (c₀.after calls).seed = seed := by
        rw [hliving.alike]
        exact hseed
      have hshown := hc.shown_presets hfits hid hn hpopulated (c₀.after calls).seed
      rw [hsame] at hshown
      simp only [Computation.populate, hallocated, hsame]
      exact ⟨trivial, hshown⟩

/-- So a declared variable gets its contents. -/
theorem Fresh.populate_declared (h : s.Fresh overwriting seed c)
    (hid : s.Declares id init count) :
    c.populate.2 = .ok () ∧ c.populate.1.memory.shown c.plan id
      = init.contents (Kernel.streamSeed seed id) count := by
  obtain ⟨n, shape, hn, hop, _⟩ := hid.node
  have hbuilt : s.graph.Built := by
    cases h with
    | after h => exact h.built
  rw [← hid.initial_eq hbuilt seed]
  exact h.populate_initial hid.mem hn (by rw [hop]; rfl)

end Slice

/-- Streams are separate, and variables begin alike:

* two variables, whose numbers fit in a word, have two streams, and one variable has two for
  two configured seeds;
* what population leaves in a variable is a function of its initial value, of the seed of its
  stream, which is made of the configured seed and its number, and of its count of elements;
* so it is the same for all slices of a graph that have the variable, with and without
  overwriting. -/
theorem InitialValue.separated_streams :
    (∀ (seed : UInt64) (id id' : NodeId), id.index < UInt64.size → id'.index < UInt64.size →
      id ≠ id' → Kernel.streamSeed seed id ≠ Kernel.streamSeed seed id') ∧
    (∀ (id : NodeId) (seed seed' : UInt64), seed ≠ seed' →
      Kernel.streamSeed seed id ≠ Kernel.streamSeed seed' id) ∧
    (∀ (s : Slice α) (overwriting : Bool) (seed : UInt64) (c : Computation α),
      s.Fresh overwriting seed c → ∀ id init count, s.Declares id init count →
      c.populate.2 = .ok () ∧ c.populate.1.memory.shown c.plan id
        = init.contents (Kernel.streamSeed seed id) count) ∧
    ∀ (s s' : Slice α) (overwriting overwriting' : Bool) (seed : UInt64) (c c' : Computation α),
      s.Fresh overwriting seed c → s'.Fresh overwriting' seed c' → s'.graph = s.graph →
      ∀ id init count, s.Declares id init count → id ∈ s'.order →
      c'.populate.1.memory.shown c'.plan id = c.populate.1.memory.shown c.plan id := by
  refine ⟨?_, ?_, ?_, ?_⟩
  · intro seed id id' hid hid' hne
    exact mt (Kernel.streamSeed_eq_iff seed hid hid').mp hne
  · intro id seed seed' hne
    exact mt (Kernel.streamSeed_left_eq_iff id).mp hne
  · intro s overwriting seed c hfresh id init count hid
    exact hfresh.populate_declared hid
  · intro s s' overwriting overwriting' seed c c' hfresh hfresh' hgraph id init count hid hmem
    rw [(hfresh.populate_declared hid).2,
      (hfresh'.populate_declared (hid.of_graph_eq hgraph hmem)).2]

/-! ### Two variables with the same initial value -/

namespace Weights

/-- A variable with two samples. -/
def weight (i : Nat) : Node UInt8 :=
  ⟨⟨i⟩, .persistent ⟨[2]⟩ (.uniform 0 200), .packed .u8 ⟨[2]⟩⟩

/-- Two variables and their sum. -/
def graph : Graph UInt8 :=
  ⟨#[weight 0, weight 1, ⟨⟨2⟩, .binary .add ⟨0⟩ ⟨1⟩, .packed .u8 ⟨[2]⟩⟩]⟩

theorem built : graph.Built := by
  have hops : Graph.ofOperations (graph.nodes.toList.map (·.op)) = .ok graph := rfl
  exact (Graph.ofOperations_eq_ok hops).1

/-- The sum is asked for, for which both variables are needed. -/
def sum : Slice UInt8 := ⟨graph, [⟨0⟩, ⟨1⟩, ⟨2⟩], [⟨2⟩], []⟩

/-- Only the second variable is asked for. -/
def second : Slice UInt8 := ⟨graph, [⟨1⟩], [⟨1⟩], []⟩

theorem sum_isOk : (sum.compile true 7).isOk = true := rfl

theorem second_isOk : (second.compile false 7).isOk = true := rfl

/-- With the sum, the second variable is in the second buffer. -/
def summed : Computation UInt8 :=
  (Except.get _ sum_isOk).after [.allocate (HostDevice.plain : HostDevice UInt8)]

/-- Alone, it is in the first. -/
def alone : Computation UInt8 :=
  (Except.get _ second_isOk).after [.allocate (HostDevice.plain : HostDevice UInt8)]

theorem fresh_summed : sum.Fresh true 7 summed :=
  .after ⟨built, by cbv, Except.eq_ok_get sum_isOk⟩ _ rfl

theorem fresh_alone : second.Fresh false 7 alone :=
  .after ⟨built, by cbv, Except.eq_ok_get second_isOk⟩ _ rfl

/-- The two variables have two streams, and the second has two for two configured seeds.  In
another place of another plan it has the same contents. -/
theorem separated_streams_weights :
    Kernel.streamSeed 7 ⟨0⟩ ≠ Kernel.streamSeed 7 ⟨1⟩ ∧
    Kernel.streamSeed 7 ⟨1⟩ ≠ Kernel.streamSeed 8 ⟨1⟩ ∧
    (summed.plan.placements.get? ⟨1⟩).map (·.buffer) = some 1 ∧
    (alone.plan.placements.get? ⟨1⟩).map (·.buffer) = some 0 ∧
    summed.populate.1.memory.shown summed.plan ⟨1⟩ = #[36, 16] ∧
    alone.populate.1.memory.shown alone.plan ⟨1⟩ = #[36, 16] := by
  obtain ⟨hnodes, hseeds, hcontents, halike⟩ := InitialValue.separated_streams (α := UInt8)
  have hsecond : sum.Declares ⟨1⟩ (.uniform 0 200) 2 := ⟨by decide, weight 1, ⟨[2]⟩, rfl, rfl, rfl⟩
  have hshown : summed.populate.1.memory.shown summed.plan ⟨1⟩ = #[36, 16] := by
    rw [(hcontents sum true 7 summed fresh_summed ⟨1⟩ _ _ hsecond).2]
    decide +kernel
  refine ⟨hnodes 7 ⟨0⟩ ⟨1⟩ (by decide) (by decide) (by decide), hseeds ⟨1⟩ 7 8 (by decide),
    rfl, rfl, hshown, ?_⟩
  rw [← hshown]
  exact halike sum second true false 7 summed alone fresh_summed fresh_alone rfl ⟨1⟩ _ _ hsecond
    (by decide)

end Weights

end TensorGraph
