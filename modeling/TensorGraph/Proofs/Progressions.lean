/-
# Variables that begin with a progression

Element `i` of a progression is meant to be `start + i * step`.  It is computed with 64-bit
floats: the start, the step and the index are rounded to floats, multiplied and added, each
time with rounding, and the sum is cut off to an element again.  So for whole numbers,

| elements | an element of the progression that the type has is exact |
| :-- | :-- |
| of 8 or 32 bits | always |
| of 64 bits | when the start, `i * step` and the element are `Rounding.Short` |

Nothing is asked of the step and the index themselves: what divides a short number is short
(`Short.of_mul`), and zero times anything is zero (`number_mul_zero`).  Of the elements of 64
bits that are not short none ever comes out but the greatest, at which the cut stops.
-/
import TensorGraph.Proofs.Compilation
import TensorGraph.Proofs.Exactness

namespace TensorGraph

/-! ## Elements and floats -/

namespace Element

open Rounding Float.Model Integral

/-- Elements that stand for whole numbers, as 64-bit floats and back. -/
class Convertible (α : Type) [Element α] [Integral α] : Prop where
  toFloat_eq (x : α) : Element.toFloat x = .ofModel (.pack (.ofInt Format.binary64 (value x)))
  ofFloat_eq {x : Float} {y : α} (h : number? x.toModel.unpack = some (value y : ℚ)) :
    Element.ofFloat x = y
  short_ofFloat (h : Element.kind α = .i64) (x : Float) :
    Short (value (Element.ofFloat x : α)) ∨ value (Element.ofFloat x : α) = 2 ^ 63 - 1

namespace Convertible

instance : Convertible UInt8 where
  toFloat_eq _ := rfl
  ofFloat_eq {x y} h := by
    show UInt8.ofNatClamp (x.toModel.unpack.toInt 0 (UInt8.size - 1)).toNat = y
    rw [toInt_of_number h]
    exact UInt8.ofNatClamp_toNat y
  short_ofFloat h := nomatch h

instance : Convertible UInt32 where
  toFloat_eq _ := rfl
  ofFloat_eq {x y} h := by
    show UInt32.ofNatClamp (x.toModel.unpack.toInt 0 (UInt32.size - 1)).toNat = y
    rw [toInt_of_number h]
    exact UInt32.ofNatClamp_toNat y
  short_ofFloat h := nomatch h

instance : Convertible Int32 where
  toFloat_eq _ := rfl
  ofFloat_eq {x y} h := by
    show Int32.ofIntClamp (x.toModel.unpack.toInt _ _) = y
    rw [toInt_of_number h]
    exact Int32.ofIntClamp_toInt y
  short_ofFloat h := nomatch h

instance : Convertible Int64 where
  toFloat_eq _ := rfl
  ofFloat_eq {x y} h := by
    show Int64.ofIntClamp (x.toModel.unpack.toInt _ _) = y
    rw [toInt_of_number h]
    exact Int64.ofIntClamp_toInt y
  short_ofFloat _ x := by
    have hlowest : Short Int64.minValue.toInt := ⟨1, 63, by decide, by decide⟩
    show Short (Int64.ofIntClamp (x.toModel.unpack.toInt Int64.minValue.toInt
      Int64.maxValue.toInt)).toInt ∨ (Int64.ofIntClamp _).toInt = _
    rw [Int64.ofIntClamp]
    split
    · split
      · rw [Int64.toInt_ofIntLE]
        rcases short_toInt x Int64.minValue.toInt Int64.maxValue.toInt with hshort | hlow | hhigh
        · exact .inl hshort
        · rw [hlow]
          exact .inl hlowest
        · exact .inr (hhigh.trans Int64.toInt_maxValue)
      · exact .inr Int64.toInt_maxValue
    · exact .inl hlowest

variable {α : Type} [Element α] [Integral α] [Convertible α]

/-- A short element stands for the same number as a float. -/
theorem number_toFloat {x : α} (h : Short (value x)) :
    number? (Element.toFloat x).toModel.unpack = some (value x : ℚ) := by
  rw [toFloat_eq]
  exact number_ofInt_of_short h (Nat.lt_trans (natAbs_lt x) (by decide))

/-- Every element stands for some number as a float. -/
theorem exists_number (x : α) : ∃ q, number? (Element.toFloat x).toModel.unpack = some q := by
  rw [toFloat_eq]
  exact exists_number_ofInt (natAbs_lt x)

end Convertible
end Element

/-! ## Elements of a progression -/

namespace Kernel

open Rounding Element Element.Integral

variable {α : Type} [Element α] [Element.Integral α] [Element.Convertible α]

/-- A multiple of an element, as a float. -/
theorem number_multiple {i : Nat} (hi : i < 2 ^ 64) {x : α} (hshort : Short (i * value x))
    (hsmall : (i * value x).natAbs < 2 ^ 200) :
    number? (i.toFloat * Element.toFloat x).toModel.unpack = some ((i * value x : Int) : ℚ) := by
  by_cases hzero : (i : Int) = 0 ∨ value x = 0
  · -- one factor is zero, and the other one need not be exact
    rw [mul_eq_zero.mpr hzero, Int.cast_zero]
    rcases hzero with hi0 | hx0
    · obtain ⟨q, hq⟩ := Convertible.exists_number x
      have hshort0 : Short (i : Int) := short_of_lt (by rw [hi0]; decide)
      have hindex := number_toFloat hshort0 hi
      exact number_mul_zero hindex hq (.inl (by exact_mod_cast hi0))
    · obtain ⟨q, hq⟩ := exists_number_toFloat hi
      have hshort0 : Short (value x) := short_of_lt (by rw [hx0]; decide)
      have hstep := Convertible.number_toFloat hshort0
      exact number_mul_zero hq hstep (.inr (by rw [hx0, Int.cast_zero]))
  · obtain ⟨hi0, hx0⟩ := not_or.mp hzero
    have hindex : Short (i : Int) := hshort.of_mul hx0
    have hstep : Short (value x) := by
      rw [Int.mul_comm] at hshort
      exact hshort.of_mul hi0
    have hcast := number_toFloat hindex hi
    rw [← Int.cast_natCast] at hcast
    exact number_mul hcast (Convertible.number_toFloat hstep) hshort hsmall

/-- A member of a progression, computed with floats. -/
theorem ofFloat_progression {start step y : α} {i : Nat} (hi : i < 2 ^ 64)
    (hy : value y = value start + i * value step)
    (hshort : Element.kind α = .i64 →
      Short (value start) ∧ Short (i * value step) ∧ Short (value y)) :
    Element.ofFloat (Element.toFloat start + i.toFloat * Element.toFloat step) = y := by
  have hstart := natAbs_lt start
  have hvalue := natAbs_lt y
  have hall : Short (value start) ∧ Short (i * value step) ∧ Short (value y) := by
    by_cases hkind : Element.kind α = .i64
    · exact hshort hkind
    · have hstart' := natAbs_lt_of_ne hkind start
      have hvalue' := natAbs_lt_of_ne hkind y
      exact ⟨short_of_lt (by omega), short_of_lt (by omega), short_of_lt (by omega)⟩
  have hproduct := number_multiple hi hall.2.1 (by omega)
  have hsum := number_add (Convertible.number_toFloat hall.1) hproduct (hy ▸ hall.2.2) (by omega)
  exact Convertible.ofFloat_eq (hy ▸ hsum)

/-- The same, among the contents that a variable begins with. -/
theorem populate_arange {start step y : α} {seed : UInt64} {block : Array α} {i : Nat}
    (hlt : i < block.size) (hi : i < 2 ^ 64) (hy : value y = value start + i * value step)
    (hshort : Element.kind α = .i64 →
      Short (value start) ∧ Short (i * value step) ∧ Short (value y)) :
    (populate (.arange start step) seed block)[i]? = some y := by
  rw [populate, Array.getElem?_mapIdx, Array.getElem?_eq_getElem hlt]
  exact congrArg some (ofFloat_progression hi hy hshort)

/-- Elements of 64 bits that are not short are not among them, the greatest one apart. -/
theorem short_populate_arange {start step x : α} {seed : UInt64} {block : Array α} {i : Nat}
    (hx : (populate (.arange start step) seed block)[i]? = some x)
    (hkind : Element.kind α = .i64) : Short (value x) ∨ value x = 2 ^ 63 - 1 := by
  rw [populate, Array.getElem?_mapIdx] at hx
  obtain ⟨_, _, rfl⟩ := Option.map_eq_some_iff.mp hx
  exact Convertible.short_ofFloat hkind _

/-- Beyond `2 ^ 53` an element may come out as the one before it. -/
example : populate (.arange (9007199254740992 : Int64) 1) 0 #[0, 0]
    = #[9007199254740992, 9007199254740992] := by
  decide +kernel

end Kernel

/-! ## Variables of a computation -/

/-- Buffers have less than `2 ^ 64` bytes, so the indices of a source fit in 64 bits. -/
theorem Slice.Planned.size_lt {α : Type} [Element α] {s : Slice α} {p : Plan} (hp : s.Planned p)
    {id : NodeId} {n : Node α} (hid : id ∈ s.order) (hn : s.graph.node? id = some n)
    (hsource : n.op.isSource = true) : n.layout.shape.size < 2 ^ 64 := by
  obtain ⟨q, hq⟩ := hp.place_of_mem hid
  obtain ⟨hshape, hregular⟩ := hp.shaped hq
  obtain ⟨_, hlt, hextent⟩ := hp.inside id q hq
  obtain ⟨n', _, _, _, hbuffer⟩ := hp.opened q.buffer hlt
  have hpacked := (hp.source hn hsource hq).1
  calc n.layout.shape.size
      = q.layout.size := by rw [Layout.size, hshape, Graph.shapeOf_of_node? hn]
    _ ≤ q.layout.start + q.layout.size := Nat.le_add_left _ _
    _ ≤ q.layout.extent := Layout.start_add_size_le_extent hregular hpacked
    _ ≤ (p.buffer q.buffer).elements := hextent
    _ ≤ (p.buffer q.buffer).elements * n'.layout.kind.bytes :=
        Nat.le_mul_of_pos_right _ n'.layout.kind.bytes_pos
    _ = (p.buffer q.buffer).bytes := (congrArg Buffer.bytes hbuffer).symm
    _ < 2 ^ 64 := (hp.sized q.buffer hlt).2.1

namespace Slice.Compiles

open Evaluation Rounding Element.Integral

variable {α δ : Type} [Element α] [Element.Integral α] [Element.Convertible α] [Device δ α]
  {s : Slice α} {overwriting : Bool} {seed : UInt64} {c₀ : Computation α}

/-- What a variable that begins with a progression holds after population, whatever was
called before:

* as many elements as its shape has;
* where the type has the number that the progression asks for, exactly this number, unless it
  or what it is computed from is an integer of 64 bits that is not short;
* no integers of 64 bits that are not short, but for the greatest. -/
theorem progression (h : s.Compiles overwriting seed c₀) (calls : List (Call α δ))
    (hallocated : (c₀.after calls).phase = .allocated) {id : NodeId} (hid : id ∈ s.order)
    {n : Node α} (hn : s.graph.node? id = some n) {shape : Shape} {start step : α}
    (hop : n.op = .persistent shape (.arange start step)) :
    (c₀.after calls).populate.2 = .ok () ∧
      ((c₀.after calls).populate.1.memory.shown c₀.plan id).size = shape.size ∧
      (∀ i < shape.size, ∀ y : α, value y = value start + i * value step →
        (Element.kind α = .i64 →
          Short (value start) ∧ Short (i * value step) ∧ Short (value y)) →
        ((c₀.after calls).populate.1.memory.shown c₀.plan id)[i]? = some y) ∧
      ∀ (i : Nat) (x : α), ((c₀.after calls).populate.1.memory.shown c₀.plan id)[i]? = some x →
        Element.kind α = .i64 → Short (value x) ∨ value x = 2 ^ 63 - 1 := by
  have hliving := Computation.after_living h.living_self calls
  have hc := hliving.bound h.bound.1
  have hfits : (c₀.after calls).memory.Fits (c₀.after calls).plan :=
    hliving.plan_eq ▸ hliving.fits (by rw [hallocated]; rfl)
  have hsource : n.op.isSource = true := by rw [hop]; rfl
  have hlt := hc.planned.size_lt hid hn hsource
  have hrule := (hc.planned.built.sound hn).shape_eq
  rw [hop, Operation.persistent_eq_ok] at hrule
  have hshown := hc.shown_presets hfits hid hn (by rw [hop]; rfl) (c₀.after calls).seed
  obtain ⟨_, op, layout⟩ := n
  obtain rfl : op = .persistent shape (.arange start step) := hop
  obtain rfl : layout.shape = shape := hrule.2.symm
  simp only [Computation.populate, hallocated]
  rw [← hliving.plan_eq, hshown]
  simp only [initial, hn]
  refine ⟨trivial, ?_, fun i hi y hy hshort => ?_, fun i x hx => ?_⟩
  · rw [Kernel.size_populate, size_blank]
  · have hblank : i < (blank layout.shape : Array α).size := by rwa [size_blank]
    exact Kernel.populate_arange hblank (Nat.lt_trans hi hlt) hy hshort
  · exact Kernel.short_populate_arange hx

end Slice.Compiles

/-! ### Long elements with few significant bits -/

namespace Ladder

/-- A variable with the elements `2 ^ 60`, `2 ^ 60 + 2 ^ 55` and `2 ^ 60 + 2 ^ 56`. -/
def operations : List (Operation Int64) :=
  [.persistent ⟨[3]⟩ (.arange 0x1000000000000000 0x80000000000000)]

theorem accepted : (Graph.ofOperations operations).isOk = true := rfl

def slice : Slice Int64 := ⟨Except.get _ accepted, [⟨0⟩], [⟨0⟩], []⟩

theorem compile_isOk : (slice.compile true 0).isOk = true := rfl

def compiled : Computation Int64 := Except.get _ compile_isOk

theorem compiles : slice.Compiles true 0 compiled :=
  ⟨(Graph.ofOperations_eq_ok (Except.eq_ok_get accepted)).1, by cbv,
    Except.eq_ok_get compile_isOk⟩

theorem progression_ladder :
    ((compiled.after [.allocate (HostDevice.plain : HostDevice Int64)]).populate.1.memory.shown
      compiled.plan ⟨0⟩)[2]? = some 0x1100000000000000 := by
  have hshort : Rounding.Short (2 ^ 60) ∧ Rounding.Short (2 * 2 ^ 55) ∧
      Rounding.Short (2 ^ 60 + 2 ^ 56) :=
    ⟨⟨1, 60, by decide, by decide⟩, ⟨1, 56, by decide, by decide⟩, ⟨17, 56, by decide, by decide⟩⟩
  have hid : (⟨0⟩ : NodeId) ∈ slice.order := by decide
  obtain ⟨_, _, hexact, _⟩ := compiles.progression
    [.allocate (HostDevice.plain : HostDevice Int64)] rfl hid rfl rfl
  exact hexact 2 (by decide) _ (by decide) fun _ => hshort

end Ladder

end TensorGraph
