/-
# Elements that stand for whole numbers

`value` is the number that an element stands for.  What the types of whole numbers have
in common is said of it once:

| | |
| :-- | :-- |
| each element | has a number of its own, at or above that of the least element and less than `modulus` above it |
| sum, product | the sum, the product of the numbers, up to multiples of `modulus` |
| order | the order of the numbers |

So an element is determined by its number up to multiples of `modulus`
(`eq_of_modEq`), and a fold of elements by the same fold of their numbers:
`isResidue_foldl_add` for sums, `isGreatest_fold` for maxima.
-/
import Mathlib.Data.Int.ModEq
import TensorGraph.Element.Integer
import TensorGraph.Operator

namespace TensorGraph

namespace Element

/-- Two to the power of the width in bits. -/
def modulus (α : Type) [Element α] : Int := 2 ^ (8 * (Element.kind α).bytes)

/-- Elements that stand for whole numbers, with arithmetic modulo the width of the type. -/
class Integral (α : Type) [Element α] where
  value : α → Int
  integral_kind : (Element.kind α).integral = true
  value_injective : Function.Injective value
  lowest_le (x : α) : value Element.lowest ≤ value x
  lt_add_modulus (x : α) : value x < value (Element.lowest : α) + modulus α
  value_zero : value Element.zero = 0
  value_add (x y : α) : value (Element.add x y) ≡ value x + value y [ZMOD modulus α]
  value_mul (x y : α) : value (Element.mul x y) ≡ value x * value y [ZMOD modulus α]
  lt_iff (x y : α) : Element.lt x y = true ↔ value x < value y

namespace Integral

/-! ## The four types -/

theorem modEq_of_eq_mod {a b n : Nat} (h : a = b % 2 ^ n) : (a : Int) ≡ b [ZMOD 2 ^ n] := by
  subst h
  simp [Int.ModEq]

theorem modEq_of_eq_bmod {a b : Int} {n : Nat} (h : a = b.bmod (2 ^ n)) : a ≡ b [ZMOD 2 ^ n] := by
  subst h
  simpa [Int.ModEq] using Int.bmod_emod (x := b) (m := 2 ^ n)

instance : Integral UInt8 where
  value x := x.toNat
  integral_kind := rfl
  value_injective _ _ h := UInt8.toNat_inj.mp (Int.ofNat_inj.mp h)
  lowest_le _ := Int.natCast_nonneg _
  lt_add_modulus x := Int.ofNat_lt.mpr x.toNat_lt
  value_zero := rfl
  value_add x y := modEq_of_eq_mod (UInt8.toNat_add x y)
  value_mul x y := modEq_of_eq_mod (UInt8.toNat_mul x y)
  lt_iff x y := by simp [Element.lt, UInt8.lt_iff_toNat_lt]

instance : Integral UInt32 where
  value x := x.toNat
  integral_kind := rfl
  value_injective _ _ h := UInt32.toNat_inj.mp (Int.ofNat_inj.mp h)
  lowest_le _ := Int.natCast_nonneg _
  lt_add_modulus x := Int.ofNat_lt.mpr x.toNat_lt
  value_zero := rfl
  value_add x y := modEq_of_eq_mod (UInt32.toNat_add x y)
  value_mul x y := modEq_of_eq_mod (UInt32.toNat_mul x y)
  lt_iff x y := by simp [Element.lt, UInt32.lt_iff_toNat_lt]

instance : Integral Int32 where
  value := Int32.toInt
  integral_kind := rfl
  value_injective _ _ h := Int32.toInt_inj.mp h
  lowest_le x := x.le_toInt
  lt_add_modulus x := x.toInt_lt
  value_zero := rfl
  value_add x y := modEq_of_eq_bmod (Int32.toInt_add x y)
  value_mul x y := modEq_of_eq_bmod (Int32.toInt_mul x y)
  lt_iff x y := by simp [Element.lt, Int32.lt_iff_toInt_lt]

instance : Integral Int64 where
  value := Int64.toInt
  integral_kind := rfl
  value_injective _ _ h := Int64.toInt_inj.mp h
  lowest_le x := x.le_toInt
  lt_add_modulus x := x.toInt_lt
  value_zero := rfl
  value_add x y := modEq_of_eq_bmod (Int64.toInt_add x y)
  value_mul x y := modEq_of_eq_bmod (Int64.toInt_mul x y)
  lt_iff x y := by simp [Element.lt, Int64.lt_iff_toInt_lt]

/-! ## Folds -/

variable {α : Type} [Element α] [Integral α]

/-- No two elements have the same number up to multiples of the modulus. -/
theorem eq_of_modEq {x y : α} (h : value x ≡ value y [ZMOD modulus α]) : x = y := by
  have hx := lt_add_modulus x
  have hy := lt_add_modulus y
  have hx' := lowest_le x
  have hy' := lowest_le y
  have hzero : value y - value x = 0 :=
    Int.eq_zero_of_dvd_of_natAbs_lt_natAbs h.dvd (by omega)
  exact value_injective (by omega)

/-- Zero is one of the numbers, so that the others are less than `modulus` in magnitude. -/
theorem natAbs_lt_modulus (x : α) : ((value x).natAbs : Int) < modulus α := by
  have hx := lowest_le x
  have hx' := lt_add_modulus x
  have hzero := lowest_le (Element.zero : α)
  have hzero' := lt_add_modulus (Element.zero : α)
  rw [value_zero] at hzero hzero'
  omega

theorem natAbs_lt (x : α) : (value x).natAbs < 2 ^ 64 := by
  have hwidth : modulus α ≤ 2 ^ 64 := by
    rw [modulus]
    cases Element.kind α with
    | _ => decide
  have hx := natAbs_lt_modulus x
  omega

/-- There is one type with more than 32 bits. -/
theorem natAbs_lt_of_ne (h : Element.kind α ≠ .i64) (x : α) : (value x).natAbs < 2 ^ 32 := by
  have hwidth : modulus α ≤ 2 ^ 32 := by
    have hintegral := integral_kind (α := α)
    rw [modulus]
    cases hkind : Element.kind α with
    | i64 => exact absurd hkind h
    | f32 | f64 =>
        rw [hkind] at hintegral
        cases hintegral
    | _ => decide
  have hx := natAbs_lt_modulus x
  omega

/-- `x` is the element that stands for `n` in arithmetic modulo the width of the type. -/
def IsResidue (x : α) (n : Int) : Prop := ∀ y : α, y = x ↔ value y ≡ n [ZMOD modulus α]

theorem isResidue_of_modEq {x : α} {n : Int} (h : value x ≡ n [ZMOD modulus α]) :
    IsResidue x n :=
  fun _ => ⟨fun heq => heq ▸ h, fun hy => eq_of_modEq (hy.trans h.symm)⟩

/-- A sum of elements that stand for the numbers `n i` stands for the sum of these. -/
theorem value_foldl_add {ι : Type} {f : ι → α} {n : ι → Int}
    (h : ∀ i, value (f i) ≡ n i [ZMOD modulus α]) (is : List ι) (acc : α) :
    value (is.foldl (fun acc i => Element.add acc (f i)) acc)
      ≡ value acc + (is.map n).sum [ZMOD modulus α] := by
  induction is generalizing acc with
  | nil => simp
  | cons i is ih =>
      calc value ((i :: is).foldl (fun acc i => Element.add acc (f i)) acc)
          ≡ value (Element.add acc (f i)) + (is.map n).sum [ZMOD modulus α] := ih _
        _ ≡ value acc + n i + (is.map n).sum [ZMOD modulus α] :=
            ((value_add acc (f i)).trans ((h i).add_left _)).add_right _
        _ = value acc + ((i :: is).map n).sum := by
            rw [List.map_cons, List.sum_cons, Int.add_assoc]

theorem isResidue_foldl_add {ι : Type} {f : ι → α} {n : ι → Int}
    (h : ∀ i, value (f i) ≡ n i [ZMOD modulus α]) (is : List ι) :
    IsResidue (is.foldl (fun acc i => Element.add acc (f i)) Element.zero) (is.map n).sum := by
  have hsum := value_foldl_add h is Element.zero
  rw [value_zero, Int.zero_add] at hsum
  exact isResidue_of_modEq hsum

/-- `x` is one of the elements, and none of them stands for a greater number. -/
def IsGreatest (x : α) (xs : List α) : Prop := x ∈ xs ∧ ∀ y ∈ xs, value y ≤ value x

/-- What is greatest among the greater of two elements and the others is greatest of all. -/
theorem IsGreatest.of_combine {x acc y : α} {xs : List α}
    (h : IsGreatest x (Reduction.max.combine acc y :: xs)) : IsGreatest x (acc :: y :: xs) := by
  rw [Reduction.combine] at h
  by_cases hlt : Element.lt acc y = true
  · rw [if_pos hlt] at h
    have hless := (lt_iff acc y).mp hlt
    have hy := h.2 y List.mem_cons_self
    exact ⟨List.mem_cons_of_mem _ h.1, List.forall_mem_cons.mpr ⟨by omega, h.2⟩⟩
  · rw [if_neg hlt] at h
    have hless := mt (lt_iff acc y).mpr hlt
    obtain ⟨hacc, hrest⟩ := List.forall_mem_cons.mp h.2
    refine ⟨?_, List.forall_mem_cons.mpr ⟨hacc, List.forall_mem_cons.mpr ⟨by omega, hrest⟩⟩⟩
    exact (List.mem_cons.mp h.1).elim (fun heq => heq ▸ List.mem_cons_self)
      fun hin => List.mem_cons_of_mem _ (List.mem_cons_of_mem _ hin)

theorem isGreatest_foldl (xs : List α) (acc : α) :
    IsGreatest (xs.foldl Reduction.max.combine acc) (acc :: xs) := by
  induction xs generalizing acc with
  | nil => simp [IsGreatest]
  | cons x xs ih => exact (ih _).of_combine

/-- The least element does not count among others. -/
theorem isGreatest_fold {xs : List α} (h : xs ≠ []) : IsGreatest (Reduction.max.fold xs) xs := by
  obtain ⟨hmem, hle⟩ := isGreatest_foldl xs Reduction.max.identity
  obtain ⟨hlowest, hrest⟩ := List.forall_mem_cons.mp hle
  refine ⟨?_, hrest⟩
  rcases List.mem_cons.mp hmem with heq | hin
  · -- Nothing is greater than the least element, so all elements are equal to it.
    obtain ⟨y, hy⟩ := List.exists_mem_of_ne_nil xs h
    have hyle := hrest y hy
    rw [heq] at hyle
    have hlow : y = Reduction.max.identity :=
      value_injective (Int.le_antisymm hyle (lowest_le y))
    rw [Reduction.fold, heq, ← hlow]
    exact hy
  · exact hin

/-! ## Reductions -/

/-- What a reduction makes of whole numbers: their sum, or the greatest of them. -/
def Summarizes (x : α) (xs : List α) : Reduction → Prop
  | .sum => IsResidue x (xs.map value).sum
  | .max => (xs = [] → x = Element.lowest) ∧ (xs ≠ [] → IsGreatest x xs)

theorem summarizes_fold (r : Reduction) (xs : List α) : Summarizes (r.fold xs) xs r := by
  cases r with
  | sum => exact isResidue_foldl_add (fun _ => .refl _) xs
  | max => exact ⟨fun h => h ▸ rfl, isGreatest_fold⟩

end Integral
end Element
end TensorGraph
