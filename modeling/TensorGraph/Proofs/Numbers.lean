/-
# The numbers that elements stand for

`Element.Numeric.number?` is the number that an element stands for, a fraction in general;
infinities and NaNs stand for none.  `toFloat` turns an element into a 64-bit float:

| elements | as a 64-bit float |
| :-- | :-- |
| of 8 or 32 bits, and 64-bit floats | the same number |
| 64-bit integers below `2 ^ 53` | the same number |
| other 64-bit integers | a number that is no less than `2 ^ 53` in magnitude |

A mantissa of a 64-bit float has 53 bits, so a whole number below `2 ^ 53` is one float
and no other (`unpack_of_number`).
-/
import TensorGraph.Element.Floating
import TensorGraph.Proofs.Integers
import TensorGraph.Proofs.Rounding

namespace TensorGraph

namespace Rounding

open Float.Model Float.Model.UnpackedFloat

/-- The number that a float stands for, if there is one. -/
def number? : UnpackedFloat → Option ℚ
  | .finite sign m e _ => some (((sign.apply m : Int) : ℚ) * 2 ^ e)
  | .zero _ => some 0
  | .infinity _ | .notANumber => none

/-! ## Rounding that changes nothing -/

section Small

variable {n : Nat} (hn : n ≠ 0) (h : n < 2 ^ 53)

include hn h

/-- The mantissa that is brought to the right length stands for the same number. -/
theorem aligned_eq (e : Int) :
    ((n * 2 ^ (52 - n.log2) : Nat) : ℚ) * 2 ^ ((n.log2 : Int) + e - 52) = n * 2 ^ e := by
  have hlog : n.log2 < 53 := (Nat.log2_lt hn).mpr h
  have hexp : ((52 - n.log2 : Nat) : Int) + (n.log2 + e - 52) = e := by omega
  rw [Nat.cast_mul, Nat.cast_pow, Nat.cast_ofNat, mul_assoc, ← zpow_natCast,
    ← zpow_add₀ (by norm_num), hexp]

theorem number_round (sign : Sign) {e : Int} (hlo : -1022 ≤ n.log2 + e) (hhi : n.log2 + e ≤ 1022) :
    number? (Float.Model.pack (UnpackedFloat.round Format.binary64 sign n e)).unpack
      = some (((sign.apply n : Int) : ℚ) * 2 ^ e) := by
  obtain ⟨hm, hunpack⟩ := unpack_round hn h sign hlo hhi
  have haligned := aligned_eq hn h e
  rw [hunpack, number?]
  cases sign with
  | positive => simpa [Sign.apply] using haligned
  | negative => simpa [Sign.apply] using haligned

end Small

/-! ## Whole numbers -/

/-- A whole number other than zero is brought to form from its sign and its magnitude. -/
theorem normalize_eq {n : Int} (hn : n ≠ 0) (e : Int) (zero : Sign) : ∃ sign : Sign,
    UnpackedFloat.normalize Format.binary64 n e zero
      = UnpackedFloat.round Format.binary64 sign n.natAbs e ∧ sign.apply n.natAbs = n := by
  rw [UnpackedFloat.normalize]
  rcases Int.lt_or_gt_of_ne hn with hneg | hpos
  · have habs : (-n).toNat = n.natAbs := by omega
    rw [Int.compare_eq_lt.mpr hneg, habs]
    exact ⟨.negative, rfl, by simp only [Sign.apply]; omega⟩
  · have habs : n.toNat = n.natAbs := by omega
    rw [Int.compare_eq_gt.mpr hpos, habs]
    exact ⟨.positive, rfl, by simp only [Sign.apply]; omega⟩

theorem ofInt_eq {n : Int} (hn : n ≠ 0) : ∃ sign : Sign,
    UnpackedFloat.ofInt Format.binary64 n = UnpackedFloat.round Format.binary64 sign n.natAbs 0 ∧
      sign.apply n.natAbs = n :=
  normalize_eq hn 0 .positive

/-- A whole number that fits into a mantissa is not changed. -/
theorem number_ofInt {n : Int} (h : n.natAbs < 2 ^ 53) :
    number? (Float.Model.pack (UnpackedFloat.ofInt Format.binary64 n)).unpack = some (n : ℚ) := by
  by_cases hn : n = 0
  · rw [hn]
    rfl
  · obtain ⟨sign, hround, happly⟩ := ofInt_eq hn
    have hne : n.natAbs ≠ 0 := Int.natAbs_ne_zero.mpr hn
    have hlog : n.natAbs.log2 < 53 := (Nat.log2_lt hne).mpr h
    rw [hround, number_round hne h sign (by omega) (by omega), happly, zpow_zero, mul_one]

/-- One that does not fit is rounded to a number that does not fit either. -/
theorem le_number_ofInt {n : Int} (h : 2 ^ 53 ≤ n.natAbs) (hbits : n.natAbs < 2 ^ 64) :
    ∃ q, number? (Float.Model.pack (UnpackedFloat.ofInt Format.binary64 n)).unpack = some q ∧
      2 ^ 53 ≤ |q| := by
  have hn : n ≠ 0 := by omega
  have hne : n.natAbs ≠ 0 := Int.natAbs_ne_zero.mpr hn
  have hlo : 53 ≤ n.natAbs.log2 := (Nat.le_log2 hne).mpr h
  have hhi : n.natAbs.log2 < 64 := (Nat.log2_lt hne).mpr hbits
  obtain ⟨sign, hround, -⟩ := ofInt_eq hn
  obtain ⟨s, hs⟩ := Nat.exists_eq_add_of_le (Nat.le_trans (by decide : 52 ≤ 53) hlo)
  obtain ⟨m, e, hm, hnearest, hlen, hcases⟩ := round_nearest sign (e := 0) hs (by omega)
  have hexp : 1 ≤ e ∧ e ≤ 970 := by cases hcases <;> omega
  have hround' : UnpackedFloat.round Format.binary64 sign n.natAbs 0 = .finite sign m e hm := by
    have ht : Format.binary64.targetExponent (totalExponent n.natAbs 0) = s := by
      rw [targetExponent_eq, hs]
      omega
    have hshift : (0 - (s : Int)).toNat = 0 := by omega
    simp only [UnpackedFloat.round, decreaseExponent, ht, hshift, Nat.shiftLeft_zero]
    exact hnearest
  have hlen' : 2 ^ 52 ≤ m := hlen ▸ Nat.log2_self_le hm.ne'
  have habs : |((sign.apply m : Int) : ℚ)| = m := by
    cases sign with
    | positive => simp [Sign.apply]
    | negative => simp [Sign.apply]
  rw [hround, hround', unpack_pack hlen (by omega) (by omega), number?]
  refine ⟨_, rfl, ?_⟩
  rw [abs_mul, habs, abs_of_pos (by positivity)]
  calc (2 : ℚ) ^ 53 = (2 ^ 52 : Nat) * 2 ^ (1 : Int) := by norm_num
    _ ≤ m * 2 ^ e := by
        gcongr
        · norm_num
        · exact hexp.1

/-- Two mantissas of the right length with their exponents, for one number. -/
theorem aligned_inj {m m' : Nat} {e e' : Int} (hm : 2 ^ 52 ≤ m ∧ m < 2 ^ 53)
    (hm' : 2 ^ 52 ≤ m' ∧ m' < 2 ^ 53) (h : (m : ℚ) * 2 ^ e = m' * 2 ^ e') : m = m' ∧ e = e' := by
  -- the one with the lesser exponent would be too long
  have shorter : ∀ {m m' : Nat} {e e' : Int}, 2 ^ 52 ≤ m → m' < 2 ^ 53 →
      (m : ℚ) * 2 ^ e = m' * 2 ^ e' → e ≤ e' := by
    intro m m' e e' hm hm' h
    by_contra hlt
    have hshift : (m' : ℚ) = m * 2 ^ (e - e').toNat := by
      have hexp : (((e - e').toNat : Nat) : Int) + e' = e := by omega
      rw [← mul_left_inj' (zpow_ne_zero e' (by norm_num : (2 : ℚ) ≠ 0)), ← h, mul_assoc,
        ← zpow_natCast, ← zpow_add₀ (by norm_num), hexp]
    have hwhole : m' = m * 2 ^ (e - e').toNat := by exact_mod_cast hshift
    have htwo : 2 ≤ 2 ^ (e - e').toNat := Nat.le_self_pow (by omega) 2
    have := Nat.mul_le_mul hm htwo
    omega
  have he : e = e' := Int.le_antisymm (shorter hm.1 hm'.2 h) (shorter hm'.1 hm.2 h.symm)
  subst he
  refine ⟨?_, rfl⟩
  have hcancel := mul_right_cancel₀ (zpow_ne_zero e (by norm_num : (2 : ℚ) ≠ 0)) h
  exact_mod_cast hcancel

/-- Only one float stands for a whole number that fits into a mantissa, zero apart. -/
theorem unpack_of_number {x : Float} {n : Nat} (hn : n ≠ 0) (h : n < 2 ^ 53)
    (hx : number? x.toModel.unpack = some (n : ℚ)) :
    ∃ hm, x.toModel.unpack = .finite .positive (n * 2 ^ (52 - n.log2)) (n.log2 - 52) hm := by
  have hpos : (1 : ℚ) ≤ n := by exact_mod_cast Nat.one_le_iff_ne_zero.mpr hn
  cases hf : x.toModel.unpack with
  | notANumber | infinity => simp [hf, number?] at hx
  | zero =>
      rw [hf, number?, Option.some.injEq] at hx
      rw [← hx] at hpos
      norm_num at hpos
  | finite sign m e hm =>
      obtain ⟨hshort, hlegal⟩ := unpack_legal hf
      rw [hf, number?, Option.some.injEq] at hx
      cases sign with
      | negative =>
          have hneg : ((Sign.apply .negative m : Int) : ℚ) * 2 ^ e ≤ 0 := by
            simp only [Sign.apply, Int.cast_neg, Int.cast_natCast, neg_mul, Left.neg_nonpos_iff]
            positivity
          linarith
      | positive =>
          rw [Sign.apply, Int.cast_natCast] at hx
          have hlong : 2 ^ 52 ≤ m := by
            refine hlegal.resolve_right fun he => ?_
            -- at the least exponent every number is less than one
            have hbits : (m : ℚ) < 2 ^ 53 := by exact_mod_cast hshort
            have hless : (m : ℚ) * 2 ^ e < 1 := by
              rw [he]
              calc (m : ℚ) * 2 ^ (-1074 : Int) ≤ m * 2 ^ (-53 : Int) := by
                    gcongr
                    · norm_num
                    · norm_num
                _ < 2 ^ 53 * 2 ^ (-53 : Int) := by gcongr
                _ = 1 := by norm_num
            linarith
          have hlen := log2_aligned hn h
          have hne : n * 2 ^ (52 - n.log2) ≠ 0 := Nat.mul_ne_zero hn (Nat.two_pow_pos _).ne'
          have haligned := aligned_eq hn h 0
          rw [zpow_zero, mul_one, Int.add_zero, ← hx] at haligned
          obtain ⟨rfl, rfl⟩ := aligned_inj ⟨hlong, hshort⟩ ((Nat.log2_eq_iff hne).mp hlen)
            haligned.symm
          exact ⟨hm, rfl⟩

/-! ## Floats of 32 bits -/

/-- The mantissa and the exponent of a 32-bit float are moderate. -/
theorem unpack_legal32 {f : Float32.Model} {s : Sign} {m : Nat} {e : Int} {h : 0 < m}
    (hf : f.unpack = .finite s m e h) : m < 2 ^ 24 ∧ -149 ≤ e ∧ e ≤ 105 := by
  have hbits := (@unpackMantissa Format.binary32 f.toBits.toBitVec).isLt
  have hexp := (@unpackExponent Format.binary32 f.toBits.toBitVec).isLt
  change _ < 2 ^ 23 at hbits
  change _ < 2 ^ 8 at hexp
  have hbias : (Format.binary32.exponentBias : Int) + Format.binary32.mantissaBitsWithoutImplicit
      = 150 := rfl
  rw [Float32.Model.unpack, UnpackedFloat.unpack] at hf
  dsimp only at hf
  split at hf
  · split at hf <;> cases hf
  · split at hf
    · rename_i hzero
      split at hf
      · cases hf
      · cases hf
        rw [hzero, hbias]
        refine ⟨by omega, ?_, ?_⟩
        · decide
        · decide
    · rename_i hnonzero
      cases hf
      have hone : (@unpackExponent Format.binary32 f.toBits.toBitVec).toNat ≠ 0 := by
        intro hz
        exact hnonzero (BitVec.eq_of_toNat_eq hz)
      rw [BitVec.toNat_append, ← Nat.shiftLeft_add_eq_or_of_lt hbits, hbias]
      refine ⟨?_, by omega, by omega⟩
      change 2 ^ 23 + _ < _
      omega

/-- A 32-bit float stands for the same number in 64 bits. -/
theorem number_widened (x : Float32) :
    number? (widened x).toModel.unpack = number? x.toModel.unpack := by
  show number? (Float.Model.pack _).unpack = _
  cases hx : x.toModel.unpack with
  | notANumber => rfl
  | infinity sign =>
      cases sign with
      | negative => rfl
      | positive => rfl
  | zero sign =>
      cases sign with
      | negative => rfl
      | positive => rfl
  | finite sign m e hm =>
      obtain ⟨hshort, hlo, hhi⟩ := unpack_legal32 hx
      have hlog : m.log2 < 24 := (Nat.log2_lt hm.ne').mpr hshort
      exact number_round hm.ne' (Nat.lt_trans hshort (by decide)) sign (by omega) (by omega)

end Rounding

namespace Element

open Rounding Float.Model

/-- Elements that may stand for a number, and what becomes of it in a 64-bit float. -/
class Numeric (α : Type) [Element α] where
  number? : α → Option ℚ
  one_ne_zero : (Element.one : α) ≠ Element.zero
  /-- Only a 64-bit integer may be too long for a mantissa. -/
  toFloat_eq (x : α)
    (h : Element.kind α = .i64 → ∀ q, number? x = some q → |q| < 2 ^ 53) :
    Rounding.number? (Element.toFloat x).toModel.unpack = number? x
  le_toFloat (x : α) (q : ℚ) (h : number? x = some q) (hlarge : 2 ^ 53 ≤ |q|) :
    ∃ q', Rounding.number? (Element.toFloat x).toModel.unpack = some q' ∧ 2 ^ 53 ≤ |q'|

namespace Numeric

theorem natAbs_lt_iff {n : Int} : n.natAbs < 2 ^ 53 ↔ |(n : ℚ)| < 2 ^ 53 := by
  have habs : ((n.natAbs : Nat) : ℚ) = |(n : ℚ)| := by rw [Nat.cast_natAbs, Int.cast_abs]
  rw [← habs]
  exact_mod_cast Iff.rfl

/-- Whole numbers that are turned into floats by rounding. -/
@[reducible] def ofIntegral {α : Type} [Element α] [Integral α]
    (hone : (Element.one : α) ≠ Element.zero)
    (hfloat : ∀ x : α, Element.toFloat x
      = .ofModel (.pack (.ofInt Format.binary64 (Integral.value x))))
    (hbits : ∀ x : α, (Integral.value x).natAbs < 2 ^ 64)
    (hshort : Element.kind α ≠ .i64 → ∀ x : α, (Integral.value x).natAbs < 2 ^ 53) :
    Numeric α where
  number? x := some (Integral.value x : ℚ)
  one_ne_zero := hone
  toFloat_eq x h := by
    rw [hfloat]
    refine number_ofInt ?_
    by_cases hkind : Element.kind α = .i64
    · exact natAbs_lt_iff.mpr (h hkind _ rfl)
    · exact hshort hkind x
  le_toFloat x q h hlarge := by
    rw [hfloat]
    cases h
    refine le_number_ofInt ?_ (hbits x)
    rw [← Nat.not_lt, natAbs_lt_iff, not_lt]
    exact hlarge

theorem natAbs_lt_of_ne {α : Type} [Element α] [Integral α] (h : Element.kind α ≠ .i64) (x : α) :
    (Integral.value x).natAbs < 2 ^ 53 :=
  Nat.lt_trans (Integral.natAbs_lt_of_ne h x) (by decide)

instance : Numeric UInt8 :=
  ofIntegral (by decide) (fun _ => rfl) Integral.natAbs_lt natAbs_lt_of_ne

instance : Numeric UInt32 :=
  ofIntegral (by decide) (fun _ => rfl) Integral.natAbs_lt natAbs_lt_of_ne

instance : Numeric Int32 :=
  ofIntegral (by decide) (fun _ => rfl) Integral.natAbs_lt natAbs_lt_of_ne

instance : Numeric Int64 :=
  ofIntegral (by decide) (fun _ => rfl) Integral.natAbs_lt natAbs_lt_of_ne

/-- Elements that stand for the same number as a 64-bit float. -/
@[reducible] def ofExact {α : Type} [Element α] (number? : α → Option ℚ)
    (hone : (Element.one : α) ≠ Element.zero)
    (hfloat : ∀ x : α, Rounding.number? (Element.toFloat x).toModel.unpack = number? x) :
    Numeric α where
  number? := number?
  one_ne_zero := hone
  toFloat_eq x _ := hfloat x
  le_toFloat x q h hlarge := ⟨q, (hfloat x).trans h, hlarge⟩

instance : Numeric Float32 :=
  ofExact (fun x => Rounding.number? x.toModel.unpack)
    (fun h => absurd (congrArg Float32.toBits h) (by decide)) number_widened

instance : Numeric Float :=
  ofExact (fun x => Rounding.number? x.toModel.unpack)
    (fun h => absurd (congrArg Float.toBits h) (by decide)) fun _ => rfl

end Numeric
end Element
end TensorGraph
