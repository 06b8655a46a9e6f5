/-
# Whole numbers as floats

A category is compared with the size of its axis as floats, and then cut off to
a whole number.  A large size is not a float; it is rounded, perhaps to a float
that is greater.  This does no harm: no float lies between a number and the
float that it is rounded to, so what is less than the latter is less than the
former.

    0 ≤ x < n as a float  ⟹  x, cut off, < n        (`toUInt64_lt`)

`Nearest` is what rounding leaves of a number, whichever of the two ways by
which a whole number becomes a float is taken.
-/
import Mathlib
import TensorGraph.Kernel.OneHot

namespace TensorGraph

namespace Rounding

open Float.Model Float.Model.UnpackedFloat

/-- The mantissa `m · 2 ^ -s` at the exponent `e`, rounded to a whole one: down, or up if
something is lost, and then halved if it has become too long. -/
inductive Nearest (m s : Nat) (e : Int) : Nat → Int → Prop
  | below : Nearest m s e (m / 2 ^ s) e
  | above : m % 2 ^ s ≠ 0 → Nearest m s e (m / 2 ^ s + 1) e
  | carried : m % 2 ^ s ≠ 0 → m / 2 ^ s + 1 = 2 ^ 53 → Nearest m s e (2 ^ 52) (e + 1)

/-! ## Rounding -/

theorem shift_succ (em : ExtendedMantissa) (k : Nat) :
    em >>> (k + 1) = (em >>> k).shiftRightOne := rfl

theorem mantissa_shift (em : ExtendedMantissa) (k : Nat) :
    (em >>> k).mantissa = em.mantissa / 2 ^ k := by
  induction k with
  | zero => exact (Nat.div_one _).symm
  | succ k ih =>
      rw [shift_succ, ExtendedMantissa.shiftRightOne, ih, Nat.div_div_eq_div_mul, Nat.pow_succ]

/-- A residual bit is set when a bit that was shifted out was. -/
theorem residue_shift (m k : Nat) :
    (((⟨m, false, false⟩ : ExtendedMantissa) >>> k).roundBit ||
      ((⟨m, false, false⟩ : ExtendedMantissa) >>> k).stickyBit) = (m % 2 ^ k != 0) := by
  induction k with
  | zero => simp [Nat.mod_one, HShiftRight.hShiftRight, Nat.repeat]
  | succ k ih =>
      have hmod : m % 2 ^ (k + 1) = m % 2 ^ k + 2 ^ k * (m / 2 ^ k % 2) := Nat.mod_pow_succ
      simp only [shift_succ, ExtendedMantissa.shiftRightOne, ih, mantissa_shift]
      rw [hmod, Bool.eq_iff_iff]
      simp
      omega

theorem roundedMantissa_cases (em : ExtendedMantissa) :
    em.roundedMantissa = em.mantissa ∨
      em.roundedMantissa = em.mantissa + 1 ∧ (em.roundBit || em.stickyBit) = true := by
  obtain ⟨m, round, sticky⟩ := em
  cases round <;> cases sticky <;>
    simp [ExtendedMantissa.roundedMantissa, ExtendedMantissa.accuracy, Accuracy.roundToNearestEven]
  omega

theorem targetExponent_eq (m : Nat) (e : Int) :
    Format.binary64.targetExponent (totalExponent m e) = max (m.log2 + e - 52) (-1074) := by
  simp only [Format.targetExponent, totalExponent, Format.mantissaBits, Format.minExponent]
  norm_num
  omega

/-- A mantissa of the right length stays. -/
theorem shift_fitting {m : Nat} {e : Int} (hm : m.log2 = 52) (he : -1074 ≤ e) :
    shiftToTargetExponent Format.binary64 m e .exact = (⟨m, false, false⟩, e) := by
  have ht : Format.binary64.targetExponent (totalExponent m e) = e := by
    rw [targetExponent_eq, hm]
    omega
  simp [shiftToTargetExponent, shiftToExponent, ht, HShiftRight.hShiftRight, Nat.repeat,
    ExtendedMantissa.ofMantissaAndAccuracy]

/-- One that has become too long by rounding is a power of two. -/
theorem shift_carry {e : Int} (he : -1074 ≤ e) :
    shiftToTargetExponent Format.binary64 (2 ^ 53) e .exact = (⟨2 ^ 52, false, false⟩, e + 1) := by
  have ht : Format.binary64.targetExponent (totalExponent (2 ^ 53) e) = e + 1 := by
    rw [targetExponent_eq, Nat.log2_two_pow]
    omega
  have hone : (e + 1 - e).toNat = 1 := by omega
  simp only [shiftToTargetExponent, shiftToExponent, ht, hone]
  rfl

/-- The two shifts of a rounding, before and after the mantissa is rounded. -/
theorem round_eq {sign : Sign} {m m' : Nat} {e e₁ e' : Int} {em : ExtendedMantissa}
    (h₁ : shiftToTargetExponent Format.binary64 m e .exact = (em, e₁))
    (h₂ : shiftToTargetExponent Format.binary64 em.roundedMantissa e₁ .exact
      = (⟨m', false, false⟩, e')) (hpos : 0 < m') :
    roundWithAccuracy Format.binary64 sign m e .exact = .finite sign m' e' hpos := by
  simp only [roundWithAccuracy, h₁, h₂]
  rw [dif_neg hpos.ne']

/-- What rounding makes of `m · 2 ^ e`, where the mantissa is too long by `s` bits. -/
theorem round_nearest (sign : Sign) {m s : Nat} {e : Int} (hm : m.log2 = 52 + s)
    (he : -1074 ≤ e + s) :
    ∃ m' e' h, roundWithAccuracy Format.binary64 sign m e .exact = .finite sign m' e' h ∧
      m'.log2 = 52 ∧ Nearest m s (e + s) m' e' := by
  have hpos : m ≠ 0 := by
    rintro rfl
    rw [Nat.log2_zero] at hm
    omega
  have hfirst : shiftToTargetExponent Format.binary64 m e .exact
      = ((⟨m, false, false⟩ : ExtendedMantissa) >>> s, e + s) := by
    have ht : Format.binary64.targetExponent (totalExponent m e) = e + s := by
      rw [targetExponent_eq, hm]
      omega
    have hs : (e + s - e).toNat = s := by omega
    simp only [shiftToTargetExponent, shiftToExponent, ht, hs,
      ExtendedMantissa.ofMantissaAndAccuracy]
  obtain ⟨hlo, hhi⟩ := (Nat.log2_eq_iff hpos).mp hm
  have hq : 2 ^ 52 ≤ m / 2 ^ s := by
    rw [Nat.le_div_iff_mul_le (Nat.two_pow_pos s), ← Nat.pow_add]
    exact hlo
  have hq' : m / 2 ^ s < 2 ^ 53 := by
    rw [Nat.div_lt_iff_lt_mul (Nat.two_pow_pos s), ← Nat.pow_add, Nat.add_right_comm 52 1 s]
    exact hhi
  -- the rounded mantissa is as long as it should be, or one bit longer
  have fits : ∀ {r}, 2 ^ 52 ≤ r → r < 2 ^ 53 →
      ((⟨m, false, false⟩ : ExtendedMantissa) >>> s).roundedMantissa = r →
      ∃ h, roundWithAccuracy Format.binary64 sign m e .exact = .finite sign r (e + s) h ∧
        r.log2 = 52 := by
    intro r hlo hhi hr
    have hlog : r.log2 = 52 := (Nat.log2_eq_iff (by omega)).mpr ⟨hlo, hhi⟩
    have hpos : 0 < r := by omega
    exact ⟨hpos, round_eq hfirst (by rw [hr, shift_fitting hlog he]) hpos, hlog⟩
  rcases roundedMantissa_cases ((⟨m, false, false⟩ : ExtendedMantissa) >>> s) with hr | ⟨hr, hres⟩
  · rw [mantissa_shift] at hr
    obtain ⟨h, hround, hlog⟩ := fits hq hq' hr
    exact ⟨_, _, h, hround, hlog, .below⟩
  · rw [mantissa_shift] at hr
    rw [residue_shift, bne_iff_ne] at hres
    by_cases hshort : m / 2 ^ s + 1 < 2 ^ 53
    · obtain ⟨h, hround, hlog⟩ := fits (by omega) hshort hr
      exact ⟨_, _, h, hround, hlog, .above hres⟩
    · have hcarry : m / 2 ^ s + 1 = 2 ^ 53 := by omega
      have hr' : ((⟨m, false, false⟩ : ExtendedMantissa) >>> s).roundedMantissa = 2 ^ 53 :=
        hr.trans hcarry
      exact ⟨_, _, by decide, round_eq hfirst (by rw [hr', shift_carry he]) (by decide),
        Nat.log2_two_pow, .carried hres hcarry⟩

/-! ## Packing -/

theorem append_implicit (m : BitVec 52) : (1#1 ++ m).toNat = 2 ^ 52 + m.toNat := by
  rw [BitVec.toNat_append, ← Nat.shiftLeft_add_eq_or_of_lt m.isLt]
  rfl

/-- A number with a mantissa of the right length and a moderate exponent can be packed. -/
theorem unpack_pack {sign : Sign} {m : Nat} {e : Int} {h : 0 < m} (hm : m.log2 = 52)
    (hlo : -1074 ≤ e) (hhi : e ≤ 970) :
    (Float.Model.pack (.finite sign m e h)).unpack = .finite sign m e h := by
  obtain ⟨hmlo, hmhi⟩ := (Nat.log2_eq_iff h.ne').mp hm
  have hexponent : (BitVec.ofNat 11 (e + 1023 + 52).toNat).toNat = (e + 1023 + 52).toNat := by
    rw [BitVec.toNat_ofNat, Nat.mod_eq_of_lt (by omega)]
  have hpacked : UnpackedFloat.pack Format.binary64 (.finite sign m e h)
      = packComponents Format.binary64 sign (BitVec.ofNat 11 (e + 1023 + 52).toNat)
        (BitVec.ofNat 52 m) := by
    have hfits : ¬ 2 ^ 11 ≤ (e + 1023 + 52).toNat + 1 := by omega
    exact (if_neg hfits).trans (if_pos (by rw [hm]; rfl))
  have hother : ∀ b : BitVec 11, b.toNat ≠ (e + 1023 + 52).toNat →
      BitVec.ofNat 11 (e + 1023 + 52).toNat ≠ b := by
    rintro b hb rfl
    exact hb hexponent
  have hnotmax := hother (-1#11) (show 2047 ≠ _ by omega)
  have hnotmin := hother 0#11 (show 0 ≠ _ by omega)
  have hmantissa : (1#1 ++ BitVec.ofNat 52 m).toNat = m := by
    rw [append_implicit, BitVec.toNat_ofNat]
    omega
  change UnpackedFloat.unpack Format.binary64 (UnpackedFloat.pack Format.binary64 _) = _
  rw [hpacked, UnpackedFloat.unpack]
  simp only [unpackMantissa_packComponents, unpackExponent_packComponents,
    unpackSign_packComponents, Sign.ofBitVec_toBitVec, hnotmax, hnotmin, if_false, hexponent,
    hmantissa]
  congr 1
  change ((e + 1023 + 52).toNat : Int) - (1023 + 52) = e
  omega

/-- The mantissa of a float has the right length, except at the least exponent. -/
theorem unpack_legal {f : Float.Model} {s : Sign} {m : Nat} {e : Int} {h : 0 < m}
    (hf : f.unpack = .finite s m e h) : m < 2 ^ 53 ∧ (2 ^ 52 ≤ m ∨ e = -1074) := by
  have hbits := (@unpackMantissa Format.binary64 f.toBits.toBitVec).isLt
  change _ < 2 ^ 52 at hbits
  rw [Float.Model.unpack, UnpackedFloat.unpack] at hf
  dsimp only at hf
  split at hf
  · split at hf <;> cases hf
  · split at hf
    · rename_i hzero
      split at hf
      · cases hf
      · cases hf
        refine ⟨by omega, .inr ?_⟩
        rw [hzero]
        rfl
    · cases hf
      rw [append_implicit]
      omega

/-! ## From whole numbers -/

theorem toFloat_small {n : Nat} (h : n < 2 ^ 53) :
    n.toFloat = n.toUInt64.toFloat * Float.ofBits 0x3FF0000000000000 := by
  simp only [Nat.toFloat, Float.ofNat, OfScientific.ofScientific, Float.ofScientific]
  rw [dif_pos ⟨h, by decide⟩]
  rfl

theorem toFloat_large {n : Nat} (h : ¬ n < 2 ^ 53) :
    n.toFloat = .ofModel (.ofScientific n 0) := by
  simp only [Nat.toFloat, Float.ofNat, OfScientific.ofScientific, Float.ofScientific]
  rw [dif_neg fun h' => h h'.1]
  rfl

theorem unpack_one : (Float.ofBits 0x3FF0000000000000).toModel.unpack
    = .finite .positive (2 ^ 52) (-52) (by decide) := by
  rfl

theorem log2_mul_pow {n : Nat} (h : n ≠ 0) (k : Nat) : (n * 2 ^ k).log2 = n.log2 + k := by
  rw [Nat.log2_eq_iff (Nat.mul_ne_zero h (Nat.two_pow_pos k).ne'), Nat.pow_add, Nat.add_right_comm,
    Nat.pow_add]
  exact ⟨Nat.mul_le_mul_right _ (Nat.log2_self_le h),
    Nat.mul_lt_mul_of_pos_right Nat.lt_log2_self (Nat.two_pow_pos k)⟩

section Small

variable {n : Nat} (hn : n ≠ 0) (h : n < 2 ^ 53)

include hn h

theorem log2_aligned : (n * 2 ^ (52 - n.log2)).log2 = 52 := by
  have : n.log2 < 53 := (Nat.log2_lt hn).mpr h
  rw [log2_mul_pow hn]
  omega

/-- A number with a short mantissa and a moderate exponent is not changed by rounding: its
mantissa is brought to the right length. -/
theorem unpack_round (sign : Sign) {e : Int} (hlo : -1022 ≤ n.log2 + e) (hhi : n.log2 + e ≤ 1022) :
    ∃ hm, (Float.Model.pack (UnpackedFloat.round Format.binary64 sign n e)).unpack
      = .finite sign (n * 2 ^ (52 - n.log2)) (n.log2 + e - 52) hm := by
  have hlog : n.log2 < 53 := (Nat.log2_lt hn).mpr h
  have hlen := log2_aligned hn h
  have hm : 0 < n * 2 ^ (52 - n.log2) := Nat.mul_pos (Nat.pos_of_ne_zero hn) (Nat.two_pow_pos _)
  have hround : UnpackedFloat.round Format.binary64 sign n e
      = .finite sign (n * 2 ^ (52 - n.log2)) (n.log2 + e - 52) hm := by
    have ht : Format.binary64.targetExponent (totalExponent n e) = n.log2 + e - 52 := by
      rw [targetExponent_eq]
      omega
    have hshift : (e - ((n.log2 : Int) + e - 52)).toNat = 52 - n.log2 := by omega
    have hexp : e - (52 - n.log2 : Nat) = n.log2 + e - 52 := by omega
    simp only [UnpackedFloat.round, decreaseExponent, ht, hshift, hexp, Nat.shiftLeft_eq]
    exact round_eq (shift_fitting hlen (by omega)) (shift_fitting hlen (by omega)) hm
  refine ⟨hm, ?_⟩
  rw [hround]
  exact unpack_pack hlen (by omega) (by omega)

theorem unpack_toUInt64 : ∃ hm, n.toUInt64.toFloat.toModel.unpack
    = .finite .positive (n * 2 ^ (52 - n.log2)) (n.log2 - 52) hm := by
  have hlog : n.log2 < 53 := (Nat.log2_lt hn).mpr h
  have hround : UnpackedFloat.ofUInt64 Format.binary64 n.toUInt64
      = UnpackedFloat.round Format.binary64 .positive n 0 := by
    have hwhole : n.toUInt64.toNat = n := by
      simp
      omega
    have hgt : compare (n : Int) 0 = .gt := by
      rw [Int.compare_eq_gt]
      omega
    rw [UnpackedFloat.ofUInt64, hwhole, UnpackedFloat.ofNat, UnpackedFloat.ofInt,
      UnpackedFloat.normalize, hgt]
    rfl
  have hunpack := unpack_round hn h .positive (e := 0) (by omega) (by omega)
  rw [Int.add_zero, ← hround] at hunpack
  exact hunpack

/-- A whole number that fits into a mantissa is a float. -/
theorem unpack_toFloat_small : ∃ hm, n.toFloat.toModel.unpack
    = .finite .positive (n * 2 ^ (52 - n.log2)) (n.log2 - 52) hm := by
  obtain ⟨hm, hword⟩ := unpack_toUInt64 hn h
  have hlen := log2_aligned hn h
  have hlen' : (n * 2 ^ (52 - n.log2) * 2 ^ 52).log2 = 52 + 52 := by rw [log2_mul_pow hm.ne', hlen]
  obtain ⟨m, e, _, hround, _, hnearest⟩ :=
    round_nearest .positive (e := n.log2 - 52 + -52) hlen' (by omega)
  have hexact : n * 2 ^ (52 - n.log2) * 2 ^ 52 % 2 ^ 52 = 0 := Nat.mul_mod_left _ _
  have hlog : n.log2 < 53 := (Nat.log2_lt hn).mpr h
  refine ⟨hm, ?_⟩
  rw [toFloat_small h]
  change (Float.Model.pack (UnpackedFloat.mul _ n.toUInt64.toFloat.toModel.unpack _)).unpack = _
  rw [hword, unpack_one]
  change (Float.Model.pack (roundWithAccuracy Format.binary64 .positive _ _ _)).unpack = _
  rw [hround]
  cases hnearest with
  | above hlost | carried hlost => exact absurd hexact hlost
  | below =>
      simp only [Nat.mul_div_cancel _ (Nat.two_pow_pos 52), Int.add_assoc, Int.reduceNeg,
        Nat.cast_ofNat, Int.reduceAdd, Int.add_zero]
      exact unpack_pack hlen (by omega) (by omega)

end Small

/-- A whole number as a float. -/
theorem unpack_toFloat {n : Nat} (hn : n ≠ 0) (h : n < 2 ^ 64) :
    ∃ m e hm, n.toFloat.toModel.unpack = .finite .positive m e hm ∧
      Nearest (n * 2 ^ 53) (n.log2 + 1) (n.log2 - 52) m e := by
  have hlog : n.log2 < 64 := (Nat.log2_lt hn).mpr h
  by_cases hsmall : n < 2 ^ 53
  · have hlog : n.log2 < 53 := (Nat.log2_lt hn).mpr hsmall
    obtain ⟨hm, hunpack⟩ := unpack_toFloat_small hn hsmall
    have hpow : 2 ^ 53 = 2 ^ (52 - n.log2) * 2 ^ (n.log2 + 1) := by
      rw [← Nat.pow_add]
      congr 1
      omega
    have hbelow := Nearest.below (m := n * 2 ^ 53) (s := n.log2 + 1) (e := n.log2 - 52)
    rw [hpow, ← Nat.mul_assoc, Nat.mul_div_cancel _ (Nat.two_pow_pos _), Nat.mul_assoc,
      ← hpow] at hbelow
    exact ⟨_, _, hm, hunpack, hbelow⟩
  · have hlen : (n * 2 ^ 53).log2 = 52 + (n.log2 + 1) := by
      rw [log2_mul_pow hn]
      omega
    obtain ⟨m, e, hm, hround, hmlen, hnearest⟩ :=
      round_nearest .positive (e := -53) hlen (by omega)
    have hexp : -53 + ((n.log2 + 1 : Nat) : Int) = n.log2 - 52 := by omega
    rw [hexp] at hnearest
    refine ⟨m, e, hm, ?_, hnearest⟩
    have hscientific : n.toFloat.toModel.unpack = (Float.Model.pack
        (roundWithAccuracy Format.binary64 .positive (n * 2 ^ 53) (-53) .exact)).unpack := by
      rw [toFloat_large hsmall]
      change (Float.Model.pack (UnpackedFloat.ofScientific Format.binary64 n 0)).unpack = _
      rw [UnpackedFloat.ofScientific, dif_neg hn, if_neg (by decide), if_neg (by simp),
        if_pos (Int.le_refl 0)]
      simp only [UnpackedFloat.mul, Nat.shiftLeft_eq, Int.toNat_zero, Nat.pow_zero, Nat.mul_one,
        Int.add_zero]
      rfl
    rw [hscientific, hround]
    refine unpack_pack hmlen ?_ ?_ <;> cases hnearest <;> omega

/-! ## To whole numbers -/

theorem toInt_signed (sign : Sign) (lowest highest : Int) {m : Nat} {e : Int} {h : 0 < m} :
    (UnpackedFloat.finite sign m e h).toInt lowest highest
      = sign.apply (m * 2 ^ e.toNat / 2 ^ (-e).toNat : Nat) := by
  have hshift : (0 - (e - e.toNat)).toNat = (-e).toNat := by omega
  simp only [toInt, roundToInt, decreaseExponent, shiftToExponent,
    ExtendedMantissa.ofMantissaAndAccuracy, mantissa_shift, Nat.shiftLeft_eq, Int.sub_zero, hshift]

theorem toInt_finite (lowest highest : Int) {m : Nat} {e : Int} {h : 0 < m} :
    (UnpackedFloat.finite .positive m e h).toInt lowest highest
      = (m * 2 ^ e.toNat / 2 ^ (-e).toNat : Nat) :=
  toInt_signed .positive lowest highest

theorem toNat_ofNatClamp_le (n : Nat) : (UInt64.ofNatClamp n).toNat ≤ n := by
  unfold UInt64.ofNatClamp
  split
  · simp
  · rename_i h
    exact Nat.le_trans (Nat.sub_le _ 1) (Nat.le_of_not_lt h)

/-- A number less than `n`, as the scaled mantissas tell, is cut off below `n`. -/
theorem cut_lt {m n : Nat} {e : Int} (hn : n ≠ 0) (hm : m < 2 ^ 53)
    (h : -53 ≤ e → m * 2 ^ (e + 53).toNat < n * 2 ^ 53) :
    m * 2 ^ e.toNat / 2 ^ (-e).toNat < n := by
  rw [Nat.div_lt_iff_lt_mul (Nat.two_pow_pos _)]
  by_cases hlow : -53 ≤ e
  · have hscaled := h hlow
    have hleft : 2 ^ (e + 53).toNat * 2 ^ (-e).toNat = 2 ^ e.toNat * 2 ^ 53 := by
      rw [← Nat.pow_add, ← Nat.pow_add]
      congr 1
      omega
    refine Nat.lt_of_mul_lt_mul_right (a := 2 ^ 53) ?_
    rw [Nat.mul_assoc, ← hleft, ← Nat.mul_assoc, Nat.mul_right_comm n]
    exact Nat.mul_lt_mul_of_pos_right hscaled (Nat.two_pow_pos _)
  · have hzero : e.toNat = 0 := by omega
    have hpow : 2 ^ 53 ≤ 2 ^ (-e).toNat := Nat.pow_le_pow_right (by decide) (by omega)
    rw [hzero, Nat.pow_zero, Nat.mul_one]
    exact Nat.lt_of_lt_of_le (Nat.lt_of_lt_of_le hm hpow)
      (Nat.le_mul_of_pos_left _ (Nat.pos_of_ne_zero hn))

/-- A float less than the one that `n` is rounded to is cut off below `n`. -/
theorem Nearest.cut_lt {m n m' : Nat} {e e' : Int} (hn : n ≠ 0)
    (h : Nearest (n * 2 ^ 53) (n.log2 + 1) (n.log2 - 52) m e) (hm' : m' < 2 ^ 53)
    (hlegal : 2 ^ 52 ≤ m' ∨ e' = -1074) (hlt : e' < e ∨ e' = e ∧ m' < m) :
    m' * 2 ^ e'.toNat / 2 ^ (-e').toNat < n := by
  refine Rounding.cut_lt hn hm' fun hlow => ?_
  by_cases hsmall : e' < n.log2 - 52
  · -- with a lesser exponent than that of `n`, every float is less than `n`
    have hpow : 2 ^ (e' + 53).toNat ≤ n :=
      Nat.le_trans (Nat.pow_le_pow_right (by decide) (by omega)) (Nat.log2_self_le hn)
    calc m' * 2 ^ (e' + 53).toNat < 2 ^ 53 * 2 ^ (e' + 53).toNat :=
          Nat.mul_lt_mul_of_pos_right hm' (Nat.two_pow_pos _)
      _ ≤ 2 ^ 53 * n := Nat.mul_le_mul_left _ hpow
      _ = n * 2 ^ 53 := Nat.mul_comm _ _
  · -- otherwise the exponents are equal, and the mantissas decide
    have hexp : (e' + 53).toNat = n.log2 + 1 := by cases h <;> omega
    have hdiv := Nat.div_add_mod (n * 2 ^ 53) (2 ^ (n.log2 + 1))
    rw [hexp, Nat.mul_comm m']
    cases h with
    | below =>
        have hless : m' < n * 2 ^ 53 / 2 ^ (n.log2 + 1) := by omega
        have := Nat.mul_lt_mul_of_pos_left hless (Nat.two_pow_pos (n.log2 + 1))
        omega
    | above hlost | carried hlost =>
        have hle : m' ≤ n * 2 ^ 53 / 2 ^ (n.log2 + 1) := by omega
        have := Nat.mul_le_mul_left (2 ^ (n.log2 + 1)) hle
        omega

/-! ## Comparisons -/

theorem lt_iff {x y : Float} :
    x < y ↔ UnpackedFloat.compare x.toModel.unpack y.toModel.unpack = some .lt := by
  change (decide (UnpackedFloat.lt x.toModel.unpack y.toModel.unpack = true)) = true ↔ _
  rw [decide_eq_true_iff, UnpackedFloat.lt, beq_iff_eq]

theorem le_iff {x y : Float} :
    x ≤ y ↔ (UnpackedFloat.compare x.toModel.unpack y.toModel.unpack).any (·.isLE) = true := by
  change (decide (UnpackedFloat.le x.toModel.unpack y.toModel.unpack = true)) = true ↔ _
  rw [decide_eq_true_iff, UnpackedFloat.le]

theorem not_lt_zero {x : Float} (h : 0 ≤ x) : ¬ x < 0 := by
  have hzero : (0 : Float).toModel.unpack = .zero .positive := rfl
  rw [le_iff, hzero] at h
  rw [lt_iff, hzero]
  cases hx : x.toModel.unpack with
  | notANumber | zero s => simp [UnpackedFloat.compare]
  | infinity s | finite s =>
      rw [hx] at h
      cases s with
      | positive => simp [UnpackedFloat.compare]
      | negative => simp [UnpackedFloat.compare] at h

/-- What is less than a whole number as a float is cut off below that number. -/
theorem toUInt64_lt {x : Float} {n : Nat} (hx : 0 ≤ x) (hlt : x < n.toFloat) :
    x.toUInt64.toNat < n := by
  by_cases hn : n = 0
  · rw [hn] at hlt
    exact absurd hlt (not_lt_zero hx)
  by_cases hlarge : 2 ^ 64 ≤ n
  · exact Nat.lt_of_lt_of_le (UInt64.toNat_lt _) hlarge
  obtain ⟨m, e, hm, hunpack, hnearest⟩ := unpack_toFloat hn (Nat.lt_of_not_le hlarge)
  have hpos := Nat.pos_of_ne_zero hn
  rw [lt_iff, hunpack] at hlt
  refine Nat.lt_of_le_of_lt (toNat_ofNatClamp_le _) ?_
  cases hf : x.toModel.unpack with
  | notANumber | zero s => simpa [toInt] using hpos
  | infinity s =>
      rw [hf] at hlt
      cases s with
      | negative => simpa [toInt] using hpos
      | positive => cases hlt
  | finite s m' e' hm' =>
      cases s with
      | negative =>
          simp only [toInt, roundToInt, Sign.apply]
          omega
      | positive =>
          obtain ⟨hbits, hlegal⟩ := unpack_legal hf
          rw [hf] at hlt
          simp only [UnpackedFloat.compare, Option.some.injEq, Ordering.then_eq_lt,
            Int.compare_eq_lt, Int.compare_eq_eq, Nat.compare_eq_lt] at hlt
          rw [toInt_finite, Int.toNat_natCast]
          exact hnearest.cut_lt hn hbits hlegal hlt

end Rounding

/-- A category is a number below the size of its axis. -/
theorem Kernel.isCategory_lt {depth : Nat} {x : Float} (h : Kernel.isCategory depth x = true) :
    x.toUInt64.toNat < depth := by
  simp only [isCategory, Bool.and_eq_true, decide_eq_true_eq] at h
  exact Rounding.toUInt64_lt h.1.2 h.2

end TensorGraph
