/-
# Floats that calculate with whole numbers

A float has a mantissa of 53 bits, so it stands for a whole number if that has no more
significant bits (`Short`).  As long as a result is such a number, nothing is lost by
rounding:

    short integers become floats         `number_ofInt_of_short`, `number_toFloat`
    products and sums that are short     `number_mul`, `number_add`
    floats that are whole numbers, cut   `toInt_of_number`

And nothing but short numbers comes of floats, bounds apart: `short_toInt`.

All numbers are kept below `2 ^ 200`, where exponents are moderate.
-/
import TensorGraph.Proofs.Categories

namespace TensorGraph.Rounding

open Float.Model Float.Model.UnpackedFloat

/-! ## Short numbers -/

/-- A whole number of at most 53 significant bits. -/
def Short (n : Int) : Prop := ∃ m k : Nat, m < 2 ^ 53 ∧ n.natAbs = m * 2 ^ k

theorem short_of_lt {n : Int} (h : n.natAbs < 2 ^ 53) : Short n :=
  ⟨n.natAbs, 0, h, (Nat.mul_one _).symm⟩

/-- What a short number is when powers of two are taken out of it is short. -/
theorem short_of_mul_pow {m n k j : Nat} (hn : n < 2 ^ 53) (h : m * 2 ^ k = n * 2 ^ j) :
    Short m := by
  rcases Nat.le_total k j with hle | hle
  · refine ⟨n, j - k, hn, Nat.eq_of_mul_eq_mul_right (Nat.two_pow_pos k) ?_⟩
    rw [Int.natAbs_natCast, h, Nat.mul_assoc, ← Nat.pow_add, Nat.sub_add_cancel hle]
  · refine short_of_lt (Nat.lt_of_le_of_lt ?_ hn)
    rw [Int.natAbs_natCast]
    refine Nat.le_of_mul_le_mul_right ?_ (Nat.two_pow_pos j)
    calc m * 2 ^ j ≤ m * 2 ^ k := Nat.mul_le_mul_left _ (Nat.pow_le_pow_right (by decide) hle)
      _ = n * 2 ^ j := h

/-- A factor has no more significant bits than the product. -/
theorem Short.of_mul {a b : Int} (h : Short (a * b)) (hb : b ≠ 0) : Short a := by
  by_cases ha : a = 0
  · exact short_of_lt (by rw [ha]; decide)
  · obtain ⟨n, k, hn, hk⟩ := h
    obtain ⟨i, a', ha', hai⟩ := Nat.exists_eq_two_pow_mul_odd (Int.natAbs_ne_zero.mpr ha)
    obtain ⟨j, b', hb', hbj⟩ := Nat.exists_eq_two_pow_mul_odd (Int.natAbs_ne_zero.mpr hb)
    rw [Int.natAbs_mul, hai, hbj] at hk
    have hodd : Odd (a' * b') := ha'.mul hb'
    have hdvd : a' * b' ∣ n := by
      refine (Nat.Coprime.pow_right k hodd.coprime_two_right).dvd_of_dvd_mul_right ?_
      exact ⟨2 ^ i * 2 ^ j, by rw [← hk]; ring⟩
    have hne : n ≠ 0 := by
      rintro rfl
      rw [Nat.zero_mul] at hk
      have := Int.natAbs_ne_zero.mpr ha
      have := Int.natAbs_ne_zero.mpr hb
      simp_all
    refine ⟨a', i, ?_, by rw [hai, Nat.mul_comm]⟩
    calc a' ≤ a' * b' := Nat.le_mul_of_pos_right _ hb'.pos
      _ ≤ n := Nat.le_of_dvd (Nat.pos_of_ne_zero hne) hdvd
      _ < 2 ^ 53 := hn

/-- The bits of a short number beyond the first 53 are zeros. -/
theorem Short.pow_dvd {n s : Nat} (h : Short n) (hn : n ≠ 0) (hs : 52 + s ≤ n.log2) :
    2 ^ s ∣ n := by
  obtain ⟨m, k, hm, hk⟩ := h
  rw [Int.natAbs_natCast] at hk
  have hne : m ≠ 0 := by
    rintro rfl
    exact hn (by rw [hk, Nat.zero_mul])
  have hlog : m.log2 < 53 := (Nat.log2_lt hne).mpr hm
  have hsum := congrArg Nat.log2 hk
  rw [log2_mul_pow hne] at hsum
  have hle : s ≤ k := by omega
  rw [hk]
  exact (Nat.pow_dvd_pow 2 hle).trans (Nat.dvd_mul_left _ _)

theorem Short.mul_pow {n : Nat} (h : Short n) (k : Nat) : Short (n * 2 ^ k : Nat) := by
  obtain ⟨m, j, hm, hj⟩ := h
  rw [Int.natAbs_natCast] at hj
  refine ⟨m, j + k, hm, ?_⟩
  rw [Int.natAbs_natCast, hj, Nat.mul_assoc, ← Nat.pow_add]

/-! ## Rounding -/

/-- What is true of magnitudes is true with a sign. -/
theorem signed_eq (sign : Sign) {m n : Nat} {p q : ℚ} (h : (m : ℚ) * p = n * q) :
    ((sign.apply m : Int) : ℚ) * p = ((sign.apply n : Int) : ℚ) * q := by
  cases sign with
  | positive => simpa only [Sign.apply, Int.cast_natCast] using h
  | negative => simpa only [Sign.apply, Int.cast_neg, Int.cast_natCast, neg_mul, neg_inj] using h

/-- A mantissa and an exponent for a whole number, as a statement about whole numbers. -/
theorem scaled_eq {m n : Nat} {e : Int} (h : (m : ℚ) * 2 ^ e = n) :
    m * 2 ^ e.toNat = n * 2 ^ (-e).toNat := by
  have hexp : (e.toNat : Int) = e + (-e).toNat := by omega
  have hscaled : (m : ℚ) * 2 ^ (e.toNat : Int) = n * 2 ^ ((-e).toNat : Int) := by
    rw [hexp, zpow_add₀ (by norm_num), ← mul_assoc, h]
  rw [zpow_natCast, zpow_natCast] at hscaled
  exact_mod_cast hscaled

section Scaled

variable {m n : Nat} {e : Int} (hm : m ≠ 0) (h : (m : ℚ) * 2 ^ e = n)

include hm h

theorem log2_scaled : (m.log2 : Int) + e = n.log2 := by
  have hscaled := scaled_eq h
  have hn : n ≠ 0 := by
    rintro rfl
    rw [Nat.zero_mul] at hscaled
    exact Nat.mul_ne_zero hm (Nat.two_pow_pos _).ne' hscaled
  have hlog := congrArg Nat.log2 hscaled
  rw [log2_mul_pow hm, log2_mul_pow hn] at hlog
  omega

omit hm in
theorem Short.of_scaled (hn : Short n) : Short m := by
  obtain ⟨n', k, hlt, hk⟩ := hn
  rw [Int.natAbs_natCast] at hk
  refine short_of_mul_pow (k := e.toNat) (j := k + (-e).toNat) hlt ?_
  rw [scaled_eq h, hk, Nat.mul_assoc, ← Nat.pow_add]

end Scaled

/-- A long mantissa is shortened and not brought to length first. -/
theorem round_of_long (sign : Sign) {m : Nat} {e : Int} (hm : 52 ≤ m.log2) (he : -1074 ≤ e) :
    UnpackedFloat.round Format.binary64 sign m e
      = roundWithAccuracy Format.binary64 sign m e .exact := by
  have ht : Format.binary64.targetExponent (totalExponent m e) = m.log2 + e - 52 := by
    rw [targetExponent_eq]
    omega
  have hshift : (e - (m.log2 + e - 52)).toNat = 0 := by omega
  simp only [UnpackedFloat.round, decreaseExponent, ht, hshift, Nat.shiftLeft_zero]
  simp

/-- A short whole number is not changed by rounding, however its mantissa is given. -/
theorem number_round_of_short (sign : Sign) {m n : Nat} {e : Int} (hm : m ≠ 0)
    (h : (m : ℚ) * 2 ^ e = n) (hshort : Short n) (hsmall : n < 2 ^ 200) (he : -1074 ≤ e) :
    number? (Float.Model.pack (UnpackedFloat.round Format.binary64 sign m e)).unpack
      = some ((sign.apply n : Int) : ℚ) := by
  have hlog := log2_scaled hm h
  have hn : n ≠ 0 := by
    rintro rfl
    rw [Nat.cast_zero, mul_eq_zero, or_iff_left (zpow_ne_zero e (by norm_num))] at h
    exact hm (by exact_mod_cast h)
  have hlt : n.log2 < 200 := (Nat.log2_lt hn).mpr hsmall
  have hsigned : ((sign.apply m : Int) : ℚ) * 2 ^ e = ((sign.apply n : Int) : ℚ) := by
    rw [signed_eq sign (h.trans (mul_one _).symm), mul_one]
  by_cases hlen : m < 2 ^ 53
  · rw [number_round hm hlen sign (by omega) (by omega), hsigned]
  · have hlong : 53 ≤ m.log2 := (Nat.le_log2 hm).mpr (Nat.le_of_not_lt hlen)
    obtain ⟨s, hs⟩ := Nat.exists_eq_add_of_le (Nat.le_of_succ_le hlong)
    have hdvd : 2 ^ s ∣ m := (Short.of_scaled h hshort).pow_dvd hm hs.ge
    obtain ⟨m', e', hpos, hround, hlen', hnearest⟩ := round_nearest sign (e := e) hs (by omega)
    rw [round_of_long sign (by omega) he, hround]
    cases hnearest with
    | above hlost | carried hlost => exact absurd (Nat.mod_eq_zero_of_dvd hdvd) hlost
    | below =>
        rw [unpack_pack hlen' (by omega) (by omega), number?]
        have hdiv : m / 2 ^ s * 2 ^ s = m := Nat.div_mul_cancel hdvd
        have hvalue : ((m / 2 ^ s : Nat) : ℚ) * 2 ^ (e + s) = m * 2 ^ e := by
          rw [add_comm, zpow_add₀ (by norm_num), ← mul_assoc, zpow_natCast]
          congr 1
          exact_mod_cast hdiv
        rw [← hsigned, signed_eq sign hvalue]

/-! ## Floats that are whole numbers -/

/-- A float other than zero that stands for a whole number has a long mantissa. -/
theorem finite_of_number {x : Float} {n : Int} (hn : n ≠ 0)
    (hx : number? x.toModel.unpack = some (n : ℚ)) :
    ∃ sign m e hm, x.toModel.unpack = .finite sign m e hm ∧ m.log2 = 52 ∧
      (m : ℚ) * 2 ^ e = n.natAbs ∧ sign.apply n.natAbs = n := by
  cases hf : x.toModel.unpack with
  | notANumber | infinity => simp [hf, number?] at hx
  | zero =>
      rw [hf, number?, Option.some.injEq] at hx
      exact absurd (by exact_mod_cast hx.symm) hn
  | finite sign m e hm =>
      obtain ⟨hshort, hlegal⟩ := unpack_legal hf
      rw [hf, number?, Option.some.injEq] at hx
      have hpos : (0 : ℚ) < m * 2 ^ e := mul_pos (by exact_mod_cast hm) (zpow_pos (by norm_num) e)
      have hvalue : (m : ℚ) * 2 ^ e = n.natAbs ∧ sign.apply n.natAbs = n := by
        cases sign with
        | positive =>
            rw [Sign.apply, Int.cast_natCast] at hx
            have hpos' : (0 : Int) < n := by
              rw [hx] at hpos
              exact_mod_cast hpos
            have habs : (n.natAbs : Int) = n := Int.natAbs_of_nonneg hpos'.le
            have hcast := congrArg (Int.cast : Int → ℚ) habs
            rw [Int.cast_natCast] at hcast
            exact ⟨hx.trans hcast.symm, habs⟩
        | negative =>
            rw [Sign.apply, Int.cast_neg, Int.cast_natCast, neg_mul] at hx
            have hneg : n < 0 := by
              have hlt : (n : ℚ) < 0 := by
                rw [← hx]
                exact neg_neg_of_pos hpos
              exact_mod_cast hlt
            have habs : -(n.natAbs : Int) = n := by omega
            refine ⟨(neg_eq_iff_eq_neg.mp hx).trans ?_, habs⟩
            have hcast := congrArg (Int.cast : Int → ℚ) habs
            rw [Int.cast_neg, Int.cast_natCast] at hcast
            rw [← hcast, neg_neg]
      have hlong : 2 ^ 52 ≤ m := by
        refine hlegal.resolve_right ?_
        intro he
        -- at the least exponent every number is less than one
        have hlog := log2_scaled hm.ne' hvalue.1
        have hlt : m.log2 < 53 := (Nat.log2_lt hm.ne').mpr hshort
        omega
      exact ⟨sign, m, e, hm, rfl, (Nat.log2_eq_iff hm.ne').mpr ⟨hlong, hshort⟩, hvalue⟩

theorem number_pack_zero (sign : Sign) :
    number? (Float.Model.pack (.zero sign)).unpack = some 0 := by
  cases sign with
  | positive => rfl
  | negative => rfl

/-- Such a float can be packed again. -/
theorem number_pack_unpack {x : Float} {n : Int} (hsmall : n.natAbs < 2 ^ 200)
    (hx : number? x.toModel.unpack = some (n : ℚ)) :
    number? (Float.Model.pack x.toModel.unpack).unpack = some (n : ℚ) := by
  by_cases hn : n = 0
  · subst hn
    rw [Int.cast_zero] at hx ⊢
    obtain ⟨sign, hzero⟩ := zero_of_number hx
    rw [hzero, number_pack_zero]
  · obtain ⟨sign, m, e, hm, hunpack, hlen, hvalue, _⟩ := finite_of_number hn hx
    have hlog := log2_scaled hm.ne' hvalue
    have hlt : n.natAbs.log2 < 200 := (Nat.log2_lt (Int.natAbs_ne_zero.mpr hn)).mpr hsmall
    rw [hunpack, unpack_pack hlen (by omega) (by omega), ← hunpack, hx]

/-! ## Arithmetic -/

theorem apply_mul (s t : Sign) (m n : Int) : (s * t).apply (m * n) = s.apply m * t.apply n := by
  cases s with
  | positive =>
      cases t with
      | positive => rfl
      | negative => exact (mul_neg m n).symm
  | negative =>
      cases t with
      | positive => exact (neg_mul m n).symm
      | negative => exact (neg_mul_neg m n).symm

/-- Zero times a finite float is zero. -/
theorem number_mul_zero {x y : Float} {q r : ℚ} (hx : number? x.toModel.unpack = some q)
    (hy : number? y.toModel.unpack = some r) (hzero : q = 0 ∨ r = 0) :
    number? (x * y).toModel.unpack = some 0 := by
  show number? (Float.Model.pack (UnpackedFloat.mul _ _ _)).unpack = _
  rcases hzero with rfl | rfl
  · obtain ⟨sign, hx⟩ := zero_of_number hx
    rw [hx]
    cases hf : y.toModel.unpack with
    | notANumber | infinity => simp [hf, number?] at hy
    | zero | finite => exact number_pack_zero _
  · obtain ⟨sign, hy⟩ := zero_of_number hy
    rw [hy]
    cases hf : x.toModel.unpack with
    | notANumber | infinity => simp [hf, number?] at hx
    | zero | finite => exact number_pack_zero _

/-- A product that is a short whole number is exact. -/
theorem number_mul {x y : Float} {a b : Int} (hx : number? x.toModel.unpack = some (a : ℚ))
    (hy : number? y.toModel.unpack = some (b : ℚ)) (hshort : Short (a * b))
    (hsmall : (a * b).natAbs < 2 ^ 200) :
    number? (x * y).toModel.unpack = some ((a * b : Int) : ℚ) := by
  by_cases hzero : a = 0 ∨ b = 0
  · have hprod : a * b = 0 := mul_eq_zero.mpr hzero
    rw [hprod, Int.cast_zero]
    exact number_mul_zero hx hy (hzero.imp Int.cast_eq_zero.mpr Int.cast_eq_zero.mpr)
  · obtain ⟨ha, hb⟩ := not_or.mp hzero
    obtain ⟨s, m, e, hm, hux, hmlen, hma, hsa⟩ := finite_of_number ha hx
    obtain ⟨t, n, f, hn, huy, hnlen, hnb, htb⟩ := finite_of_number hb hy
    have hvalue : ((m * n : Nat) : ℚ) * 2 ^ (e + f) = (a * b).natAbs := by
      rw [Nat.cast_mul, zpow_add₀ (by norm_num), mul_mul_mul_comm, hma, hnb, Int.natAbs_mul,
        Nat.cast_mul]
    have hne : m * n ≠ 0 := Nat.mul_ne_zero hm.ne' hn.ne'
    have hm52 : 2 ^ 52 ≤ m := hmlen ▸ Nat.log2_self_le hm.ne'
    have hlong : 52 ≤ (m * n).log2 :=
      (Nat.le_log2 hne).mpr (Nat.le_trans hm52 (Nat.le_mul_of_pos_right _ hn))
    have hlogm := log2_scaled hm.ne' hma
    have hlogn := log2_scaled hn.ne' hnb
    have hexp : -1074 ≤ e + f := by omega
    have hround := number_round_of_short (s * t) hne hvalue
      (by rw [Short, Int.natAbs_natCast]; exact hshort) hsmall hexp
    rw [round_of_long (s * t) hlong hexp, Int.natAbs_mul, Nat.cast_mul, apply_mul, hsa, htb]
      at hround
    show number? (Float.Model.pack (UnpackedFloat.mul _ _ _)).unpack = _
    rw [hux, huy]
    exact hround

/-- A short whole number is not changed by being brought to form. -/
theorem number_normalize {n c : Int} {e : Int} (zero : Sign) (h : (n : ℚ) * 2 ^ e = c)
    (hshort : Short c) (hsmall : c.natAbs < 2 ^ 200) (he : -1074 ≤ e) :
    number? (Float.Model.pack (UnpackedFloat.normalize Format.binary64 n e zero)).unpack
      = some (c : ℚ) := by
  by_cases hn : n = 0
  · rw [hn, Int.cast_zero, zero_mul] at h
    rw [hn, ← h, UnpackedFloat.normalize, Int.compare_eq_eq.mpr rfl]
    exact number_pack_zero zero
  · obtain ⟨sign, hround, happly⟩ := normalize_eq hn e zero
    have habs : (n.natAbs : ℚ) * 2 ^ e = c.natAbs := by
      have hnonneg : (0 : ℚ) < 2 ^ e := zpow_pos (by norm_num) e
      rw [Nat.cast_natAbs, Int.cast_abs, Nat.cast_natAbs, Int.cast_abs, ← h, abs_mul,
        abs_of_pos hnonneg]
    have hsigned := signed_eq sign (habs.trans (mul_one _).symm)
    rw [happly, h, mul_one] at hsigned
    rw [hround, number_round_of_short sign (Int.natAbs_ne_zero.mpr hn) habs
      (by rw [Short, Int.natAbs_natCast]; exact hshort) hsmall he, ← hsigned]

/-- A mantissa that is brought to a lesser exponent. -/
theorem decreased_eq (sign : Sign) (m : Nat) {e f : Int} (hle : f ≤ e) :
    ((sign.apply (m <<< (e - f).toNat : Nat) : Int) : ℚ) * 2 ^ f
      = ((sign.apply m : Int) : ℚ) * 2 ^ e := by
  refine signed_eq sign ?_
  have hexp : e = ((e - f).toNat : Int) + f := by omega
  rw [Nat.shiftLeft_eq, Nat.cast_mul, Nat.cast_pow, Nat.cast_ofNat, mul_assoc]
  conv_rhs => rw [hexp, zpow_add₀ (by norm_num), zpow_natCast]

/-- A sum that is a short whole number is exact. -/
theorem number_add {x y : Float} {a b : Int} (hx : number? x.toModel.unpack = some (a : ℚ))
    (hy : number? y.toModel.unpack = some (b : ℚ)) (hshort : Short (a + b))
    (hsmall : (a + b).natAbs < 2 ^ 200) :
    number? (x + y).toModel.unpack = some ((a + b : Int) : ℚ) := by
  show number? (Float.Model.pack (UnpackedFloat.add _ _ _)).unpack = _
  by_cases ha : a = 0
  · rw [ha, Int.cast_zero] at hx
    rw [ha, zero_add] at hsmall ⊢
    obtain ⟨s, hux⟩ := zero_of_number hx
    by_cases hb : b = 0
    · rw [hb, Int.cast_zero] at hy ⊢
      obtain ⟨t, huy⟩ := zero_of_number hy
      rw [hux, huy]
      cases s with
      | positive => cases t with | positive | negative => rfl
      | negative => cases t with | positive | negative => rfl
    · obtain ⟨t, n, f, hn, huy, _⟩ := finite_of_number hb hy
      rw [hux, ← number_pack_unpack hsmall hy, huy]
      rfl
  · obtain ⟨s, m, e, hm, hux, hmlen, hma, hsa⟩ := finite_of_number ha hx
    by_cases hb : b = 0
    · rw [hb, Int.cast_zero] at hy
      rw [hb, add_zero] at hsmall ⊢
      obtain ⟨t, huy⟩ := zero_of_number hy
      rw [huy, ← number_pack_unpack hsmall hx, hux]
      rfl
    · obtain ⟨t, n, f, hn, huy, hnlen, hnb, htb⟩ := finite_of_number hb hy
      have hlogm := log2_scaled hm.ne' hma
      have hlogn := log2_scaled hn.ne' hnb
      have hsigned : ∀ {sign : Sign} {k : Nat} {g c : Int}, (k : ℚ) * 2 ^ g = c.natAbs →
          sign.apply c.natAbs = c → ((sign.apply k : Int) : ℚ) * 2 ^ g = c := by
        intro sign k g c hk hc
        rw [signed_eq sign (hk.trans (mul_one _).symm), hc, mul_one]
      rw [hux, huy]
      refine number_normalize .positive ?_ hshort hsmall (by omega)
      rw [Int.cast_add, add_mul, decreased_eq s m (min_le_left e f),
        decreased_eq t n (min_le_right e f), hsigned hma hsa, hsigned hnb htb, Int.cast_add]

/-! ## From and to whole numbers -/

theorem number_ofInt_of_short {n : Int} (hshort : Short n) (hsmall : n.natAbs < 2 ^ 200) :
    number? (Float.Model.pack (UnpackedFloat.ofInt Format.binary64 n)).unpack = some (n : ℚ) :=
  number_normalize .positive (by rw [zpow_zero, mul_one]) hshort hsmall (by decide)

/-- Integers of 64 bits become finite floats. -/
theorem exists_number_ofInt {n : Int} (hbits : n.natAbs < 2 ^ 64) :
    ∃ q, number? (Float.Model.pack (UnpackedFloat.ofInt Format.binary64 n)).unpack = some q := by
  rcases Nat.lt_or_ge n.natAbs (2 ^ 53) with hlt | hge
  · exact ⟨n, number_ofInt hlt⟩
  · obtain ⟨q, hq, _⟩ := le_number_ofInt hge hbits
    exact ⟨q, hq⟩

/-- So do indices below `2 ^ 64`. -/
theorem exists_number_toFloat {n : Nat} (h : n < 2 ^ 64) :
    ∃ q, number? n.toFloat.toModel.unpack = some q := by
  by_cases hn : n = 0
  · subst hn
    exact ⟨0, rfl⟩
  · obtain ⟨m, e, hm, hunpack, _⟩ := unpack_toFloat hn h
    exact ⟨_, by rw [hunpack]; rfl⟩

theorem number_toFloat {n : Nat} (hshort : Short n) (h : n < 2 ^ 64) :
    number? n.toFloat.toModel.unpack = some (n : ℚ) := by
  by_cases hn : n = 0
  · subst hn
    rw [Nat.cast_zero]
    rfl
  · obtain ⟨m, e, hm, hunpack, hnearest⟩ := unpack_toFloat hn h
    have hdvd : 2 ^ (n.log2 + 1) ∣ n * 2 ^ 53 := by
      refine (hshort.mul_pow 53).pow_dvd (Nat.mul_ne_zero hn (Nat.two_pow_pos _).ne') ?_
      rw [log2_mul_pow hn]
      omega
    rw [hunpack, number?]
    cases hnearest with
    | above hlost | carried hlost => exact absurd (Nat.mod_eq_zero_of_dvd hdvd) hlost
    | below =>
        have hdiv : n * 2 ^ 53 / 2 ^ (n.log2 + 1) * 2 ^ (n.log2 + 1) = n * 2 ^ 53 :=
          Nat.div_mul_cancel hdvd
        have hcast : ((n * 2 ^ 53 / 2 ^ (n.log2 + 1) : Nat) : ℚ) * 2 ^ (n.log2 + 1)
            = n * 2 ^ 53 := by exact_mod_cast hdiv
        have hexp : (n.log2 : Int) - 52 = ((n.log2 + 1 : Nat) : Int) + -53 := by omega
        have hone : (2 : ℚ) ^ 53 * 2 ^ (-53 : Int) = 1 := by norm_num
        rw [Sign.apply, Int.cast_natCast, hexp, zpow_add₀ (by norm_num), zpow_natCast, ← mul_assoc,
          hcast, mul_assoc, hone, mul_one]

/-- A float that stands for a whole number is cut off to it. -/
theorem toInt_of_number {x : Float} {n : Int} (hx : number? x.toModel.unpack = some (n : ℚ))
    (lowest highest : Int) : x.toModel.unpack.toInt lowest highest = n := by
  by_cases hn : n = 0
  · subst hn
    rw [Int.cast_zero] at hx
    obtain ⟨sign, hzero⟩ := zero_of_number hx
    rw [hzero]
    rfl
  · obtain ⟨sign, m, e, hm, hunpack, _, hvalue, happly⟩ := finite_of_number hn hx
    rw [hunpack, toInt_signed, scaled_eq hvalue, Nat.mul_div_cancel _ (Nat.two_pow_pos _), happly]

/-- Whatever float is cut off, what comes of it is a short number, or one of the bounds that
stand for infinities. -/
theorem short_toInt (x : Float) (lowest highest : Int) :
    Short (x.toModel.unpack.toInt lowest highest) ∨
      x.toModel.unpack.toInt lowest highest = lowest ∨
      x.toModel.unpack.toInt lowest highest = highest := by
  cases hf : x.toModel.unpack with
  | notANumber | zero => exact .inl ⟨0, 0, by decide, rfl⟩
  | infinity sign =>
      cases sign with
      | positive => exact .inr (.inr rfl)
      | negative => exact .inr (.inl rfl)
  | finite sign m e hm =>
      have hm53 := (unpack_legal hf).1
      have hshort : Short (m * 2 ^ e.toNat / 2 ^ (-e).toNat : Nat) := by
        rcases Int.le_total 0 e with hle | hle
        · have hzero : (-e).toNat = 0 := by omega
          rw [hzero, Nat.pow_zero, Nat.div_one]
          exact ⟨m, e.toNat, hm53, Int.natAbs_natCast _⟩
        · have hzero : e.toNat = 0 := by omega
          rw [hzero, Nat.pow_zero, Nat.mul_one]
          refine short_of_lt ?_
          rw [Int.natAbs_natCast]
          exact Nat.lt_of_le_of_lt (Nat.div_le_self _ _) hm53
      rw [toInt_signed]
      cases sign with
      | positive => exact .inl hshort
      | negative =>
          refine .inl ?_
          rw [Sign.apply, Short, Int.natAbs_neg]
          exact hshort

end TensorGraph.Rounding
