/-
# When words are as good as numbers

What is computed in words is right modulo the number of words, whatever wraps around on
the way: sums and products may be taken before or after, and taking a number apart stays
below it.  So answers in words are exact as soon as the exact answers are words.

| answer | is that of the exact layout |
| :-- | :-- |
| `size`, `locate` | modulo the number of words (`size_eq`, `locate_eq`) |
| `extent` | modulo the number of words, if the count is not mistaken for zero (`extent_eq`) |
| `isPacked` | if the number of elements is a word, and not zero (`isPacked_eq`) |
| `packed` | likewise (`exact_packed`, `locate_packed`) |

A layout whose extent is a word has all its elements at places that are words.  That is so
for every value inside an array, since the length of an array is one (`View.locate_words`).
-/
import TensorGraph.Layout.Words
import TensorGraph.Proofs.Layouts
import TensorGraph.View

namespace TensorGraph

open RowMajor (coordinates position)

/-- Words keep the numbers that they are large enough for. -/
theorem map_toNat_ofNat {xs : List Nat} (h : ∀ x ∈ xs, x < UInt64.size) :
    (xs.map UInt64.ofNat).map UInt64.toNat = xs := by
  rw [List.map_map]
  calc xs.map (UInt64.toNat ∘ UInt64.ofNat)
      = xs.map id := List.map_congr_left fun x hx => UInt64.toNat_ofNat_of_lt' (h x hx)
    _ = xs := List.map_id xs

/-- No weight is larger than the count, if that is not zero. -/
theorem RowMajor.le_count_of_mem_strides {dims : List Nat} (hpos : count dims ≠ 0) {k : Nat}
    (hk : k ∈ strides dims) : k ≤ count dims := by
  induction dims with
  | nil => cases hk
  | cons d ds ih =>
      obtain ⟨hd, hds⟩ := Nat.mul_ne_zero_iff.mp hpos
      have hle : count ds ≤ d * count ds := Nat.le_mul_of_pos_left _ (Nat.pos_of_ne_zero hd)
      rcases List.mem_cons.mp hk with rfl | hk
      · exact hle
      · exact Nat.le_trans (ih hds hk) hle

namespace WordLayout

/-! ## Counts and weights -/

theorem foldl_mul_eq (dims : List UInt64) (n : UInt64) :
    dims.foldl (· * ·) n = n * UInt64.ofNat (RowMajor.count (dims.map UInt64.toNat)) := by
  induction dims generalizing n with
  | nil => exact (UInt64.mul_one n).symm
  | cons d ds ih =>
      rw [List.foldl_cons, ih, List.map_cons, RowMajor.count_cons, UInt64.ofNat_mul,
        UInt64.ofNat_toNat, UInt64.mul_assoc]

theorem count_eq (dims : List UInt64) :
    count dims = UInt64.ofNat (RowMajor.count (dims.map UInt64.toNat)) := by
  rw [count, foldl_mul_eq, UInt64.one_mul]

theorem weights_eq (dims : List UInt64) :
    weights dims = (UInt64.ofNat (RowMajor.count (dims.map UInt64.toNat)),
      (RowMajor.strides (dims.map UInt64.toNat)).map UInt64.ofNat) := by
  induction dims with
  | nil => rfl
  | cons d ds ih =>
      have hstep : weights (d :: ds) = ((weights ds).1 * d, (weights ds).1 :: (weights ds).2) := rfl
      rw [hstep, ih, List.map_cons, RowMajor.count_cons, UInt64.ofNat_mul, UInt64.ofNat_toNat,
        UInt64.mul_comm]
      rfl

theorem exact_packed (kind : ElementKind) {dims : List UInt64}
    (hpos : RowMajor.count (dims.map UInt64.toNat) ≠ 0)
    (hsize : RowMajor.count (dims.map UInt64.toNat) < UInt64.size) :
    (packed kind dims).exact = Layout.packed kind ⟨dims.map UInt64.toNat⟩ := by
  have hstrides : ((RowMajor.strides (dims.map UInt64.toNat)).map UInt64.ofNat).map UInt64.toNat
      = RowMajor.strides (dims.map UInt64.toNat) :=
    map_toNat_ofNat fun k hk => Nat.lt_of_le_of_lt (RowMajor.le_count_of_mem_strides hpos hk) hsize
  rw [packed, exact, weights_eq, hstrides]
  rfl

/-! ## Places -/

variable {w : WordLayout}

theorem size_eq (w : WordLayout) : w.size = UInt64.ofNat w.exact.size := count_eq w.dims

theorem exact_size_ne_zero (h : w.size ≠ 0) : w.exact.size ≠ 0 := by
  intro hzero
  rw [size_eq, hzero] at h
  exact h rfl

theorem strided_exact (w : WordLayout) :
    w.exact.strided = (w.dims.map UInt64.toNat).take w.strides.length := by
  rw [Layout.strided, exact, List.length_map]

theorem regular_exact_iff : w.exact.Regular ↔ w.strides.length = w.dims.length := by
  rw [Layout.Regular, exact, List.length_map, List.length_map]

theorem start_toNat (w : WordLayout) : w.start.toNat = w.exact.start := by
  have hbytes : (UInt64.ofNat w.kind.bytes).toNat = w.kind.bytes := by
    cases w.kind <;> rfl
  rw [start, UInt64.toNat_div, hbytes]
  rfl

theorem start_eq (w : WordLayout) : w.start = UInt64.ofNat w.exact.start := by
  rw [← start_toNat, UInt64.ofNat_toNat]

/-- After some axes, the rest of the number is what the axes before them have to share. -/
theorem foldr_advance_fst (ds ss : List UInt64) (i a : UInt64) :
    ((ds.zip ss).foldr advance (i, a)).1.toNat
      = i.toNat / RowMajor.count ((ds.map UInt64.toNat).take ss.length) := by
  induction ds generalizing ss with
  | nil => simp
  | cons d ds ih =>
      cases ss with
      | nil => simp
      | cons s ss =>
          have hrest := ih ss
          simp only [List.zip_cons_cons, List.foldr_cons, advance, UInt64.toNat_div, hrest,
            List.map_cons, List.length_cons, List.take_succ_cons, RowMajor.count_cons,
            Nat.div_div_eq_div_mul, Nat.mul_comm]

theorem foldr_advance_snd (ds ss : List UInt64) (i a : UInt64) :
    ((ds.zip ss).foldr advance (i, a)).2
      = a + UInt64.ofNat (position (coordinates ((ds.map UInt64.toNat).take ss.length) i.toNat)
          (ss.map UInt64.toNat)) := by
  induction ds generalizing ss with
  | nil => simp [coordinates]
  | cons d ds ih =>
      cases ss with
      | nil => simp
      | cons s ss =>
          have hdigit : ((ds.zip ss).foldr advance (i, a)).1 % d = UInt64.ofNat
              (i.toNat / RowMajor.count ((ds.map UInt64.toNat).take ss.length) % d.toNat) := by
            rw [← foldr_advance_fst ds ss i a, ← UInt64.toNat_mod, UInt64.ofNat_toNat]
          simp only [List.zip_cons_cons, List.foldr_cons, advance, hdigit, ih ss, List.map_cons,
            List.length_cons, List.take_succ_cons, coordinates, RowMajor.position_cons,
            UInt64.ofNat_add, UInt64.ofNat_mul, UInt64.ofNat_toNat]
          rw [UInt64.add_assoc, UInt64.add_comm (UInt64.ofNat _ * s)]

theorem locate_eq (w : WordLayout) (i : UInt64) :
    w.locate i = UInt64.ofNat (w.exact.locate i.toNat) := by
  rw [locate, axes, foldr_advance_snd, start_eq, Layout.locate, strided_exact, UInt64.ofNat_add]
  rfl

/-- Elements side by side lie where they are counted. -/
theorem locate_packed (kind : ElementKind) {dims : List UInt64} {i : UInt64}
    (hi : i.toNat < RowMajor.count (dims.map UInt64.toNat))
    (hsize : RowMajor.count (dims.map UInt64.toNat) < UInt64.size) :
    (packed kind dims).locate i = i := by
  have hregular := Layout.regular_packed kind ⟨dims.map UInt64.toNat⟩
  rw [locate_eq, exact_packed kind (Nat.ne_zero_of_lt hi) hsize,
    hregular.locate_of_isPacked (Layout.isPacked_packed _ _) hi, Layout.start_packed, Nat.zero_add,
    UInt64.ofNat_toNat]

theorem foldl_reach (ds ss : List UInt64) (hpos : ∀ d ∈ ds, d ≠ 0) (n : UInt64) :
    ((ds.zip ss).map fun a => (a.1 - 1) * a.2).foldl (· + ·) n
      = n + UInt64.ofNat (position (((ds.map UInt64.toNat).take ss.length).map (· - 1))
          (ss.map UInt64.toNat)) := by
  induction ds generalizing ss n with
  | nil => simp
  | cons d ds ih =>
      cases ss with
      | nil => simp
      | cons s ss =>
          have hd : 1 ≤ d.toNat := by
            have hne : d.toNat ≠ 0 := fun hzero => hpos d (.head _) (UInt64.toNat_inj.mp hzero)
            omega
          have hlast : d - 1 = UInt64.ofNat (d.toNat - 1) := by
            rw [UInt64.ofNat_sub hd, UInt64.ofNat_toNat]
            rfl
          simp only [List.zip_cons_cons, List.map_cons, List.foldl_cons, hlast,
            ih ss (fun e he => hpos e (.tail _ he)), List.length_cons, List.take_succ_cons,
            RowMajor.position_cons, UInt64.ofNat_add, UInt64.ofNat_mul, UInt64.ofNat_toNat,
            UInt64.add_assoc]

theorem extent_eq (hpos : w.size ≠ 0) : w.extent = UInt64.ofNat w.exact.extent := by
  have hexact := exact_size_ne_zero hpos
  have hdims : ∀ d ∈ w.dims, d ≠ 0 := by
    intro d hd hzero
    have hcount := RowMajor.count_pos_iff.mp (Nat.pos_of_ne_zero hexact) d.toNat
      (List.mem_map_of_mem hd)
    rw [hzero] at hcount
    exact absurd hcount (Nat.lt_irrefl 0)
  rw [extent, if_neg hpos, axes, foldl_reach _ _ hdims, UInt64.zero_add, start_eq,
    Layout.extent, if_neg hexact, strided_exact, UInt64.ofNat_add, UInt64.ofNat_add]
  rfl

theorem foldr_compare_fst (ds ss : List UInt64) :
    ((ds.zip ss).foldr compare (1, true)).1
      = UInt64.ofNat (RowMajor.count ((ds.map UInt64.toNat).take ss.length)) := by
  induction ds generalizing ss with
  | nil => simp
  | cons d ds ih =>
      cases ss with
      | nil => simp
      | cons s ss =>
          simp only [List.zip_cons_cons, List.foldr_cons, compare, ih ss, List.map_cons,
            List.length_cons, List.take_succ_cons, RowMajor.count_cons, UInt64.ofNat_mul,
            UInt64.ofNat_toNat, UInt64.mul_comm]

theorem foldr_compare_snd {ds ss : List UInt64} (hlen : ss.length = ds.length)
    (hpos : RowMajor.count (ds.map UInt64.toNat) ≠ 0)
    (hlt : RowMajor.count (ds.map UInt64.toNat) < UInt64.size) :
    ((ds.zip ss).foldr compare (1, true)).2
      = RowMajor.dense (ds.map UInt64.toNat) (ss.map UInt64.toNat) := by
  induction ds generalizing ss with
  | nil => rfl
  | cons d ds ih =>
      obtain ⟨s, ss, rfl⟩ := List.exists_cons_of_length_eq_add_one hlen
      have hrest : ss.length = ds.length := Nat.succ.inj hlen
      rw [List.map_cons, RowMajor.count_cons] at hpos hlt
      have hle : RowMajor.count (ds.map UInt64.toNat)
          ≤ d.toNat * RowMajor.count (ds.map UInt64.toNat) :=
        Nat.le_mul_of_pos_left _ (Nat.pos_of_ne_zero (Nat.mul_ne_zero_iff.mp hpos).1)
      have hdense : (s == UInt64.ofNat (RowMajor.count (ds.map UInt64.toNat)))
          = (s.toNat == RowMajor.count (ds.map UInt64.toNat)) := by
        rw [Bool.eq_iff_iff, beq_iff_eq, beq_iff_eq, ← UInt64.toNat_inj,
          UInt64.toNat_ofNat_of_lt' (Nat.lt_of_le_of_lt hle hlt)]
      have hone : (d == 1) = (d.toNat == 1) := by
        rw [Bool.eq_iff_iff, beq_iff_eq, beq_iff_eq, ← UInt64.toNat_inj]
        rfl
      have hwhole : (ds.map UInt64.toNat).take ss.length = ds.map UInt64.toNat := by
        rw [hrest, ← List.length_map UInt64.toNat, List.take_length]
      simp only [List.zip_cons_cons, List.foldr_cons, compare, foldr_compare_fst, hwhole, hdense,
        hone, ih hrest (Nat.mul_ne_zero_iff.mp hpos).2 (Nat.lt_of_le_of_lt hle hlt), List.map_cons,
        RowMajor.dense]

theorem isPacked_eq (h : w.exact.Regular) (hpos : w.exact.size ≠ 0)
    (hsize : w.exact.size < UInt64.size) : w.isPacked = w.exact.isPacked := by
  rw [Layout.isPacked, h.strided]
  exact foldr_compare_snd (regular_exact_iff.mp h) hpos hsize

/-! ## Nothing wraps around -/

theorem size_toNat (hsize : w.exact.size < UInt64.size) : w.size.toNat = w.exact.size := by
  rw [size_eq, UInt64.toNat_ofNat_of_lt' hsize]

section Extent

variable (hextent : w.exact.extent < UInt64.size)

include hextent

theorem extent_toNat (hpos : w.size ≠ 0) : w.extent.toNat = w.exact.extent := by
  rw [extent_eq hpos, UInt64.toNat_ofNat_of_lt' hextent]

theorem locate_toNat (h : w.exact.Regular) {i : UInt64} (hi : i.toNat < w.exact.size) :
    (w.locate i).toNat = w.exact.locate i.toNat := by
  have hlt := Nat.lt_trans (h.locate_lt_extent hi) hextent
  rw [locate_eq, UInt64.toNat_ofNat_of_lt' hlt]

end Extent
end WordLayout

/-! ## Layouts that are held in words -/

namespace Layout

/-- The numbers of a layout are words, and so is the number of its elements. -/
structure InWords (l : Layout) : Prop where
  dims : ∀ d ∈ l.shape.dims, d < UInt64.size
  strides : ∀ s ∈ l.strides, s < UInt64.size
  byteOffset : l.byteOffset < UInt64.size
  size : l.size < UInt64.size

instance (l : Layout) : Decidable l.InWords :=
  decidable_of_iff ((∀ d ∈ l.shape.dims, d < UInt64.size) ∧ (∀ s ∈ l.strides, s < UInt64.size) ∧
      l.byteOffset < UInt64.size ∧ l.size < UInt64.size)
    ⟨fun h => ⟨h.1, h.2.1, h.2.2.1, h.2.2.2⟩, fun h => ⟨h.dims, h.strides, h.byteOffset, h.size⟩⟩

namespace InWords

variable {l : Layout} (h : l.InWords)

include h

theorem exact_words : l.words.exact = l := by
  have hdims := map_toNat_ofNat h.dims
  have hstrides := map_toNat_ofNat h.strides
  have hoffset := UInt64.toNat_ofNat_of_lt' h.byteOffset
  rw [WordLayout.exact, words, hdims, hstrides, hoffset]

theorem size_words : l.words.size.toNat = l.size := by
  have hexact := h.exact_words
  rw [WordLayout.size_toNat (hexact.symm ▸ h.size), hexact]

theorem isPacked_words (hregular : l.Regular) (hpos : l.size ≠ 0) :
    l.words.isPacked = l.isPacked := by
  have hexact := h.exact_words
  rw [WordLayout.isPacked_eq (hexact.symm ▸ hregular) (hexact.symm ▸ hpos)
    (hexact.symm ▸ h.size), hexact]

theorem extent_words (hextent : l.extent < UInt64.size) : l.words.extent.toNat = l.extent := by
  have hexact := h.exact_words
  by_cases hzero : l.words.size = 0
  · have hsize : l.size = 0 := by rw [← h.size_words, hzero]; rfl
    rw [WordLayout.extent, if_pos hzero, WordLayout.start_toNat, hexact, extent, if_pos hsize]
  · rw [WordLayout.extent_toNat (hexact.symm ▸ hextent) hzero, hexact]

theorem locate_words (hregular : l.Regular) (hextent : l.extent < UInt64.size) {i : Nat}
    (hi : i < l.size) : (l.words.locate (UInt64.ofNat i)).toNat = l.locate i := by
  have hexact := h.exact_words
  have hword := UInt64.toNat_ofNat_of_lt' (Nat.lt_trans hi h.size)
  rw [WordLayout.locate_toNat (hexact.symm ▸ hextent) (hexact.symm ▸ hregular)
    (by rw [hexact, hword]; exact hi), hexact, hword]

/-- Words find the elements of a value below `k` where numbers find them. -/
theorem forall_locate_lt_iff (hregular : l.Regular) (hextent : l.extent < UInt64.size) {k : Nat} :
    (∀ i < l.words.size, (l.words.locate i).toNat < k) ↔ ∀ i < l.size, l.locate i < k := by
  have hlocate := fun i hi => h.locate_words hregular hextent (i := i) hi
  constructor
  · intro hin i hi
    have hword := UInt64.toNat_ofNat_of_lt' (Nat.lt_trans hi h.size)
    rw [← hlocate i hi]
    exact hin _ (UInt64.lt_iff_toNat_lt.mpr (by rwa [hword, h.size_words]))
  · intro hin i hi
    have hnat : i.toNat < l.size := h.size_words ▸ UInt64.lt_iff_toNat_lt.mp hi
    have hplace := hlocate _ hnat
    rw [UInt64.ofNat_toNat] at hplace
    exact hplace.symm ▸ hin _ hnat

end InWords
end Layout

/-- The length of an array is a word.  So a value that lies inside one is read at the same
places in words. -/
theorem View.locate_words {α : Type} {v : View α} (h : v.layout.InWords)
    (hregular : v.layout.Regular) (hfit : v.layout.extent ≤ v.data.size)
    (hdata : v.data.size < UInt64.size) {i : Nat} (hi : i < v.size) :
    (v.layout.words.locate (UInt64.ofNat i)).toNat = v.layout.locate i :=
  h.locate_words hregular (Nat.lt_of_le_of_lt hfit hdata) hi

end TensorGraph
