/-
# Row-major numbers and coordinates

Numbers below the count of a list of sizes and coordinate vectors below the
sizes name the same elements: `coordinates` and `position` over the row-major
weights are inverse to each other.

    i < count dims          →  position (coordinates dims i) (strides dims) = i
    c below dims            →  coordinates dims (position c (strides dims)) = c

Every layout fact in this development is a statement about `position` with
other weights; what these two lemmas add is that only coordinates matter.
-/
import Mathlib.Data.List.Forall2
import TensorGraph.RowMajor

namespace TensorGraph.RowMajor

/-- Coordinates of an element of a tensor with the given sizes: one per axis,
below the size of the axis. -/
abbrev Below (c dims : List Nat) : Prop := List.Forall₂ (· < ·) c dims

@[simp] theorem position_nil_left (ss : List Nat) : position [] ss = 0 := by
  cases ss <;> rfl

@[simp] theorem position_nil_right (cs : List Nat) : position cs [] = 0 := by
  cases cs <;> rfl

@[simp] theorem position_cons (c s : Nat) (cs ss : List Nat) :
    position (c :: cs) (s :: ss) = c * s + position cs ss := rfl

/-! ## The count of a list of sizes -/

theorem count_append (xs ys : List Nat) : count (xs ++ ys) = count xs * count ys := by
  induction xs with
  | nil => simp
  | cons d ds ih => simp [ih, Nat.mul_assoc]

/-- A cut between axes splits the count into two factors. -/
theorem count_take_mul_drop (dims : List Nat) (n : Nat) :
    count (dims.take n) * count (dims.drop n) = count dims := by
  rw [← count_append, List.take_append_drop]

theorem count_pos_iff {dims : List Nat} : 0 < count dims ↔ ∀ d ∈ dims, 0 < d := by
  induction dims with
  | nil => simp
  | cons d ds ih =>
      simp only [count_cons, List.forall_mem_cons, ← ih]
      exact ⟨fun h => ⟨Nat.pos_of_mul_pos_right h, Nat.pos_of_mul_pos_left h⟩,
        fun h => Nat.mul_pos h.1 h.2⟩

theorem count_pos_of_below {c dims : List Nat} (h : Below c dims) : 0 < count dims := by
  induction h with
  | nil => exact Nat.one_pos
  | cons hc _ ih => exact Nat.mul_pos (Nat.zero_lt_of_lt hc) ih

/-! ## Numbers to coordinates -/

theorem below_coordinates {dims : List Nat} (h : 0 < count dims) (i : Nat) :
    Below (coordinates dims i) dims := by
  induction dims with
  | nil => exact .nil
  | cons d ds ih =>
      have hd : 0 < d := Nat.pos_of_mul_pos_right h
      have hds : 0 < count ds := Nat.pos_of_mul_pos_left h
      exact .cons (Nat.mod_lt _ hd) (ih hds)

/-- Digits and weights put the number together again, up to whole turns. -/
theorem position_coordinates_mod (dims : List Nat) (i : Nat) :
    position (coordinates dims i) (strides dims) = i % count dims := by
  induction dims with
  | nil => simp [coordinates, Nat.mod_one]
  | cons d ds ih =>
      simp only [coordinates, strides, position_cons, count_cons, ih]
      rw [Nat.mul_comm d, Nat.mod_mul, Nat.mul_comm (count ds), Nat.add_comm]

theorem position_coordinates {dims : List Nat} {i : Nat} (h : i < count dims) :
    position (coordinates dims i) (strides dims) = i := by
  rw [position_coordinates_mod, Nat.mod_eq_of_lt h]

/-! ## Coordinates to numbers -/

/-- Two digits, of which the second counts up to `n`, stay below the product. -/
theorem flat_lt {i j m n : Nat} (hi : i < m) (hj : j < n) : i * n + j < m * n :=
  calc i * n + j < i * n + n := by omega
    _ = (i + 1) * n := by rw [Nat.succ_mul]
    _ ≤ m * n := Nat.mul_le_mul_right _ hi

theorem position_lt_count {c dims : List Nat} (h : Below c dims) :
    position c (strides dims) < count dims := by
  induction h with
  | nil => exact Nat.one_pos
  | cons hc _ ih => exact flat_lt hc ih

/-- Only what is left of a number after whole turns decides its coordinates. -/
theorem coordinates_mod (dims : List Nat) (i k : Nat) (h : 0 < count dims) :
    coordinates dims (k * count dims + i) = coordinates dims i := by
  induction dims generalizing k with
  | nil => rfl
  | cons d ds ih =>
      have hds : 0 < count ds := Nat.pos_of_mul_pos_left h
      have regroup : k * (d * count ds) = k * d * count ds := (Nat.mul_assoc ..).symm
      simp only [coordinates, count_cons, regroup, ih (k * d) hds]
      rw [Nat.add_comm, Nat.add_mul_div_right _ _ hds, Nat.add_mul_mod_self_right]

theorem coordinates_position {c dims : List Nat} (h : Below c dims) :
    coordinates dims (position c (strides dims)) = c := by
  induction h with
  | nil => rfl
  | @cons c d cs ds hc hcs ih =>
      have hds : 0 < count ds := count_pos_of_below hcs
      have hrest : position cs (strides ds) < count ds := position_lt_count hcs
      simp only [strides, position_cons, coordinates, coordinates_mod ds _ c hds, ih]
      rw [Nat.add_comm, Nat.add_mul_div_right _ _ hds, Nat.div_eq_of_lt hrest, Nat.zero_add,
        Nat.mod_eq_of_lt hc]

/-! ## Other weights -/

/-- Dense weights differ from the row-major ones only along axes of size one,
where every coordinate is zero. -/
theorem position_of_dense {c dims ss : List Nat} (h : Below c dims)
    (hlen : ss.length = dims.length) (hd : dense dims ss = true) :
    position c ss = position c (strides dims) := by
  induction h generalizing ss with
  | nil => simp
  | @cons c d cs ds hc _ ih =>
      match ss, hlen with
      | s :: ss, hlen =>
          simp only [dense, Bool.and_eq_true, Bool.or_eq_true, beq_iff_eq] at hd
          simp only [position_cons, strides, ih (Nat.succ.inj hlen) hd.2]
          rcases hd.1 with rfl | rfl
          · have : c = 0 := by omega
            simp [this]
          · rfl

/-- No coordinates reach further than the last ones. -/
theorem position_le_last {c dims : List Nat} (h : Below c dims) (ss : List Nat) :
    position c ss ≤ position (dims.map (· - 1)) ss := by
  induction h generalizing ss with
  | nil => simp
  | @cons c d cs ds hc _ ih =>
      cases ss with
      | nil => simp
      | cons s ss =>
          have : c * s ≤ (d - 1) * s := Nat.mul_le_mul_right _ (by omega)
          simpa using Nat.add_le_add this (ih ss)

/-- Dense weights take the last coordinates to the last number. -/
theorem position_last_of_dense {dims ss : List Nat} (hpos : 0 < count dims)
    (hlen : ss.length = dims.length) (hd : dense dims ss = true) :
    position (dims.map (· - 1)) ss + 1 = count dims := by
  induction dims generalizing ss with
  | nil => simp
  | cons d ds ih =>
      match ss, hlen with
      | s :: ss, hlen =>
          have hds : 0 < count ds := Nat.pos_of_mul_pos_left hpos
          have hdpos : 0 < d := Nat.pos_of_mul_pos_right hpos
          simp only [dense, Bool.and_eq_true, Bool.or_eq_true, beq_iff_eq] at hd
          have rest := ih hds (Nat.succ.inj hlen) hd.2
          simp only [List.map_cons, position_cons, count_cons, Nat.add_assoc, rest]
          rcases hd.1 with rfl | rfl
          · simp
          · rw [← Nat.succ_mul]
            congr 1
            omega

end TensorGraph.RowMajor
