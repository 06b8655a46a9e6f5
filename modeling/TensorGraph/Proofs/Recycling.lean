/-
# The life of a buffer pool

A pool keeps a count of the bytes that it holds beside the memory itself, and changes the
two apart from each other.  Whatever has been asked of it and given back to it:

    the count is the number of bytes in the pool          (`Balanced`)
    and is at most `trimLevel` between calls              (`Sound`)

What one call does is said by a relation with a case for each of its branches:

| call | case | what comes of it |
| :-- | :-- | :-- |
| `acquire` | hit | the smallest piece that is large enough leaves the pool |
| | miss | no piece is large enough; the pool stays |
| `recycle` | dropped | the limit would be passed; the pool stays |
| | kept | the piece joins the pool, which is trimmed |

Trimming takes out the largest piece again and again (`Trimming`).  So what is taken out is
nowhere smaller than what stays, and the last piece to go, which is the smallest of them,
had to go because the pool was above its level with it.
-/
import Mathlib.Algebra.Group.Nat.Defs
import Mathlib.Data.List.Perm.Basic
import TensorGraph.Element.Integer
import TensorGraph.Plan
import TensorGraph.Pool

namespace TensorGraph.Pool

variable {α : Type}

/-! ## Scans -/

theorem scan_succ (n : Nat) (accepts : Nat → Bool) (replaces : Nat → Nat → Bool) :
    scan (n + 1) accepts replaces =
      if accepts n && (scan n accepts replaces).all (replaces n) then some n
      else scan n accepts replaces := by
  show List.foldl _ none (List.range (n + 1)) = _
  rw [List.range_succ, List.foldl_append]
  rfl

theorem scan_eq_none {n : Nat} {accepts : Nat → Bool} {replaces : Nat → Nat → Bool} :
    scan n accepts replaces = none ↔ ∀ i < n, accepts i = false := by
  induction n with
  | zero => simp [scan]
  | succ n ih =>
      rw [scan_succ, Nat.forall_lt_succ_right, ← ih]
      cases hscan : scan n accepts replaces with
      | none => simp
      | some best =>
          simp only [reduceCtorEq, false_and, iff_false]
          split <;> simp

/-- The index that a scan settles on is accepted and comes up to all accepted ones, where
`r i j` says that `i` comes up to `j`. -/
theorem scan_eq_some {r : Nat → Nat → Prop} {n best : Nat} {accepts : Nat → Bool}
    {replaces : Nat → Nat → Bool} (hrefl : ∀ i, r i i) (htrans : ∀ i j k, r i j → r j k → r i k)
    (hnew : ∀ i j, replaces i j = true → r i j) (hold : ∀ i j, replaces i j = false → r j i)
    (h : scan n accepts replaces = some best) :
    best < n ∧ accepts best = true ∧ ∀ i < n, accepts i = true → r best i := by
  induction n generalizing best with
  | zero => simp [scan] at h
  | succ n ih =>
      rw [scan_succ] at h
      split at h
      · rename_i hgo
        obtain rfl := Option.some.inj h
        obtain ⟨haccepts, hall⟩ := Bool.and_eq_true_iff.mp hgo
        refine ⟨Nat.lt_succ_self n, haccepts, ?_⟩
        intro i hi hacc
        rcases Nat.lt_succ_iff_lt_or_eq.mp hi with hlt | rfl
        · cases hscan : scan n accepts replaces with
          | none =>
              rw [scan_eq_none.mp hscan i hlt] at hacc
              cases hacc
          | some old =>
              rw [hscan] at hall
              exact htrans _ _ _ (hnew _ _ hall) ((ih hscan).2.2 i hlt hacc)
        · exact hrefl i
      · rename_i hstay
        obtain ⟨hlt, haccepts, hbest⟩ := ih h
        refine ⟨Nat.lt_succ_of_lt hlt, haccepts, ?_⟩
        intro i hi hacc
        rcases Nat.lt_succ_iff_lt_or_eq.mp hi with hi | rfl
        · exact hbest i hi hacc
        · refine hold _ _ ?_
          simpa [h, hacc] using hstay

/-! ## Pieces of memory -/

/-- Taking out an entry leaves the others. -/
theorem perm_takeOut {β : Type} {entries : Array β} {i : Nat} {x : β} (h : entries[i]? = some x) :
    entries.toList.Perm (x :: (takeOut entries i).toList) := by
  obtain ⟨hi, hx⟩ := Array.getElem?_eq_some_iff.mp h
  have hlast : entries.size - 1 < entries.size := Nat.sub_lt (Nat.zero_lt_of_lt hi) Nat.one_pos
  have hswap : entries.swapIfInBounds i (entries.size - 1)
      = entries.swap i (entries.size - 1) hi hlast := by
    rw [Array.swapIfInBounds_def, dif_pos hi, dif_pos hlast]
  have hperm := Array.perm_iff_toList_perm.mp (Array.swap_perm hi hlast)
  have hne : (entries.swap i (entries.size - 1) hi hlast).toList ≠ [] := by
    intro hnil
    rw [hnil, List.nil_perm, Array.toList_eq_nil_iff] at hperm
    rw [hperm] at hi
    exact Nat.not_lt_zero i hi
  have hend : (entries.swap i (entries.size - 1) hi hlast).toList.getLast hne = x := by
    rw [List.getLast_eq_getElem]
    simp only [Array.getElem_toList, Array.length_toList, Array.size_swap]
    rw [Array.getElem_swap_right, hx]
  rw [takeOut, hswap, Array.toList_pop]
  refine hperm.symm.trans ?_
  rw [← List.dropLast_append_getLast hne, hend, List.dropLast_concat]
  exact List.perm_append_singleton x _

theorem capacityAt_eq {p : Pool α} {i : Nat} {s : Storage α} (h : p.entries[i]? = some s) :
    p.capacityAt i = s.capacity := by
  rw [capacityAt, h]
  rfl

/-- The best fit is large enough, and no smaller than any other piece that is. -/
theorem bestFit?_eq_some {p : Pool α} {n i : Nat} (h : p.bestFit? n = some i) :
    ∃ s, p.entries[i]? = some s ∧ n ≤ s.capacity ∧
      ∀ t ∈ p.entries.toList, n ≤ t.capacity → s.capacity ≤ t.capacity := by
  obtain ⟨hi, hfits, hleast⟩ := scan_eq_some (r := fun i j => p.capacityAt i ≤ p.capacityAt j)
    (fun _ => Nat.le_refl _) (fun _ _ _ => Nat.le_trans)
    (fun i j hlt => Nat.le_of_lt (of_decide_eq_true hlt))
    (fun i j hge => Nat.le_of_not_lt (of_decide_eq_false hge)) h
  have hs : p.entries[i]? = some p.entries[i] := Array.getElem?_eq_getElem hi
  refine ⟨p.entries[i], hs, ?_, ?_⟩
  · rw [← capacityAt_eq hs]
    exact of_decide_eq_true hfits
  · intro t ht hn
    obtain ⟨j, hj, rfl⟩ := Array.getElem_of_mem (Array.mem_toList_iff.mp ht)
    have ht : p.entries[j]? = some p.entries[j] := Array.getElem?_eq_getElem hj
    rw [← capacityAt_eq hs, ← capacityAt_eq ht]
    refine hleast j hj (decide_eq_true ?_)
    rwa [capacityAt_eq ht]

theorem bestFit?_eq_none {p : Pool α} {n : Nat} (h : p.bestFit? n = none) :
    ∀ t ∈ p.entries.toList, t.capacity < n := by
  intro t ht
  obtain ⟨j, hj, rfl⟩ := Array.getElem_of_mem (Array.mem_toList_iff.mp ht)
  have hlt := of_decide_eq_false (scan_eq_none.mp h j hj)
  rw [capacityAt_eq (Array.getElem?_eq_getElem hj)] at hlt
  exact Nat.lt_of_not_le hlt

/-- No piece is larger than the largest one, which there is in a pool that is not empty. -/
theorem largest?_eq_some {p : Pool α} {i : Nat} (h : p.largest? = some i) :
    ∃ s, p.entries[i]? = some s ∧ ∀ t ∈ p.entries.toList, t.capacity ≤ s.capacity := by
  obtain ⟨hi, -, hmost⟩ := scan_eq_some (r := fun i j => p.capacityAt j ≤ p.capacityAt i)
    (fun _ => Nat.le_refl _) (fun _ _ _ hij hjk => Nat.le_trans hjk hij)
    (fun i j hle => of_decide_eq_true hle)
    (fun i j hgt => Nat.le_of_lt (Nat.lt_of_not_le (of_decide_eq_false hgt))) h
  have hs : p.entries[i]? = some p.entries[i] := Array.getElem?_eq_getElem hi
  refine ⟨p.entries[i], hs, ?_⟩
  intro t ht
  obtain ⟨j, hj, rfl⟩ := Array.getElem_of_mem (Array.mem_toList_iff.mp ht)
  rw [← capacityAt_eq hs, ← capacityAt_eq (Array.getElem?_eq_getElem hj)]
  exact hmost j hj rfl

theorem largest?_eq_none {p : Pool α} (h : p.largest? = none) : p.entries = #[] := by
  refine Array.eq_empty_of_size_eq_zero (Nat.eq_zero_of_not_pos ?_)
  intro hpos
  cases scan_eq_none.mp h 0 hpos

/-! ## Counting bytes -/

section Calls

variable [Element α]

theorem pooledBytes_eq (p : Pool α) : p.pooledBytes = total bytesOf p.entries.toList := by
  have fold : ∀ (xs : List (Storage α)) (n : Nat),
      xs.foldl (fun sum s => sum + bytesOf s) n = n + total bytesOf xs := by
    intro xs
    induction xs with
    | nil => intro n; rfl
    | cons s rest ih =>
        intro n
        rw [List.foldl_cons, ih, total_cons, Nat.add_assoc]
  rw [pooledBytes, ← Array.foldl_toList, fold, Nat.zero_add]

theorem bytesOf_le_bytesOf {s t : Storage α} (h : s.capacity ≤ t.capacity) :
    bytesOf s ≤ bytesOf t :=
  Nat.mul_le_mul_right _ h

/-- The count is the number of bytes in the pool. -/
def Balanced (p : Pool α) : Prop := p.metrics.bytes = p.pooledBytes

/-- What holds of a pool between two calls. -/
structure Sound (p : Pool α) : Prop where
  balanced : p.Balanced
  bytes_le : p.metrics.bytes ≤ trimLevel

/-- A piece that the pool holds is part of its count, so that taking it off the count
leaves a difference that is none too small. -/
theorem Balanced.bytes_remove {p : Pool α} (h : p.Balanced) {i : Nat} {s : Storage α}
    (hs : p.entries[i]? = some s) : p.metrics.bytes = bytesOf s + (p.remove i s).pooledBytes := by
  rw [h, pooledBytes_eq, total_perm (perm_takeOut hs), total_cons, pooledBytes_eq]
  rfl

theorem Balanced.bytesOf_le {p : Pool α} (h : p.Balanced) {i : Nat} {s : Storage α}
    (hs : p.entries[i]? = some s) : bytesOf s ≤ p.metrics.bytes := by
  rw [h.bytes_remove hs]
  exact Nat.le_add_right _ _

theorem Balanced.remove {p : Pool α} (h : p.Balanced) {i : Nat} {s : Storage α}
    (hs : p.entries[i]? = some s) : (p.remove i s).Balanced := by
  show p.metrics.bytes - bytesOf s = _
  rw [h.bytes_remove hs, Nat.add_sub_cancel_left]

/-! ## Asking for memory -/

/-- What comes of asking a pool for `n` elements. -/
inductive Acquired (p : Pool α) (n : Nat) : Pool α × Storage α → Prop
  /-- The smallest piece that is large enough leaves the pool. -/
  | hit {q : Pool α} {s : Storage α}
      (others : p.entries.toList.Perm (s :: q.entries.toList))
      (fits : n ≤ s.capacity)
      (least : ∀ t ∈ p.entries.toList, n ≤ t.capacity → s.capacity ≤ t.capacity)
      (counted : bytesOf s ≤ p.metrics.bytes)
      (metrics : q.metrics = { p.metrics with
        bytes := p.metrics.bytes - bytesOf s, hits := p.metrics.hits + 1 }) :
      p.Acquired n (q, ⟨Array.replicate n Element.zero, s.capacity⟩)
  /-- No piece is large enough; the pool stays. -/
  | miss {q : Pool α}
      (small : ∀ t ∈ p.entries.toList, t.capacity < n)
      (entries : q.entries = p.entries)
      (metrics : q.metrics = { p.metrics with misses := p.metrics.misses + 1 }) :
      p.Acquired n (q, ⟨Array.replicate n Element.zero, n⟩)

theorem Balanced.acquired {p : Pool α} (h : p.Balanced) (n : Nat) : p.Acquired n (p.acquire n) := by
  rw [acquire]
  cases hbest : p.bestFit? n with
  | none => exact .miss (bestFit?_eq_none hbest) rfl rfl
  | some i =>
      obtain ⟨s, hs, hfits, hleast⟩ := bestFit?_eq_some hbest
      rw [Option.bind_some, hs, Option.map_some]
      exact .hit (perm_takeOut hs) hfits hleast (h.bytesOf_le hs) rfl

theorem Acquired.balanced {p : Pool α} {n : Nat} {r : Pool α × Storage α} (hr : p.Acquired n r)
    (h : p.Balanced) : r.1.Balanced := by
  cases hr with
  | @hit q s others _ _ _ metrics =>
      show q.metrics.bytes = _
      rw [metrics, h, pooledBytes_eq, total_perm others, total_cons, pooledBytes_eq,
        Nat.add_sub_cancel_left]
  | @miss q _ entries metrics =>
      show q.metrics.bytes = _
      rw [metrics, h, pooledBytes, pooledBytes, entries]

theorem Acquired.bytes_le {p : Pool α} {n : Nat} {r : Pool α × Storage α} (hr : p.Acquired n r) :
    r.1.metrics.bytes ≤ p.metrics.bytes := by
  cases hr with
  | hit _ _ _ _ metrics =>
      rw [metrics]
      exact Nat.sub_le _ _
  | miss _ _ metrics =>
      have hbytes := congrArg PoolMetrics.bytes metrics
      exact Nat.le_of_eq hbytes

/-! ## Trimming -/

/-- Trimming a pool takes out the given pieces, one after the other. -/
inductive Trimming : Pool α → List (Storage α) → Pool α → Prop
  /-- A pool that is not above its level stays. -/
  | done {p : Pool α} (low : p.metrics.bytes ≤ trimLevel) : Trimming p [] p
  /-- Above it the largest piece goes. -/
  | evict {p q : Pool α} {i : Nat} {s : Storage α} {rest : List (Storage α)}
      (high : trimLevel < p.metrics.bytes) (found : p.entries[i]? = some s)
      (most : ∀ t ∈ p.entries.toList, t.capacity ≤ s.capacity)
      (counted : bytesOf s ≤ p.metrics.bytes) (next : Trimming (p.remove i s) rest q) :
      Trimming p (s :: rest) q

theorem trim_of_largest {p : Pool α} {i : Nat} {s : Storage α} (high : trimLevel < p.metrics.bytes)
    (hi : p.largest? = some i) (hs : p.entries[i]? = some s) : p.trim = (p.remove i s).trim := by
  rw [trim, if_pos high]
  split
  · rename_i hnone
    rw [hi] at hnone
    cases hnone
  · rename_i j hj
    obtain rfl := Option.some.inj (hi.symm.trans hj)
    split
    · rename_i hnone
      rw [hs] at hnone
      cases hnone
    · rename_i t ht
      obtain rfl := Option.some.inj (hs.symm.trans ht)
      rfl

/-- A pool whose count is right holds memory as long as it is above its level, and is
trimmed below it. -/
theorem Balanced.trimming {p : Pool α} (h : p.Balanced) : ∃ evicted, Trimming p evicted p.trim := by
  induction p using trim.induct with
  | case1 p high hnone =>
      have hzero : p.metrics.bytes = 0 := by rw [h, pooledBytes, largest?_eq_none hnone]; rfl
      rw [hzero] at high
      cases high
  | case2 p high i hi hnone =>
      obtain ⟨s, hs, -⟩ := largest?_eq_some hi
      rw [hs] at hnone
      cases hnone
  | case3 p high i hi s hs ih =>
      obtain ⟨rest, hrest⟩ := ih (h.remove hs)
      obtain ⟨t, ht, most⟩ := largest?_eq_some hi
      obtain rfl := Option.some.inj (hs.symm.trans ht)
      rw [trim_of_largest high hi hs]
      exact ⟨s :: rest, .evict high hs most (h.bytesOf_le hs) hrest⟩
  | case4 p low =>
      rw [trim, if_neg low]
      exact ⟨[], .done (Nat.le_of_not_lt low)⟩

namespace Trimming

variable {p q : Pool α} {evicted : List (Storage α)}

/-- What is taken out and what stays is what there was. -/
theorem perm (h : Trimming p evicted q) :
    p.entries.toList.Perm (evicted ++ q.entries.toList) := by
  induction h with
  | done _ => exact List.Perm.refl _
  | evict _ found _ _ _ ih => exact (perm_takeOut found).trans (ih.cons _)

/-- What is taken out is nowhere smaller than what stays. -/
theorem kept_le (h : Trimming p evicted q) :
    ∀ e ∈ evicted, ∀ t ∈ q.entries.toList, t.capacity ≤ e.capacity := by
  induction h with
  | done _ =>
      intro e he
      cases he
  | @evict p q i s rest _ found most _ next ih =>
      intro e he t ht
      rcases List.mem_cons.mp he with rfl | he
      · refine most t ((perm_takeOut found).mem_iff.mpr (List.mem_cons_of_mem _ ?_))
        exact next.perm.mem_iff.mpr (List.mem_append_right _ ht)
      · exact ih e he t ht

theorem balanced (h : Trimming p evicted q) (hp : p.Balanced) : q.Balanced := by
  induction h with
  | done _ => exact hp
  | evict _ found _ _ _ ih => exact ih (hp.remove found)

theorem bytes_le (h : Trimming p evicted q) : q.metrics.bytes ≤ trimLevel := by
  induction h with
  | done low => exact low
  | evict _ _ _ _ _ ih => exact ih

/-- With any piece that was taken out the pool would be above its level.  It was, with the
last one, and the ones before it are no smaller. -/
theorem level_lt (h : Trimming p evicted q) (hp : p.Balanced) :
    ∀ e ∈ evicted, trimLevel < q.metrics.bytes + bytesOf e := by
  induction h with
  | done _ =>
      intro e he
      cases he
  | @evict p q i s rest high found most _ next ih =>
      intro e he
      rcases List.mem_cons.mp he with rfl | he
      · cases next with
        | done _ =>
            rw [hp.remove found, Nat.add_comm, ← hp.bytes_remove found]
            exact high
        | @evict _ _ _ e' _ _ found' _ _ _ =>
            have hmem : e' ∈ (p.remove i e).entries.toList :=
              (perm_takeOut found').mem_iff.mpr List.mem_cons_self
            have hle : e'.capacity ≤ e.capacity :=
              most e' ((perm_takeOut found).mem_iff.mpr (List.mem_cons_of_mem _ hmem))
            exact Nat.lt_of_lt_of_le (ih (hp.remove found) e' List.mem_cons_self)
              (Nat.add_le_add_left (bytesOf_le_bytesOf hle) _)
      · exact ih (hp.remove found) e he

/-- Trimming counts bytes and nothing else. -/
theorem metrics_eq (h : Trimming p evicted q) :
    q.metrics = { p.metrics with bytes := q.metrics.bytes } := by
  induction h with
  | done _ => rfl
  | evict _ _ _ _ _ ih => exact ih

end Trimming

/-! ## Giving memory back -/

/-- What comes of giving the piece `s` back to a pool. -/
inductive Recycled (p : Pool α) (s : Storage α) : Pool α → Prop
  /-- The limit would be passed; the pool stays. -/
  | dropped {q : Pool α}
      (full : limit < p.metrics.bytes + bytesOf s)
      (entries : q.entries = p.entries)
      (metrics : q.metrics = { p.metrics with drops := p.metrics.drops + 1 }) :
      p.Recycled s q
  /-- The piece joins the pool, which then is trimmed as far as it has to be. -/
  | kept {q : Pool α} {evicted : List (Storage α)}
      (room : p.metrics.bytes + bytesOf s ≤ limit)
      (trimming : Trimming ⟨p.entries.push s,
        { p.metrics with bytes := p.metrics.bytes + bytesOf s }⟩ evicted q)
      (pieces : (s :: p.entries.toList).Perm (evicted ++ q.entries.toList))
      (largest : ∀ e ∈ evicted, ∀ t ∈ q.entries.toList, t.capacity ≤ e.capacity)
      (needed : ∀ e ∈ evicted, trimLevel < q.metrics.bytes + bytesOf e)
      (metrics : q.metrics = { p.metrics with bytes := q.metrics.bytes }) :
      p.Recycled s q

theorem Balanced.push {p : Pool α} (h : p.Balanced) (s : Storage α) :
    Balanced ⟨p.entries.push s, { p.metrics with bytes := p.metrics.bytes + bytesOf s }⟩ := by
  show p.metrics.bytes + bytesOf s = _
  rw [h, pooledBytes_eq, pooledBytes_eq, Array.toList_push, total_append, total_cons, total_nil,
    Nat.add_zero]

theorem Balanced.recycled {p : Pool α} (h : p.Balanced) (s : Storage α) :
    p.Recycled s (p.recycle s) := by
  rw [recycle]
  split
  · rename_i hroom
    obtain ⟨evicted, htrim⟩ := (h.push s).trimming
    refine .kept hroom htrim ?_ htrim.kept_le (htrim.level_lt (h.push s)) htrim.metrics_eq
    refine List.Perm.trans ?_ htrim.perm
    show (s :: p.entries.toList).Perm (p.entries.push s).toList
    rw [Array.toList_push]
    exact (List.perm_append_singleton s _).symm
  · rename_i hfull
    exact .dropped (Nat.lt_of_not_le hfull) rfl rfl

theorem Recycled.sound {p q : Pool α} {s : Storage α} (hq : p.Recycled s q) (h : p.Sound) :
    q.Sound := by
  cases hq with
  | dropped _ entries metrics =>
      constructor
      · show q.metrics.bytes = _
        rw [metrics, pooledBytes, entries]
        exact h.balanced
      · rw [metrics]
        exact h.bytes_le
  | kept _ trimming _ _ _ _ => exact ⟨trimming.balanced (h.balanced.push s), trimming.bytes_le⟩

/-! ## Histories -/

/-- One call to a pool. -/
inductive Call (α : Type)
  | acquire (n : Nat)
  | recycle (s : Storage α)

/-- The pool after one call. -/
def perform (p : Pool α) : Call α → Pool α
  | .acquire n => (p.acquire n).1
  | .recycle s => p.recycle s

/-- The pool after a list of calls. -/
def after (p : Pool α) (calls : List (Call α)) : Pool α := calls.foldl perform p

theorem sound_empty : (empty : Pool α).Sound := ⟨rfl, Nat.zero_le _⟩

/-- One call keeps a pool sound. -/
theorem Sound.perform {p : Pool α} (h : p.Sound) (call : Call α) : (p.perform call).Sound := by
  cases call with
  | acquire n =>
      have hr := h.balanced.acquired n
      exact ⟨hr.balanced h.balanced, Nat.le_trans hr.bytes_le h.bytes_le⟩
  | recycle s => exact (h.balanced.recycled s).sound h

/-- So does any number of calls. -/
theorem Sound.after {p : Pool α} (h : p.Sound) (calls : List (Call α)) : (p.after calls).Sound := by
  induction calls generalizing p with
  | nil => exact h
  | cons call rest ih => exact ih (h.perform call)

/-- The pool that the calls lead to from an empty one. -/
def reached (calls : List (Call α)) : Pool α := empty.after calls

/-- Whatever the calls, the count of bytes is right and at most `trimLevel`, which is half
of `limit`; the next call does what `Acquired` and `Recycled` say, and meanwhile the count
fits into a machine word. -/
theorem pool_history (calls : List (Call α)) :
    (reached calls).Sound ∧
    (∀ n, (reached calls).Acquired n ((reached calls).acquire n)) ∧
    ∀ s, (bytesOf s < 2 ^ 63 → (reached calls).metrics.bytes + bytesOf s < 2 ^ 64) ∧
      (reached calls).Recycled s ((reached calls).recycle s) := by
  have h : (reached calls).Sound := sound_empty.after calls
  refine ⟨h, h.balanced.acquired, ?_⟩
  intro s
  refine ⟨?_, h.balanced.recycled s⟩
  intro hs
  calc (reached calls).metrics.bytes + bytesOf s
      ≤ trimLevel + bytesOf s := Nat.add_le_add_right h.bytes_le _
    _ < 2 ^ 63 + 2 ^ 63 := Nat.add_lt_add (by decide) hs

-- A piece as large as the limit is let in and trimmed away again at once; the next one stays.
example : (reached [.recycle ⟨#[], limit⟩, .recycle ⟨#[], 16⟩] : Pool UInt8).metrics
    = ⟨16, 0, 0, 0⟩ := by
  cbv

end Calls

end TensorGraph.Pool
