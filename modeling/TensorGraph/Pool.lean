/-
# Buffer pool

Memory that was given back is kept for the next request.  A request takes
the smallest memory that is large enough, or new memory when there is none;
either way it gets zeros.  Memory given back is kept unless the pool would
exceed `limit`; above `trimLevel` the pool drops its largest memory until it
is at that level again.

The memory in the pool is an array: taking one out moves the last into its
place, which decides between equals later on.
-/
import TensorGraph.Storage

namespace TensorGraph

/-- Counts that the pool keeps over its life. -/
structure PoolMetrics where
  /-- Bytes of memory in the pool. -/
  bytes : Nat
  /-- Requests served from the pool. -/
  hits : Nat
  /-- Requests served with new memory. -/
  misses : Nat
  /-- Returned memory that was not kept for want of room. -/
  drops : Nat
deriving DecidableEq

/-- Returned memory, kept for the next request. -/
structure Pool (α : Type) where
  entries : Array (Storage α)
  metrics : PoolMetrics

namespace Pool

variable {α : Type}

/-- Bytes above which returned memory is not kept. -/
def limit : Nat := 4 * 1024 * 1024 * 1024

/-- Bytes down to which the pool is trimmed. -/
def trimLevel : Nat := limit / 2

/-- A pool that holds nothing. -/
def empty : Pool α := ⟨#[], ⟨0, 0, 0, 0⟩⟩

/-- Bytes reserved by one piece of memory. -/
def bytesOf [Element α] (s : Storage α) : Nat := s.capacity * (Element.kind α).bytes

/-- The index below `n` that a scan from zero on settles on: it goes over to an
accepted index when that replaces the one it has. -/
def scan (n : Nat) (accepts : Nat → Bool) (replaces : Nat → Nat → Bool) : Option Nat :=
  (List.range n).foldl
    (fun best i => if accepts i && best.all (replaces i) then some i else best) none

/-- Elements that fit into the `i`-th piece of memory. -/
def capacityAt (p : Pool α) (i : Nat) : Nat := (p.entries[i]?).elim 0 (·.capacity)

/-- The smallest memory for `n` elements, the first among equals. -/
def bestFit? (p : Pool α) (n : Nat) : Option Nat :=
  scan p.entries.size (fun i => n ≤ p.capacityAt i) (fun i best => p.capacityAt i < p.capacityAt best)

/-- The largest memory, the last among equals. -/
def largest? (p : Pool α) : Option Nat :=
  scan p.entries.size (fun _ => true) (fun i best => p.capacityAt best ≤ p.capacityAt i)

/-- The array without its `i`-th entry, the last one moved into its place. -/
def takeOut {β : Type} (entries : Array β) (i : Nat) : Array β :=
  (entries.swapIfInBounds i (entries.size - 1)).pop

/-- The pool without its `i`-th piece of memory, which is `s`. -/
def remove [Element α] (p : Pool α) (i : Nat) (s : Storage α) : Pool α :=
  { entries := takeOut p.entries i
    metrics := { p.metrics with bytes := p.metrics.bytes - bytesOf s } }

/-- `n` zeros in the best fitting memory, or in new memory. -/
def acquire [Element α] (p : Pool α) (n : Nat) : Pool α × Storage α :=
  match (p.bestFit? n).bind fun i => (p.entries[i]?).map (i, ·) with
  | some (i, s) =>
    let rest := p.remove i s
    ({ rest with metrics := { rest.metrics with hits := rest.metrics.hits + 1 } }, s.cleared n)
  | none =>
    ({ p with metrics := { p.metrics with misses := p.metrics.misses + 1 } }, .zeroed n)

theorem size_takeOut {β : Type} (entries : Array β) (i : Nat) :
    (takeOut entries i).size = entries.size - 1 := by
  simp [takeOut]

/-- Drops the largest memory while the pool is above its level. -/
def trim [Element α] (p : Pool α) : Pool α :=
  if trimLevel < p.metrics.bytes then
    match p.largest? with
    | none => p
    | some i =>
      match _h : p.entries[i]? with
      | none => p
      | some s => (p.remove i s).trim
  else p
termination_by p.entries.size
decreasing_by
  have hi : i < p.entries.size := (Array.getElem?_eq_some_iff.1 _h).1
  simp only [remove, size_takeOut]
  omega

/-- Takes memory back. -/
def recycle [Element α] (p : Pool α) (s : Storage α) : Pool α :=
  if p.metrics.bytes + bytesOf s ≤ limit then
    trim
      { entries := p.entries.push s
        metrics := { p.metrics with bytes := p.metrics.bytes + bytesOf s } }
  else { p with metrics := { p.metrics with drops := p.metrics.drops + 1 } }

/-- Bytes of memory in the pool, counted piece by piece. -/
def pooledBytes [Element α] (p : Pool α) : Nat := p.entries.foldl (fun total s => total + bytesOf s) 0

end Pool
end TensorGraph
