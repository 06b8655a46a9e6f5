/-
# Storage

The memory behind one buffer: its elements, and how many elements its
reserved memory could hold.  A step reads and writes storage in blocks,
runs of elements that lie side by side.
-/
import TensorGraph.Element

namespace TensorGraph

/-- The memory behind one buffer. -/
structure Storage (α : Type) where
  data : Array α
  /-- Elements that fit into the reserved memory. -/
  capacity : Nat
deriving DecidableEq, Inhabited

namespace Storage

variable {α : Type}

/-- Memory reserved for exactly the given elements. -/
def ofArray (data : Array α) : Storage α := ⟨data, data.size⟩

/-- The number of elements. -/
def size (s : Storage α) : Nat := s.data.size

/-- Memory reserved for exactly `n` elements, all zero. -/
def zeroed [Element α] (n : Nat) : Storage α := ⟨Array.replicate n Element.zero, n⟩

/-- The same memory holding `n` zeros and nothing else. -/
def cleared [Element α] (s : Storage α) (n : Nat) : Storage α :=
  { s with data := Array.replicate n Element.zero }

/-- The block of `count` elements from `start` on. -/
def block (s : Storage α) (start count : Nat) : Array α := s.data.extract start (start + count)

/-- The storage with the elements from `start` on overwritten by a block. -/
def write (s : Storage α) (start : Nat) (block : Array α) : Storage α :=
  { s with data := s.data.extract 0 start ++ block ++ s.data.extract (start + block.size) s.data.size }

theorem size_write (s : Storage α) (start : Nat) (block : Array α)
    (h : start + block.size ≤ s.size) : (s.write start block).size = s.size := by
  simp only [size] at h
  simp only [size, write, Array.size_append, Array.size_extract]
  omega

@[simp] theorem size_cleared [Element α] (s : Storage α) (n : Nat) : (s.cleared n).size = n := by
  simp [size, cleared]

@[simp] theorem size_zeroed [Element α] (n : Nat) : (zeroed n : Storage α).size = n := by
  simp [size, zeroed]

end Storage
end TensorGraph
