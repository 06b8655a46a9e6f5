/-
# Maps keyed by node

A finite map from nodes to values, kept in ascending order of the node
numbers, which is the order in which it is listed.
-/
import TensorGraph.NodeId

namespace TensorGraph

/-- A map from nodes to values of type `β`. -/
structure NodeMap (β : Type) where
  /-- The entries, ascending by node. -/
  entries : List (NodeId × β)
deriving DecidableEq, Inhabited

namespace NodeMap

variable {β : Type}

/-- The map without entries. -/
def empty : NodeMap β := ⟨[]⟩

/-- The value at `id`. -/
def get? (m : NodeMap β) (id : NodeId) : Option β := m.entries.lookup id

/-- Puts an entry in its place in an ascending list, or replaces the value there. -/
def insertEntry (id : NodeId) (value : β) : List (NodeId × β) → List (NodeId × β)
  | [] => [(id, value)]
  | entry :: rest =>
    if id.index < entry.1.index then (id, value) :: entry :: rest
    else if id = entry.1 then (id, value) :: rest
    else entry :: insertEntry id value rest

/-- The map with `value` at `id`. -/
def insert (m : NodeMap β) (id : NodeId) (value : β) : NodeMap β :=
  ⟨insertEntry id value m.entries⟩

/-- The map without an entry at `id`. -/
def erase (m : NodeMap β) (id : NodeId) : NodeMap β :=
  ⟨m.entries.filter fun entry => entry.1 != id⟩

/-- The map with the value at `id`, if it is there, changed. -/
def modify (m : NodeMap β) (id : NodeId) (f : β → β) : NodeMap β :=
  ⟨m.entries.map fun entry => if entry.1 = id then (id, f entry.2) else entry⟩

/-- The values, ascending by node. -/
def values (m : NodeMap β) : List β := m.entries.map (·.2)

@[simp] theorem get?_empty (id : NodeId) : (empty : NodeMap β).get? id = none := rfl

/-- Looking past an entry of another node. -/
theorem lookup_of_ne {id key : NodeId} {value : β} {rest : List (NodeId × β)} (h : id ≠ key) :
    List.lookup id ((key, value) :: rest) = List.lookup id rest := by
  have : (id == key) = false := by simpa using h
  simp [List.lookup_cons, this]

theorem lookup_insertEntry (id other : NodeId) (value : β) (entries : List (NodeId × β)) :
    List.lookup other (insertEntry id value entries) =
      if other = id then some value else List.lookup other entries := by
  induction entries with
  | nil =>
    by_cases h : other = id
    · simp [insertEntry, h]
    · simp [insertEntry, lookup_of_ne h, h]
  | cons entry rest ih =>
    obtain ⟨key, old⟩ := entry
    simp only [insertEntry]
    split
    · by_cases h : other = id
      · simp [h]
      · simp [lookup_of_ne h, h]
    · split
      · rename_i hid
        subst hid
        by_cases h : other = id
        · simp [h]
        · simp [lookup_of_ne h, h]
      · rename_i hne
        by_cases h : other = key
        · subst h
          simp [Ne.symm hne]
        · simp [lookup_of_ne h, ih]

theorem get?_insert (m : NodeMap β) (id other : NodeId) (value : β) :
    (m.insert id value).get? other = if other = id then some value else m.get? other :=
  lookup_insertEntry id other value m.entries

theorem mem_values_of_get? {m : NodeMap β} {id : NodeId} {value : β} (h : m.get? id = some value) :
    value ∈ m.values := by
  obtain ⟨before, after, hentries, _⟩ := List.lookup_eq_some_iff.mp h
  have hmem : (id, value) ∈ m.entries := by simp [hentries]
  exact List.mem_map_of_mem hmem

theorem mem_insertEntry {id : NodeId} {value : β} {entries : List (NodeId × β)}
    {entry : NodeId × β} (h : entry ∈ insertEntry id value entries) :
    entry = (id, value) ∨ entry ∈ entries := by
  induction entries with
  | nil => simpa [insertEntry] using h
  | cons first rest ih =>
    rw [insertEntry] at h
    split at h
    · simpa using h
    · split at h
      · exact (List.mem_cons.mp h).imp_right (List.mem_cons_of_mem _)
      · rcases List.mem_cons.mp h with rfl | h
        · exact .inr List.mem_cons_self
        · exact (ih h).imp_right (List.mem_cons_of_mem _)

theorem mem_values_insert {m : NodeMap β} {id : NodeId} {value v : β}
    (h : v ∈ (m.insert id value).values) : v = value ∨ v ∈ m.values := by
  obtain ⟨entry, hentry, rfl⟩ := List.mem_map.mp h
  rcases mem_insertEntry hentry with rfl | hentry
  · exact .inl rfl
  · exact .inr (List.mem_map_of_mem hentry)

end NodeMap
end TensorGraph
