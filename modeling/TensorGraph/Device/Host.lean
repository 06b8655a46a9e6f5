/-
# The host device

Storage in ordinary memory.  The device counts the bytes of the buffers that
are out, and may keep returned memory in a pool.
-/
import TensorGraph.Device
import TensorGraph.Pool

namespace TensorGraph

/-- A device that hands out ordinary memory. -/
structure HostDevice (α : Type) where
  /-- Where returned memory is kept, if it is kept. -/
  pool : Option (Pool α)
  /-- Bytes of the buffers that are out. -/
  liveBytes : Nat

namespace HostDevice

variable {α : Type}

/-- A device that lets go of returned memory. -/
def plain : HostDevice α := ⟨none, 0⟩

/-- A device that keeps returned memory. -/
def pooled : HostDevice α := ⟨some .empty, 0⟩

/-- Zeros for a buffer that is not empty. -/
def allocate [Element α] (d : HostDevice α) (b : Buffer) :
    HostDevice α × Except Error (Storage α) :=
  if b.elements = 0 then (d, .error (.allocation b.name .zeroSized))
  else
    let live := d.liveBytes + b.bytes
    match d.pool with
    | some pool =>
      let (pool, s) := pool.acquire b.elements
      (⟨some pool, live⟩, .ok s)
    | none => (⟨none, live⟩, .ok (.zeroed b.elements))

/-- Takes storage back. -/
def free [Element α] (d : HostDevice α) (b : Buffer) (s : Storage α) : HostDevice α :=
  ⟨d.pool.map (·.recycle s), d.liveBytes - b.bytes⟩

instance [Element α] : Device (HostDevice α) α where
  name _ := "cpu"
  allocate := allocate
  free := free
  synchronize d := (d, .ok ())

end HostDevice
end TensorGraph
