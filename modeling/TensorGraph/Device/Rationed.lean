/-
# Rationed devices

A host device that runs out: of requests that it serves, of waits that
succeed, or of one element in the storage of one buffer.  With nothing
rationed it is the host device that it wraps.
-/
import TensorGraph.Device.Host

namespace TensorGraph

/-- A host device with limits. -/
structure RationedDevice (α : Type) where
  host : HostDevice α
  /-- How many more requests are served. -/
  requests : Option Nat
  /-- How many more waits succeed. -/
  waits : Option Nat
  /-- The buffer whose storage comes out one element short. -/
  short : Option String

namespace RationedDevice

variable {α : Type}

/-- A host device without limits. -/
def unlimited (host : HostDevice α) : RationedDevice α := ⟨host, none, none, none⟩

/-- What is left of a ration after one use. -/
def used (ration : Option Nat) : Option Nat := ration.map (· - 1)

/-- Storage for a buffer, as long as requests are served. -/
def allocate [Element α] (d : RationedDevice α) (b : Buffer) :
    RationedDevice α × Except Error (Storage α) :=
  if d.requests = some 0 then (d, .error (.plain (.outOfMemory b.name)))
  else
    let (host, result) := d.host.allocate b
    let trimmed := fun s : Storage α =>
      if d.short = some b.name then { s with data := s.data.pop } else s
    ({ d with host, requests := used d.requests }, result.map trimmed)

/-- A wait, as long as waits succeed. -/
def synchronize (d : RationedDevice α) : RationedDevice α × Except Error Unit :=
  if d.waits = some 0 then (d, .error (.notReady (.other "device lost")))
  else ({ d with waits := used d.waits }, .ok ())

instance [Element α] : Device (RationedDevice α) α where
  name _ := "cpu"
  allocate := allocate
  free d b s := { d with host := d.host.free b s }
  synchronize := synchronize

end RationedDevice
end TensorGraph
