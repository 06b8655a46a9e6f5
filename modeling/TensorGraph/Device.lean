/-
# Devices

A device hands out storage for the buffers of a plan and takes it back.
Every operation answers with the device as it is afterwards, so that a
device may count, keep and refuse as it likes.
-/
import TensorGraph.Plan
import TensorGraph.Storage

namespace TensorGraph

/-- A type of devices that hand out storage for elements of type `α`. -/
class Device (δ : Type) (α : outParam Type) where
  /-- The name of the device. -/
  name : δ → String
  /-- Asks for zeroed storage of at least the length of a buffer. -/
  allocate : δ → Buffer → δ × Except Error (Storage α)
  /-- Gives storage back that was asked for with the same buffer. -/
  free : δ → Buffer → Storage α → δ
  /-- Waits until everything submitted is done. -/
  synchronize : δ → δ × Except Error Unit

end TensorGraph
