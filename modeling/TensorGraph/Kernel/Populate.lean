/-
# Populating buffers

A constant copies its literal; a variable gets its initial value.  Samples
are drawn in row-major order from the stream of a seed that depends on
nothing but the configured seed and the number of the node.
-/
import TensorGraph.InitialValue
import TensorGraph.Random.Normal

namespace TensorGraph.Kernel

variable {α : Type}

/-- The block of a literal: one value is repeated, several are taken as they are. -/
def literal (values : Array α) (block : Array α) : Array α :=
  match values.toList with
  | [value] => Array.replicate block.size value
  | _ => values

/-- The seed of a variable's own stream. -/
def streamSeed (seed : UInt64) (id : NodeId) : UInt64 :=
  seed ^^^ (UInt64.ofNat id.index * 0x9E3779B97F4A7C15)

/-- Samples of a distribution, converted to elements. -/
def sampled [Element α] (draw : Random.Stream → Float × Random.Stream) (seed : UInt64)
    (block : Array α) : Array α :=
  (Random.Stream.samples draw block.size (.ofSeed seed) #[]).map Element.ofFloat

/-- The block of an initial value, where `seed` is that of the variable's own stream. -/
def populate [Element α] (init : InitialValue α) (seed : UInt64) (block : Array α) : Array α :=
  match init with
  | .fill value => Array.replicate block.size value
  | .arange start step =>
    let start := Element.toFloat start
    let step := Element.toFloat step
    block.mapIdx fun i _ => Element.ofFloat (start + i.toFloat * step)
  | .uniform low high => sampled (Random.uniform low (Random.intervalWidth low high)) seed block
  | .normal mean deviation => sampled (Random.normal mean deviation) seed block

end TensorGraph.Kernel
