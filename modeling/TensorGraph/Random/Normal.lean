/-
# Normal samples

The area under the bell curve is covered by 256 layers of equal area, all
but the lowest of them rectangles.  A sample picks a layer and a point of it
by chance; a point that lies inside the next layer is certainly under the
curve, any other is tested against the curve, and refused points lead to
another trial.  Below the lowest rectangle lies the tail, which has a
sampler of its own.

Trials are independent and nearly all succeed, so their number is bounded by
a figure that no stream can be expected to reach.
-/
import TensorGraph.Random.Layers
import TensorGraph.Random.Uniform

namespace TensorGraph.Random

/-- The greatest number of trials for one sample. -/
def trials : Nat := 65536

/-- The right edge of the `i`-th layer. -/
def edge (i : Nat) : Float := Float.ofBits (layerEdges.getD i 0)

/-- The height of the curve at that edge. -/
def height (i : Nat) : Float := Float.ofBits (layerHeights.getD i 0)

/-- A distance from the beginning of the tail. -/
def tailDistance : Nat → Stream → Float × Stream
  | 0, s => (0, s)
  | n + 1, s =>
    let (a, s) := openUnit s
    let (c, s) := openUnit s
    let x := a.log / edge 1
    let y := c.log
    if -2 * y < x * x then tailDistance n s else (x, s)

/-- What one trial gives. -/
inductive Trial where
  | accepted (z : Float) (s : Stream)
  | refused (s : Stream)

/-- One trial. -/
def trial (s : Stream) : Trial :=
  let (bits, s) := s.long
  let i := (bits % 256).toNat
  let u := Float.ofBits (bits >>> 12 ||| 0x4000000000000000) - 3
  let x := u * edge i
  if x.abs < edge (i + 1) then .accepted x s
  else if i = 0 then
    let (distance, s) := tailDistance trials s
    .accepted (if u < 0 then distance - edge 1 else edge 1 - distance) s
  else
    let (bits, s) := s.long
    let share := (bits >>> 11).toFloat * (epsilon / 2)
    if height (i + 1) + (height i - height (i + 1)) * share < (-x * x / 2).exp then
      .accepted x s
    else .refused s

/-- A sample of the standard normal distribution, from at most `n` trials. -/
def standardNormal : Nat → Stream → Float × Stream
  | 0, s => (0, s)
  | n + 1, s =>
    match trial s with
    | .accepted z s => (z, s)
    | .refused s => standardNormal n s

/-- A sample of the normal distribution with the given mean and deviation. -/
def normal (mean deviation : Float) (s : Stream) : Float × Stream :=
  let (z, s) := standardNormal trials s
  (mean + deviation * z, s)

end TensorGraph.Random
