/-
# Uniform samples

A random word is turned into a float by taking its upper bits for the
fraction of a number between one and two.
-/
import TensorGraph.Random.ChaCha

namespace TensorGraph.Random

/-- The float in `[1, 2)` with the upper 52 bits of a word for its fraction. -/
def betweenOneAndTwo (bits : UInt64) : Float := Float.ofBits (bits >>> 12 ||| 0x3ff0000000000000)

/-- The distance between one and the next float. -/
def epsilon : Float := Float.ofBits 0x3cb0000000000000

/-- The largest width, not above `width`, with which no sample exceeds `high`,
found by going down at most `steps` floats. -/
def fitWidth (low high : Float) : Nat → Float → Float
  | 0, width => width
  | steps + 1, width =>
    if high < width * (1 - epsilon) + low then
      fitWidth low high steps (Float.ofBits (width.toBits - 1))
    else width

/-- The width of the interval from `low` to `high`, for sampling. -/
def intervalWidth (low high : Float) : Float := fitWidth low high 64 (high - low)

/-- A sample between `low` and `low + width`. -/
def uniform (low width : Float) (s : Stream) : Float × Stream :=
  let (bits, s) := s.long
  ((betweenOneAndTwo bits - 1) * width + low, s)

/-- A sample strictly between zero and one. -/
def openUnit (s : Stream) : Float × Stream :=
  let (bits, s) := s.long
  (betweenOneAndTwo bits - (1 - epsilon / 2), s)

end TensorGraph.Random
