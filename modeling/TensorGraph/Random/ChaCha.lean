/-
# Random words

A stream of random 32-bit words, determined by a 64-bit seed.  The seed is
stretched into a key of eight words; the stream is the keystream of a block
function with twelve rounds, block after block from counter zero.
-/
namespace TensorGraph.Random

/-- The sixteen words of a block. -/
abbrev Block := Vector UInt32 16

/-- The bits of a word moved up by `n` places, those at the top back in at the bottom. -/
def rotateLeft (x : UInt32) (n : UInt32) : UInt32 := (x <<< n) ||| (x >>> (32 - n))

/-- One quarter round on four words of a block. -/
def quarterRound (x : Block) (a b c d : Fin 16) : Block :=
  let x := x.set a (x[a] + x[b])
  let x := x.set d (rotateLeft (x[d] ^^^ x[a]) 16)
  let x := x.set c (x[c] + x[d])
  let x := x.set b (rotateLeft (x[b] ^^^ x[c]) 12)
  let x := x.set a (x[a] + x[b])
  let x := x.set d (rotateLeft (x[d] ^^^ x[a]) 8)
  let x := x.set c (x[c] + x[d])
  x.set b (rotateLeft (x[b] ^^^ x[c]) 7)

/-- A round over the columns and a round over the diagonals. -/
def doubleRound (x : Block) : Block :=
  let x := quarterRound x 0 4 8 12
  let x := quarterRound x 1 5 9 13
  let x := quarterRound x 2 6 10 14
  let x := quarterRound x 3 7 11 15
  let x := quarterRound x 0 5 10 15
  let x := quarterRound x 1 6 11 12
  let x := quarterRound x 2 7 8 13
  quarterRound x 3 4 9 14

/-- A function applied `n` times. -/
def iterate {β : Type} (f : β → β) : Nat → β → β
  | 0, x => x
  | n + 1, x => iterate f n (f x)

/-- The block of the keystream with the given number. -/
def keystreamBlock (key : Vector UInt32 8) (counter : UInt64) : Block :=
  let constants : Vector UInt32 4 := #v[0x61707865, 0x3320646e, 0x79622d32, 0x6b206574]
  let position : Vector UInt32 4 := #v[counter.toUInt32, (counter >>> 32).toUInt32, 0, 0]
  let start : Block := constants ++ key ++ position
  start.zipWith (fun x y => y + x) (iterate doubleRound 6 start)

/-- The next state of the generator that stretches seeds. -/
def stretchState (state : UInt64) : UInt64 :=
  state * 6364136223846793005 + 11634580027462260723

/-- The word that a state of that generator stands for. -/
def stretchWord (state : UInt64) : UInt32 :=
  let x := (((state >>> 18) ^^^ state) >>> 27).toUInt32
  let places := (state >>> 59).toUInt32
  (x >>> places) ||| (x <<< ((32 - places) % 32))

/-- The key that a seed is stretched to. -/
def keyOfSeed (seed : UInt64) : Vector UInt32 8 :=
  Vector.ofFn fun i : Fin 8 => stretchWord (iterate stretchState (i.val + 1) seed)

/-- A position in a stream of random words. -/
structure Stream where
  key : Vector UInt32 8
  /-- The number of the next block. -/
  counter : UInt64
  /-- What is left of the current block. -/
  rest : List UInt32

namespace Stream

/-- The beginning of the stream of a seed. -/
def ofSeed (seed : UInt64) : Stream := ⟨keyOfSeed seed, 0, []⟩

/-- The next word. -/
def word (s : Stream) : UInt32 × Stream :=
  match s.rest with
  | w :: rest => (w, { s with rest })
  | [] =>
    let block := keystreamBlock s.key s.counter
    (block[0], { s with counter := s.counter + 1, rest := block.toList.drop 1 })

/-- The next two words as one number, the first in the lower half. -/
def long (s : Stream) : UInt64 × Stream :=
  let (low, s) := s.word
  let (high, s) := s.word
  (high.toUInt64 <<< 32 ||| low.toUInt64, s)

/-- The next `n` samples that `draw` takes from the stream, behind those in `taken`. -/
def samples {β : Type} (draw : Stream → β × Stream) : Nat → Stream → Array β → Array β
  | 0, _, taken => taken
  | n + 1, s, taken =>
    let (x, s) := draw s
    samples draw n s (taken.push x)

end Stream
end TensorGraph.Random
