/-
# Shortest decimals

A floating-point number stands for every real number that rounds to it, an
interval around `m · 2^q`.  `Interval.shortest` finds the decimal `c · 10^k`
in that interval with the greatest `k`, hence with the fewest digits, and of
two such decimals the one nearer to the number itself.  All comparisons are
exact, between whole numbers.
-/
namespace TensorGraph.Decimal

/-- The reals that round to one floating-point number, in units of `2^scale`. -/
structure Interval where
  low : Nat
  middle : Nat
  high : Nat
  /-- The ends belong to the interval. -/
  closed : Bool
  scale : Int
deriving DecidableEq

/-- A decimal `coefficient · 10^exponent`. -/
structure Digits where
  coefficient : Nat
  exponent : Int
deriving DecidableEq

namespace Interval

/-- The interval of a positive 64-bit float, from its bit pattern.  Its ends lie
half way to the neighbours; below a power of two the neighbour is half as far
away. -/
def ofBits (bits : Nat) : Interval :=
  let implicit := 0x10000000000000
  let fraction := bits % implicit
  let biased := bits / implicit % 0x800
  let m : Nat := if biased = 0 then fraction else fraction + implicit
  let q : Int := (max biased 1 : Nat) - 1075
  { low := if fraction = 0 ∧ 1 < biased then 4 * m - 1 else 4 * m - 2
    middle := 4 * m
    high := 4 * m + 2
    closed := m % 2 == 0
    scale := q - 2 }

/-- A point `c · 10^k` of a decimal grid, given `c` times the weight of a grid
step, lies in the interval, given its ends times the weight of a unit. -/
def holds (x : Interval) (unit point : Nat) : Bool :=
  if x.closed then x.low * unit ≤ point ∧ point ≤ x.high * unit
  else x.low * unit < point ∧ point < x.high * unit

/-- The point of the grid of multiples of `10^k` that lies in the interval, if
there is one.  Only the two neighbours of the middle can be nearest; a tie goes
to the upper one. -/
def onGrid? (x : Interval) (k : Int) : Option Nat :=
  let unit := Nat.pow 2 x.scale.toNat * Nat.pow 10 (-k).toNat
  let step := Nat.pow 2 (-x.scale).toNat * Nat.pow 10 k.toNat
  let c := x.middle * unit / step
  let below := c * step
  let above := (c + 1) * step
  match x.holds unit below, x.holds unit above with
  | true, true =>
    if above - x.middle * unit ≤ x.middle * unit - below then some (c + 1) else some c
  | true, false => some c
  | false, true => some (c + 1)
  | false, false => none

/-- The first grid with a point in the interval, trying `steps` grids from the
multiples of `10^k` downward. -/
def search (x : Interval) : Nat → Int → Option Digits
  | 0, _ => none
  | steps + 1, k =>
    match x.onGrid? k with
    | some c => some ⟨c, k⟩
    | none => x.search steps (k - 1)

/-- The coarsest decimal in the interval.  The greatest 64-bit float is below
`10^309` and the least is above `10^-324`, so the search cannot miss. -/
def shortest (x : Interval) : Digits :=
  (x.search 634 309).getD ⟨0, 0⟩

end Interval
end TensorGraph.Decimal
