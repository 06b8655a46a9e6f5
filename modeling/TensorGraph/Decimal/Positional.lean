/-
# Floats in messages

Messages show a 64-bit float by its shortest decimal, always written out
without an exponent: `1`, `-0.25`, `100000000000000000000`.  A whole number
has no point; zero keeps its sign.
-/
import TensorGraph.Decimal.Shortest

namespace TensorGraph.Decimal

/-- A decimal written out in full. -/
def Digits.positional (d : Digits) : String :=
  let digits := toString d.coefficient
  if 0 ≤ d.exponent then
    digits ++ String.ofList (List.replicate d.exponent.toNat '0')
  else
    let places := (-d.exponent).toNat
    let padded := (String.ofList (List.replicate (places + 1 - digits.length) '0') ++ digits).toList
    let whole := padded.take (padded.length - places)
    let fraction := padded.drop (padded.length - places)
    String.ofList whole ++ "." ++ String.ofList fraction

/-- A 64-bit float as messages show it. -/
def text (x : Float) : String :=
  let bits := x.toBits.toNat
  let signBit := 0x8000000000000000
  let sign := if bits < signBit then "" else "-"
  let magnitude := bits % signBit
  let infinite := 0x7ff0000000000000
  if infinite < magnitude then "NaN"
  else if magnitude = infinite then sign ++ "inf"
  else if magnitude = 0 then sign ++ "0"
  else sign ++ (Interval.ofBits magnitude).shortest.positional

end TensorGraph.Decimal
