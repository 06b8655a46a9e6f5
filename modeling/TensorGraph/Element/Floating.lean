/-
# Floating-point elements

Every operation rounds once, to the width of the type.  Division always has
a result, and a maximum starts from minus infinity.
-/
import TensorGraph.Element

namespace TensorGraph

open Float.Model in
/-- The same number in 64 bits. -/
def widened (x : Float32) : Float :=
  .ofModel (.pack (match x.toModel.unpack with
    | .finite sign mantissa exponent _ =>
      UnpackedFloat.round Format.binary64 sign mantissa exponent
    | special => special))

instance : Element Float32 where
  kind := .f32
  zero := 0
  one := 1
  lowest := Float32.ofBits 0xff800000
  add x y := x + y
  sub x y := x - y
  mul x y := x * y
  neg x := -x
  div? x y := some (x / y)
  lt x y := decide (x < y)
  toFloat := widened
  ofFloat := Float.toFloat32

instance : Element Float where
  kind := .f64
  zero := 0
  one := 1
  lowest := Float.ofBits 0xfff0000000000000
  add x y := x + y
  sub x y := x - y
  mul x y := x * y
  neg x := -x
  div? x y := some (x / y)
  lt x y := decide (x < y)
  toFloat := id
  ofFloat := id

end TensorGraph
