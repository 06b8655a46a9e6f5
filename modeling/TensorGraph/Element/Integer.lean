/-
# Whole-number elements

Arithmetic is modulo the width of the type.  A quotient is dropped toward
zero; it does not exist for a zero divisor, nor for the least value divided
by minus one.
-/
import TensorGraph.Element

namespace TensorGraph

instance : Element UInt8 where
  kind := .u8
  zero := 0
  one := 1
  lowest := 0
  add x y := x + y
  sub x y := x - y
  mul x y := x * y
  neg x := -x
  div? x y := if y = 0 then none else some (x / y)
  lt x y := decide (x < y)
  toFloat := UInt8.toFloat
  ofFloat := Float.toUInt8

instance : Element UInt32 where
  kind := .u32
  zero := 0
  one := 1
  lowest := 0
  add x y := x + y
  sub x y := x - y
  mul x y := x * y
  neg x := -x
  div? x y := if y = 0 then none else some (x / y)
  lt x y := decide (x < y)
  toFloat := UInt32.toFloat
  ofFloat := Float.toUInt32

instance : Element Int32 where
  kind := .i32
  zero := 0
  one := 1
  lowest := Int32.minValue
  add x y := x + y
  sub x y := x - y
  mul x y := x * y
  neg x := -x
  div? x y := if y = 0 ∨ (x = Int32.minValue ∧ y = -1) then none else some (x / y)
  lt x y := decide (x < y)
  toFloat x := .ofModel (.ofInt32 x)
  ofFloat x := x.toModel.toInt32

instance : Element Int64 where
  kind := .i64
  zero := 0
  one := 1
  lowest := Int64.minValue
  add x y := x + y
  sub x y := x - y
  mul x y := x * y
  neg x := -x
  div? x y := if y = 0 ∨ (x = Int64.minValue ∧ y = -1) then none else some (x / y)
  lt x y := decide (x < y)
  toFloat x := .ofModel (.ofInt64 x)
  ofFloat x := x.toModel.toInt64

end TensorGraph
