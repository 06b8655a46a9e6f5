/-
# Element kinds

The tag that every layout carries to say what its buffer holds: its width
in bytes, its name in messages, and how its arithmetic behaves.
-/
namespace TensorGraph

/-- The kinds of element that a layout may describe. -/
inductive ElementKind where
  | u8 | u32 | i32 | i64 | f16 | bf16 | f32 | f64
deriving DecidableEq, Inhabited

namespace ElementKind

/-- Width of one element in bytes. -/
def bytes : ElementKind → Nat
  | u8 => 1
  | f16 | bf16 => 2
  | u32 | i32 | f32 => 4
  | i64 | f64 => 8

/-- The kind as messages show it. -/
def name : ElementKind → String
  | u8 => "u8"
  | u32 => "u32"
  | i32 => "i32"
  | i64 => "i64"
  | f16 => "f16"
  | bf16 => "bf16"
  | f32 => "f32"
  | f64 => "f64"

/-- Whole numbers with wrapping arithmetic, as opposed to floating point. -/
def integral : ElementKind → Bool
  | u8 | u32 | i32 | i64 => true
  | f16 | bf16 | f32 | f64 => false

/-- Whether negative values exist. -/
def signed : ElementKind → Bool
  | u8 | u32 => false
  | i32 | i64 | f16 | bf16 | f32 | f64 => true

/-- The kind with the given name. -/
def ofName? (name : String) : Option ElementKind :=
  [u8, u32, i32, i64, f16, bf16, f32, f64].find? (·.name == name)

theorem bytes_pos (k : ElementKind) : 0 < k.bytes := by
  cases k <;> decide

theorem ofName?_name (k : ElementKind) : ofName? k.name = some k := by
  cases k <;> rfl

end ElementKind
end TensorGraph
