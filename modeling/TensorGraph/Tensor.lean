/-
# Tensors

A tensor on the caller's side: a shape and its elements in row-major order,
exactly one per position.
-/
import TensorGraph.Error

namespace TensorGraph

/-- A shape with its elements in row-major order. -/
structure Tensor (α : Type) where
  shape : Shape
  data : Array α
  /-- There is one element per position. -/
  size_data : data.size = shape.size
deriving DecidableEq

namespace Tensor

variable {α : Type}

/-- The tensor with the given shape and elements, if they fit together. -/
def ofData? (shape : Shape) (data : Array α) : Except Error (Tensor α) :=
  if h : data.size = shape.size then .ok ⟨shape, data, h⟩
  else .error (.shape "tensor" (.dataSize shape data.size))

/-- A single element. -/
def scalar (value : α) : Tensor α := ⟨.scalar, #[value], rfl⟩

/-- One element repeated over a shape. -/
def full (shape : Shape) (value : α) : Tensor α :=
  ⟨shape, Array.replicate shape.size value, by simp⟩

/-- The elements along one axis. -/
def ofArray (data : Array α) : Tensor α := ⟨⟨[data.size]⟩, data, by simp [Shape.size]⟩

/-- The only element of a tensor with one element, whatever its rank. -/
def toScalar (t : Tensor α) : Except Error α :=
  match t.data.toList with
  | [value] => .ok value
  | _ => .error (.shape "tensor" (.notScalar t.shape))

theorem ofData?_eq_ok_iff {shape : Shape} {data : Array α} {t : Tensor α} :
    ofData? shape data = .ok t ↔ t.shape = shape ∧ t.data = data := by
  obtain ⟨s, d, h⟩ := t
  simp only [ofData?]
  split
  · simp only [Except.ok.injEq, Tensor.mk.injEq]
    exact ⟨fun e => ⟨e.1.symm, e.2.symm⟩, fun e => ⟨e.1.symm, e.2.symm⟩⟩
  · rename_i hne
    simp only [reduceCtorEq, false_iff]
    rintro ⟨rfl, rfl⟩
    exact hne h

end Tensor
end TensorGraph
