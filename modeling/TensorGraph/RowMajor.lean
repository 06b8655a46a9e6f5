/-
# Row-major numbering

The elements of a tensor are numbered with the last axis varying fastest.
`coordinates` reads a number as one digit per axis, `strides` gives the
weight of each digit, and `position` puts digits and weights together
again; every layout and every kernel counts elements through these three.
-/
namespace TensorGraph.RowMajor

/-- The number of elements of a tensor with the given sizes. -/
def count : List Nat → Nat
  | [] => 1
  | d :: ds => d * count ds

/-- The distance between neighbours along each axis when elements lie densely. -/
def strides : List Nat → List Nat
  | [] => []
  | _ :: ds => count ds :: strides ds

/-- The coordinates of the `i`-th element.  A number past the last element
starts again from the first. -/
def coordinates : List Nat → Nat → List Nat
  | [], _ => []
  | d :: ds, i => i / count ds % d :: coordinates ds i

/-- The sum of coordinates times strides, over the axes that have both. -/
def position : List Nat → List Nat → Nat
  | c :: cs, s :: ss => c * s + position cs ss
  | _, _ => 0

/-- The strides step through the elements in order, without gaps: an axis of
size one is never stepped along and may have any stride. -/
def dense : List Nat → List Nat → Bool
  | d :: ds, s :: ss => (d == 1 || s == count ds) && dense ds ss
  | _, _ => true

@[simp] theorem count_nil : count [] = 1 := rfl

@[simp] theorem count_cons (d : Nat) (ds : List Nat) : count (d :: ds) = d * count ds := rfl

@[simp] theorem length_strides (dims : List Nat) :
    (strides dims).length = dims.length := by
  induction dims with
  | nil => rfl
  | cons d ds ih => simp [strides, ih]

@[simp] theorem length_coordinates (dims : List Nat) (i : Nat) :
    (coordinates dims i).length = dims.length := by
  induction dims with
  | nil => rfl
  | cons d ds ih => simp [coordinates, ih]

theorem dense_strides (dims : List Nat) : dense dims (strides dims) = true := by
  induction dims with
  | nil => rfl
  | cons d ds ih => simp [dense, strides, ih]

end TensorGraph.RowMajor
