/-
# Sequences in messages

Lists of sizes appear in messages in two forms: between square brackets
(axes, strides, orders) and between round ones (shapes).  Both separate
their items by a comma and a blank.
-/
namespace TensorGraph.Text

/-- The items in order, separated by a comma and a blank. -/
def commaSeparated (items : List String) : String :=
  ", ".intercalate items

/-- A list of sizes between square brackets: `[0, 2]`, `[]`. -/
def bracketed (sizes : List Nat) : String :=
  "[" ++ commaSeparated (sizes.map toString) ++ "]"

/-- A list of sizes between round brackets: `(2, 3)`, `(3)`, `()`. -/
def parenthesized (sizes : List Nat) : String :=
  "(" ++ commaSeparated (sizes.map toString) ++ ")"

end TensorGraph.Text
