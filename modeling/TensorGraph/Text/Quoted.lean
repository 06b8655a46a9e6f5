/-
# Quoted text

Nested errors and graph labels show a string between double quotes.  Quotes
and backslashes inside it get a backslash, line breaks and tabs become two
visible characters, and what cannot be seen is written as the hexadecimal
number of its code point.
-/
import TensorGraph.Text.Invisible

namespace TensorGraph.Text

/-- One character inside quotes. -/
def quotedChar (c : Char) : List Char :=
  if c = '"' then ['\\', '"']
  else if c = '\\' then ['\\', '\\']
  else if c = '\n' then ['\\', 'n']
  else if c = '\r' then ['\\', 'r']
  else if c = '\t' then ['\\', 't']
  else if c = '\x00' then ['\\', '0']
  else if invisible c then
    '\\' :: 'u' :: '\x7b' :: Nat.toDigits 16 c.toNat ++ ['\x7d']
  else [c]

/-- A string between double quotes. -/
def quoted (s : String) : String :=
  String.ofList ('"' :: s.toList.flatMap quotedChar ++ ['"'])

end TensorGraph.Text
