/-!
# Places in messages

A message about a text may name the place it is about at its end, as in
`bad value at line 3 column 5`. The place is no part of the message's own words:
it is taken off the end, and put back when the message is shown. Lines count
from 1, so that a place on line 0 is nowhere, and a message shown with it ends
with its words.
-/

namespace ServiceCodec

/-- A place in a text. -/
structure Place where
  line : Nat
  column : Nat
  deriving DecidableEq

namespace Place

/-- The greatest line, and the greatest column. -/
def limit : Nat := 18446744073709551615

/-- What stands before a line. -/
def lineMark : String := " at line "

/-- What stands before a column. -/
def columnMark : String := " column "

/-- How a message ends that names the place. -/
def toText (p : Place) : String :=
  if p.line = 0 then "" else lineMark ++ p.line.repr ++ columnMark ++ p.column.repr

/-- The number that the digits write, if there are any and it is no greater than
`limit`. -/
def number? (digits : List Char) : Option Nat :=
  if digits.isEmpty then none
  else
    let n := Nat.ofDigitChars 10 digits 0
    if n ≤ limit then some n else none

/-- The words of a message and the place at its end, if it ends with one. The
message is read backwards, so that each run of digits is the longest. -/
def ofMessage? (message : String) : Option (String × Place) := do
  let text := message.toList.reverse
  let column := (text.takeWhile Char.isDigit).reverse
  let text ← columnMark.toList.reverse.isPrefixOf? (text.dropWhile Char.isDigit)
  let line := (text.takeWhile Char.isDigit).reverse
  let words ← lineMark.toList.reverse.isPrefixOf? (text.dropWhile Char.isDigit)
  return (String.ofList words.reverse, ⟨← number? line, ← number? column⟩)

end Place

end ServiceCodec
