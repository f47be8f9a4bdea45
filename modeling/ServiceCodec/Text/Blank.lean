/-!
# Blank text

Blank characters are those with the Unicode property White_Space. A text counts
as blank when nothing is left of it after trimming, which is to say when all
its characters are blank.
-/

namespace ServiceCodec.Text

/-- The White_Space characters; U+200B, which has no width, is not one. -/
def isBlank (c : Char) : Bool :=
  let n := c.toNat
  (0x9 ≤ n && n ≤ 0xd) || n = 0x20 || n = 0x85 || n = 0xa0 || n = 0x1680 ||
    (0x2000 ≤ n && n ≤ 0x200a) || n = 0x2028 || n = 0x2029 || n = 0x202f ||
    n = 0x205f || n = 0x3000

/-- `cs` without the blanks at either end. -/
def trim (cs : List Char) : List Char :=
  ((cs.dropWhile isBlank).reverse.dropWhile isBlank).reverse

/-- Holds for text that trims to nothing. -/
def allBlank (text : String) : Bool := (trim text.toList).isEmpty

end ServiceCodec.Text
