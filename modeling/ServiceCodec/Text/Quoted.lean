import ServiceCodec.Text.Unprintable

/-!
# Quoted text

Names that come from outside are quoted in messages, so that blanks at their
ends and control characters in them can be seen: the quote and the backslash
are escaped by a backslash, the common controls by a letter, and every other
character without a printed form by its code point in hexadecimal.
-/

namespace ServiceCodec.Text

/-- What stands for `c` between the quotes. -/
def quotedChar (c : Char) : List Char :=
  if c = '"' then ['\\', '"']
  else if c = '\\' then ['\\', '\\']
  else if c = '\t' then ['\\', 't']
  else if c = '\r' then ['\\', 'r']
  else if c = '\n' then ['\\', 'n']
  else if c.toNat = 0 then ['\\', '0']
  else if isUnprintable c then
    ['\\', 'u', '{'] ++ Nat.toDigits 16 c.toNat ++ ['}']
  else [c]

/-- `text` between quotes, with what cannot be shown escaped. -/
def quoted (text : String) : String :=
  String.ofList (['"'] ++ text.toList.flatMap quotedChar ++ ['"'])

end ServiceCodec.Text
