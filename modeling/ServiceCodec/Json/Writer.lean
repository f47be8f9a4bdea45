import ServiceCodec.Bytes
import ServiceCodec.Json.Number
import ServiceCodec.Text.Hex

/-!
# Writing JSON

A document is written without blanks, members in key order. In a string the
quote, the backslash and the control characters below U+0020 are escaped and
nothing else is.
-/

namespace ServiceCodec.Json

/-- What stands for `c` in a string. -/
def escapeChar (c : Char) : List Char :=
  if c = '"' then ['\\', '"']
  else if c = '\\' then ['\\', '\\']
  else if c = '\x08' then ['\\', 'b']
  else if c = '\x0c' then ['\\', 'f']
  else if c = '\n' then ['\\', 'n']
  else if c = '\r' then ['\\', 'r']
  else if c = '\t' then ['\\', 't']
  else if c.toNat < 0x20 then
    ['\\', 'u', '0', '0', lowerHexDigit (c.toNat / 16), lowerHexDigit (c.toNat % 16)]
  else [c]

/-- A text as a JSON string, with its quotes. -/
def writeString (text : String) : List Char :=
  '"' :: text.toList.flatMap escapeChar ++ ['"']

mutual

/-- The text of a value. -/
def write : Json → List Char
  | null => ['n', 'u', 'l', 'l']
  | bool true => ['t', 'r', 'u', 'e']
  | bool false => ['f', 'a', 'l', 's', 'e']
  | number n => n.write
  | string s => writeString s
  | array [] => ['[', ']']
  | array (v :: vs) => '[' :: write v ++ writeElements vs
  | object [] => ['{', '}']
  | object ((k, v) :: es) => '{' :: writeString k ++ ':' :: write v ++ writeMembers es

/-- The elements behind the first one, to the end of the array. -/
def writeElements : List Json → List Char
  | [] => [']']
  | v :: vs => ',' :: write v ++ writeElements vs

/-- The members behind the first one, to the end of the object. -/
def writeMembers : List (String × Json) → List Char
  | [] => ['}']
  | (k, v) :: es => ',' :: writeString k ++ ':' :: write v ++ writeMembers es

end

/-- The text of a value. -/
def toText (v : Json) : String := String.ofList v.write

/-- The text of a value as a body. -/
def toBody (v : Json) : Bytes := bytesOf v.toText

end ServiceCodec.Json
