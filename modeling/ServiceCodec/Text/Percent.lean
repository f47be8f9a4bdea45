import ServiceCodec.Bytes
import ServiceCodec.Text.Hex

/-!
# Percent-encoding

A value put into a URI keeps the unreserved characters — ASCII letters, digits,
`-`, `.`, `_` and `~` — and spells every other byte of its UTF-8 encoding as
`%XX`. The encoding is built on that of HTML forms, which differs in three
characters: a form leaves `*` bare, escapes `~`, and writes a space as `+`. The
three are put right afterwards; a `+`, `*` or `%7E` in the form's output never
stands for anything else, since a literal `+` or `%` comes out of it escaped.

A greedy label keeps its slashes: they separate segments which are encoded one
by one.
-/

namespace ServiceCodec.Percent

/-- The escape `%XX` of a byte. -/
def escape (b : UInt8) : List Char :=
  ['%', hexDigit (b.toNat / 16), hexDigit (b.toNat % 16)]

/-- Letters, digits, `*`, `-`, `.` and `_` stay bare in a form. -/
def isBareInForm (b : UInt8) : Bool :=
  (0x30 ≤ b && b ≤ 0x39) || (0x41 ≤ b && b ≤ 0x5a) || (0x61 ≤ b && b ≤ 0x7a) ||
    b = 0x2a || b = 0x2d || b = 0x2e || b = 0x5f

/-- One byte in the encoding of HTML forms. -/
def formByte (b : UInt8) : List Char :=
  if isBareInForm b then [Char.ofNat b.toNat]
  else if b = 0x20 then ['+']
  else escape b

def formEncode (bytes : Bytes) : List Char := bytes.flatMap formByte

/-- `cs` with `spelling` in the place of every `c`. -/
def replaceChar (c : Char) (spelling : List Char) (cs : List Char) : List Char :=
  cs.flatMap fun x => if x = c then spelling else [x]

/-- `cs` with `~` in the place of every `%7E`. -/
def restoreTilde : List Char → List Char
  | [] => []
  | '%' :: '7' :: 'E' :: rest => '~' :: restoreTilde rest
  | c :: rest => c :: restoreTilde rest

/-- `value` with everything outside the unreserved characters escaped. -/
def encode (value : String) : String :=
  String.ofList <| restoreTilde <| replaceChar '*' ['%', '2', 'A'] <|
    replaceChar '+' ['%', '2', '0'] <| formEncode (bytesOf value)

/-- The parts of `value` between its slashes. -/
def segments (value : String) : List String :=
  (value.toList.splitOn '/').map String.ofList

/-- `value` encoded segment by segment, with its slashes kept. -/
def encodeSegments (value : String) : String :=
  "/".intercalate ((segments value).map encode)

end ServiceCodec.Percent
