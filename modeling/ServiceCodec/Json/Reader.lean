import ServiceCodec.Bytes
import ServiceCodec.Json.Number
import ServiceCodec.Text.Hex

/-!
# Reading JSON

The reader is strict: blanks are the four that JSON names, strings hold no raw
control character and no half of a surrogate pair, nothing follows the value,
and at most 127 arrays and objects lie inside each other. Of two members with
one name the later counts.

Every function takes the rest of the text and answers with what it leaves of
it. The budget that makes the recursion structural is twice the length of the
text, and no document runs out of it: between two calls that take from the
budget at least every second one takes a character.
-/

namespace ServiceCodec.Json

/-- The blanks that may stand between the parts of a document. -/
def isBlank (c : Char) : Bool := c = ' ' || c = '\n' || c = '\t' || c = '\r'

def skipBlanks (s : List Char) : List Char := s.dropWhile isBlank

/-- The code unit that four hexadecimal digits spell. -/
def codeUnit? (a b c d : Char) : Option Nat := do
  return (((← hexValue? a) * 16 + (← hexValue? b)) * 16 + (← hexValue? c)) * 16 + (← hexValue? d)

def isHighSurrogate (n : Nat) : Bool := 0xd800 ≤ n && n ≤ 0xdbff

def isLowSurrogate (n : Nat) : Bool := 0xdc00 ≤ n && n ≤ 0xdfff

/-- The character of a surrogate pair. -/
def pairedChar (high low : Nat) : Char :=
  Char.ofNat (0x10000 + (high - 0xd800) * 0x400 + (low - 0xdc00))

/-- What a backslash and one character stand for. -/
def shortEscape? : Char → Option Char
  | '"' => some '"'
  | '\\' => some '\\'
  | '/' => some '/'
  | 'b' => some '\x08'
  | 'f' => some '\x0c'
  | 'n' => some '\n'
  | 'r' => some '\r'
  | 't' => some '\t'
  | _ => none

/-- Puts a character before a text that was read. -/
def prepend (c : Char) (r : List Char × List Char) : List Char × List Char := (c :: r.1, r.2)

/-- The characters of a string, from behind its opening quote to the closing
one. -/
def readText : List Char → Except TextFault (List Char × List Char)
  | [] => .error .unexpectedEnd
  | '"' :: rest => .ok ([], rest)
  | '\\' :: 'u' :: a :: b :: c :: d :: '\\' :: 'u' :: e :: f :: g :: h :: rest =>
      match codeUnit? a b c d with
      | none => .error .unknownEscape
      | some n =>
          if isLowSurrogate n then .error .loneSurrogate
          else if isHighSurrogate n then
            match codeUnit? e f g h with
            | none => .error .unknownEscape
            | some m =>
                if isLowSurrogate m then (readText rest).map (prepend (pairedChar n m))
                else .error .loneSurrogate
          else (readText ('\\' :: 'u' :: e :: f :: g :: h :: rest)).map (prepend (Char.ofNat n))
  | '\\' :: 'u' :: a :: b :: c :: d :: rest =>
      match codeUnit? a b c d with
      | none => .error .unknownEscape
      | some n =>
          if isLowSurrogate n || isHighSurrogate n then .error .loneSurrogate
          else (readText rest).map (prepend (Char.ofNat n))
  | '\\' :: c :: rest =>
      match shortEscape? c with
      | none => .error .unknownEscape
      | some x => (readText rest).map (prepend x)
  | c :: rest =>
      if c.toNat < 0x20 then .error (.controlCharacter c)
      else (readText rest).map (prepend c)

/-- A string, from behind its opening quote. -/
def readString (s : List Char) : Except TextFault (String × List Char) := do
  let (cs, rest) ← readText s
  return (String.ofList cs, rest)

/-- What is left of `s` behind the word. -/
def expect : List Char → List Char → Except TextFault (List Char)
  | [], s => .ok s
  | _ :: _, [] => .error .unexpectedEnd
  | w :: ws, c :: s => if w = c then expect ws s else .error (.unexpected c)

/-- A number, from behind its sign. -/
def readNumber (neg : Bool) (s : List Char) : Except TextFault (Json × List Char) := do
  let (numeral, rest) ← Numeral.scan neg s
  return (number (← numeral.value), rest)

mutual

/-- The value at the start of the text, with room for so many arrays and
objects inside each other. -/
def readValue : Nat → Nat → List Char → Except TextFault (Json × List Char)
  | 0, _, _ => .error .unexpectedEnd
  | budget + 1, room, s =>
      match skipBlanks s with
      | [] => .error .unexpectedEnd
      | 'n' :: rest => do return (null, ← expect ['u', 'l', 'l'] rest)
      | 't' :: rest => do return (bool true, ← expect ['r', 'u', 'e'] rest)
      | 'f' :: rest => do return (bool false, ← expect ['a', 'l', 's', 'e'] rest)
      | '"' :: rest => do
          let (text, rest) ← readString rest
          return (string text, rest)
      | '-' :: rest => readNumber true rest
      | '[' :: rest =>
          match room with
          | 0 => .error .nestedTooDeeply
          | room + 1 =>
              match skipBlanks rest with
              | ']' :: rest => .ok (array [], rest)
              | rest => do
                  let (vs, rest) ← readElements budget room rest
                  return (array vs, rest)
      | '{' :: rest =>
          match room with
          | 0 => .error .nestedTooDeeply
          | room + 1 =>
              match skipBlanks rest with
              | '}' :: rest => .ok (object [], rest)
              | rest => do
                  let (es, rest) ← readMembers budget room rest
                  return (ofFields es, rest)
      | rest => readNumber false rest

/-- The elements of an array that has some, to its end. -/
def readElements : Nat → Nat → List Char → Except TextFault (List Json × List Char)
  | 0, _, _ => .error .unexpectedEnd
  | budget + 1, room, s => do
      let (v, rest) ← readValue budget room s
      match skipBlanks rest with
      | ',' :: rest =>
          let (vs, rest) ← readElements budget room rest
          return (v :: vs, rest)
      | ']' :: rest => return ([v], rest)
      | c :: _ => .error (.unexpected c)
      | [] => .error .unexpectedEnd

/-- The members of an object that has some, to its end. -/
def readMembers : Nat → Nat → List Char → Except TextFault (List (String × Json) × List Char)
  | 0, _, _ => .error .unexpectedEnd
  | budget + 1, room, s =>
      match skipBlanks s with
      | '"' :: rest => do
          let (key, rest) ← readString rest
          match skipBlanks rest with
          | ':' :: rest =>
              let (v, rest) ← readValue budget room rest
              match skipBlanks rest with
              | ',' :: rest =>
                  let (es, rest) ← readMembers budget room rest
                  return ((key, v) :: es, rest)
              | '}' :: rest => return ([(key, v)], rest)
              | c :: _ => .error (.unexpected c)
              | [] => .error .unexpectedEnd
          | c :: _ => .error (.unexpected c)
          | [] => .error .unexpectedEnd
      | c :: _ => .error (.unexpected c)
      | [] => .error .unexpectedEnd

end

/-- The deepest nesting of arrays and objects that is read. -/
def depthLimit : Nat := 127

/-- The value that a whole text holds. -/
def ofText (s : List Char) : Except TextFault Json := do
  let (v, rest) ← readValue (2 * s.length + 1) depthLimit s
  match skipBlanks rest with
  | [] => return v
  | _ :: _ => .error .trailing

/-- The bytes that make a body count as absent: blanks and the form feed. -/
def isBlankByte (b : UInt8) : Bool := b = 0x20 || b = 0x09 || b = 0x0a || b = 0x0c || b = 0x0d

/-- The document in a body; a body of blanks alone, or an empty one, holds
none. -/
def ofBody (body : Bytes) : Except JsonError (Option Json) :=
  if body.all isBlankByte then .ok none
  else match textOf? body with
    | none => .error (.malformed .notUtf8)
    | some text => match ofText text.toList with
      | .ok v => .ok (some v)
      | .error fault => .error (.malformed fault)

end ServiceCodec.Json
