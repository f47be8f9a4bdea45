import ServiceCodec.Bytes

/-!
# Request URIs

The URI of a request is a path and perhaps a query. It is read from text that
begins with a slash: a fragment is dropped, whatever it holds, and the rest is
split at the first question mark. The bytes that may stand in a path and in a
query are nearly the same; letters beyond ASCII are let through, and the last
character of ASCII, U+007F, is refused in both.
-/

namespace ServiceCodec

/-- Why a text is no request URI. -/
inductive UriFault where
  | tooLong
  | badCharacter
  deriving DecidableEq

def UriFault.message : UriFault → String
  | tooLong => "uri too long"
  | badCharacter => "invalid uri character"

/-- The target of a request. -/
structure Uri where
  path : List Char
  query : Option (List Char)
  deriving DecidableEq

namespace Uri

/-- The most bytes that a URI may have, with its fragment. -/
def sizeLimit : Nat := 65534

def isPathChar (c : Char) : Bool :=
  let n := c.toNat
  n = 0x21 || n = 0x22 || (0x24 ≤ n && n ≤ 0x3b) || n = 0x3d || (0x40 ≤ n && n ≤ 0x5f) ||
    (0x61 ≤ n && n ≤ 0x7e) || 0x80 ≤ n

def isQueryChar (c : Char) : Bool :=
  let n := c.toNat
  n = 0x21 || (0x24 ≤ n && n ≤ 0x3b) || n = 0x3d || (0x3f ≤ n && n ≤ 0x7e) || 0x80 ≤ n

/-- The URI in a text that begins with a slash. -/
def ofText (text : String) : Except UriFault Uri :=
  if sizeLimit < text.utf8ByteSize then .error .tooLong
  else
    let cs := text.toList.takeWhile (· ≠ '#')
    let path := cs.takeWhile (· ≠ '?')
    let query := match cs.dropWhile (· ≠ '?') with
      | [] => none
      | _ :: rest => some rest
    if path.all isPathChar && (query.getD []).all isQueryChar then .ok ⟨path, query⟩
    else .error .badCharacter

/-- The path, and the query behind its question mark. -/
def toText (u : Uri) : String :=
  String.ofList <| u.path ++ match u.query with
    | none => []
    | some q => '?' :: q

end Uri

end ServiceCodec
