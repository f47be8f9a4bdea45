import ServiceCodec.Http.Uri
import ServiceCodec.Operation.Basic
import ServiceCodec.Request.Locations
import ServiceCodec.Text.Percent

/-!
# The target of a request

The pieces of a template are expanded from left to right: characters as they
are, labels by their values, percent-encoded. What a label expands to is never
looked at again. Query parameters follow the path, behind those that the
template has itself.
-/

namespace ServiceCodec

namespace Piece

/-- What a piece stands for under the given bindings. -/
def expand (labels : Dictionary String) : Piece → Except RequestError (List Char)
  | char c => .ok [c]
  | label name greedy =>
      let name := String.ofList name
      match (labels.find? name).filter (· ≠ "") with
      | none => .error (.unboundLabel name)
      | some value =>
          .ok (if greedy then Percent.encodeSegments value else Percent.encode value).toList

end Piece

namespace Template

/-- What the pieces stand for, one behind the other. -/
def expandPieces (labels : Dictionary String) : List Piece → Except RequestError (List Char)
  | [] => .ok []
  | p :: ps => do return (← p.expand labels) ++ (← expandPieces labels ps)

/-- The path with the values of its labels. -/
def expand (t : Template) (labels : Dictionary String) : Except RequestError (List Char) := do
  return '/' :: (← expandPieces labels t.pieces)

end Template

/-- A query parameter as it is sent. -/
def encodeParameter (p : String × String) : String :=
  Percent.encode p.1 ++ "=" ++ Percent.encode p.2

/-- What separates the parameters from what is already there. -/
def querySeparator (target : List Char) : List Char :=
  if !target.contains '?' then ['?']
  else if target.getLast? = some '?' || target.getLast? = some '&' then []
  else ['&']

/-- Puts the parameters behind an expanded path. -/
def appendQuery (target : List Char) (query : List (String × String)) : List Char :=
  if query.isEmpty then target
  else target ++ querySeparator target ++
    ("&".intercalate (query.map encodeParameter)).toList

/-- The text of the request's URI. -/
def targetText (t : Template) (ls : Locations) : Except RequestError String := do
  return String.ofList (appendQuery (← t.expand ls.labels) ls.query)

end ServiceCodec
