import ServiceCodec.Blob
import ServiceCodec.Json.Shape
import ServiceCodec.Timestamp

/-!
# The shapes of the conformance service

A service with one shape for every question that a binding can raise: members
of every type, all of them optional and one of them the shape itself; a shape
most of whose members are required; and shapes with one member and with none.
-/

namespace ServiceCodec.Conformance

/-- A shape with a single optional member. -/
structure Simple where
  stringMember : Option String
  deriving DecidableEq

def Simple.shape : Shape Simple :=
  Shape.record
    [.optional "StringMember" (.optional .text) fun v _ => ⟨v⟩]
    ⟨none⟩

def Simple.encode (s : Simple) : Json :=
  .ofFields [("StringMember", s.stringMember.elim .null .string)]

/-- A shape with a member of every type. -/
structure AllTypes where
  stringMember : Option String := none
  integerMember : Option Int := none
  longMember : Option Int := none
  doubleMember : Option (Binary binary64) := none
  floatMember : Option (Binary binary32) := none
  timestampMember : Option Timestamp := none
  booleanMember : Option Bool := none
  blobMember : Option Bytes := none
  listMember : Option (List String) := none
  mapMember : Option (Dictionary String) := none
  simpleStructMember : Option Simple := none
  structListMember : Option (List Simple) := none
  recursiveMember : Option AllTypes := none
  documentMember : Option Json := none

namespace AllTypes

/-- The fields, with a decoder for the member that is the shape itself. -/
def fields (inner : Decoder AllTypes) : List (Field AllTypes) :=
  [ .optional "StringMember" (.optional .text) fun v s => { s with stringMember := v },
    .optional "IntegerMember" (.optional (.integer 32)) fun v s => { s with integerMember := v },
    .optional "LongMember" (.optional (.integer 64)) fun v s => { s with longMember := v },
    .optional "DoubleMember" (.optional .double) fun v s => { s with doubleMember := v },
    .optional "FloatMember" (.optional .single) fun v s => { s with floatMember := v },
    .optional "TimestampMember" Timestamp.decodeOptional
      fun v s => { s with timestampMember := v },
    .optional "BooleanMember" (.optional .boolean) fun v s => { s with booleanMember := v },
    .optional "BlobMember" Blob.decodeOptional fun v s => { s with blobMember := v },
    .optional "ListMember" (.optional (.list .text)) fun v s => { s with listMember := v },
    .optional "MapMember" (.optional (.dictionary .text)) fun v s => { s with mapMember := v },
    .optional "SimpleStructMember" (.optional Simple.shape.bind)
      fun v s => { s with simpleStructMember := v },
    .optional "StructListMember" (.optional (.list Simple.shape.bind))
      fun v s => { s with structListMember := v },
    .optional "RecursiveMember" (.optional inner) fun v s => { s with recursiveMember := v },
    .optional "DocumentMember" (.optional .any) fun v s => { s with documentMember := v } ]

/-- Binds a document in which the shape lies in itself fewer than `n` times. -/
def bindWithin : Nat → Decoder AllTypes
  | 0, v => .error (.mismatch "a structure" v.kind)
  | n + 1, v => (Shape.record (fields (bindWithin n)) {}).bind v

/-- A document is deeper than the shape lies in itself in it. -/
def shape : Shape AllTypes := ⟨{}, fun v => bindWithin (v.depth + 1) v⟩

/-- The document of a value, given that of the member that is the shape itself:
absent members are left out, but an absent timestamp or blob is written as
`null`. -/
def encodeAround (inner : Option Json) (s : AllTypes) : Json :=
  let present (name : String) (v : Option Json) : List (String × Json) :=
    v.toList.map fun v => (name, v)
  .ofFields <|
    present "StringMember" (s.stringMember.map .string) ++
    present "IntegerMember" (s.integerMember.map fun n => .number (.int n)) ++
    present "LongMember" (s.longMember.map fun n => .number (.int n)) ++
    present "DoubleMember" (s.doubleMember.map .ofBinary) ++
    present "FloatMember" (s.floatMember.map fun x => .ofBinary (x.convert binary64)) ++
    [("TimestampMember", Timestamp.encodeOptional s.timestampMember)] ++
    present "BooleanMember" (s.booleanMember.map .bool) ++
    [("BlobMember", Blob.encodeOptional s.blobMember)] ++
    present "ListMember" (s.listMember.map fun vs => .array (vs.map .string)) ++
    present "MapMember"
      (s.mapMember.map fun d => .object (d.entries.map fun e => (e.1, .string e.2))) ++
    present "SimpleStructMember" (s.simpleStructMember.map Simple.encode) ++
    present "StructListMember"
      (s.structListMember.map fun vs => .array (vs.map Simple.encode)) ++
    present "RecursiveMember" inner ++
    present "DocumentMember" s.documentMember

def encode : AllTypes → Json
  | s@{ recursiveMember := none, .. } => encodeAround none s
  | s@{ recursiveMember := some inner, .. } => encodeAround (some (encode inner)) s

end AllTypes

/-- A shape most of whose members are required. -/
structure Strict where
  name : String := ""
  count : Int := 0
  at_ : Timestamp := Timestamp.epoch
  data : Bytes := []
  maybeAt : Option Timestamp := none

namespace Strict

def shape : Shape Strict :=
  Shape.record
    [ .mandatory "Name" .text fun v s => { s with name := v },
      .mandatory "Count" (.integer 64) fun v s => { s with count := v },
      .mandatory "At" Timestamp.decode fun v s => { s with at_ := v },
      .mandatory "Data" Blob.decode fun v s => { s with data := v },
      .optional "MaybeAt" Timestamp.decodeOptional fun v s => { s with maybeAt := v } ]
    {}

def encode (s : Strict) : Json :=
  .ofFields
    [ ("Name", .string s.name), ("Count", .number (.int s.count)), ("At", s.at_.encode),
      ("Data", Blob.encode s.data), ("MaybeAt", Timestamp.encodeOptional s.maybeAt) ]

end Strict

/-- A shape without members. -/
structure Empty where
  deriving DecidableEq

def Empty.shape : Shape Empty := Shape.record [] {}

/-- A list of strings, as a shape of its own. -/
def listShape : Shape (List String) := ⟨[], .list .text⟩

/-- Any document, as a shape of its own. -/
def documentShape : Shape Json := ⟨.null, .any⟩

end ServiceCodec.Conformance
