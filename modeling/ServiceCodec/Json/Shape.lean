import ServiceCodec.Json.Decode

/-!
# Binding documents to shapes

A shape is a type whose values are filled from the members of a document. It
starts from a blank value. An object fills the fields that its members name, in
the object's own order, ignores members that no field names, and must name the
required ones; an array fills the fields from the front, in their order, must
reach the required ones, and must not go on past the last.

The binding of a success payload and of an error payload is this one, so a
shape means the same in both.
-/

namespace ServiceCodec

/-- A type that can be bound to a document. -/
structure Shape (σ : Type) where
  /-- The value before anything is bound. -/
  blank : σ
  bind : Decoder σ

/-- One field of a record: where its value goes. -/
structure Field (σ : Type) where
  name : String
  required : Bool
  store : Json → σ → Except JsonError σ

/-- A field that may be absent from the document. -/
def Field.optional {σ α : Type} (name : String) (d : Decoder α) (put : α → σ → σ) : Field σ :=
  ⟨name, false, fun v s => (d v).map (put · s)⟩

/-- A field that the document must have. -/
def Field.mandatory {σ α : Type} (name : String) (d : Decoder α) (put : α → σ → σ) : Field σ :=
  ⟨name, true, fun v s => (d v).map (put · s)⟩

namespace Fields

variable {σ : Type}

/-- Stores each member under the field of its name; others are passed over. -/
def storeMembers (fields : List (Field σ)) : σ → JsonObject → Except JsonError σ
  | s, [] => .ok s
  | s, (key, v) :: rest =>
      match fields.find? fun f => f.name = key with
      | none => storeMembers fields s rest
      | some f => do storeMembers fields (← f.store v s) rest

/-- The first required field that the object does not name. -/
def firstMissing? (fields : List (Field σ)) (es : JsonObject) : Option (Field σ) :=
  fields.find? fun f => f.required && (es.find? f.name).isNone

def bindObject (fields : List (Field σ)) (s : σ) (es : JsonObject) : Except JsonError σ := do
  let s ← storeMembers fields s es
  match firstMissing? fields es with
  | some f => .error (.missingField f.name)
  | none => .ok s

/-- Stores the elements in the fields from the front. -/
def bindArray : List (Field σ) → σ → List Json → Except JsonError σ
  | [], s, [] => .ok s
  | [], _, vs => .error (.surplusElements vs.length)
  | f :: fs, s, [] => if f.required then .error (.missingField f.name) else bindArray fs s []
  | f :: fs, s, v :: vs => do bindArray fs (← f.store v s) vs

end Fields

/-- The shape of a record with the given fields and blank value. -/
def Shape.record {σ : Type} (fields : List (Field σ)) (blank : σ) : Shape σ where
  blank
  bind
    | .object es => Fields.bindObject fields blank es
    | .array vs => Fields.bindArray fields blank vs
    | v => .error (.mismatch "a structure" v.kind)

end ServiceCodec
