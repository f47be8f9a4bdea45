import ServiceCodec.Conformance.Shapes
import ServiceCodec.Response.Output

/-!
# The outputs of the conformance service

Besides the plain shapes: an output that is a raw payload, one that is read from
the head alone and can refuse it, and one whose shape a header decides.
-/

namespace ServiceCodec.Conformance

/-- The raw payload of a response, empty if there is none. -/
def payloadOutput : OutputBuilder Bytes Bytes where
  start _ := []
  bindPayload bytes := set bytes
  build x := x

/-- A count from a header, and the status. -/
structure HeadOutput where
  count : Int := 0
  status : Nat := 0
  deriving DecidableEq

/-- A whole number: a sign or none, then digits, in the range of 32 bits. -/
def parseCount? (text : String) : Option Int :=
  let (neg, digits) := match text.toList with
    | '-' :: ds => (true, ds)
    | '+' :: ds => (false, ds)
    | ds => (false, ds)
  if digits.isEmpty || !digits.all Char.isDigit then none
  else
    let n : Nat := digits.foldl (fun n c => n * 10 + (c.toNat - '0'.toNat)) 0
    let value : Int := if neg then -(n : Int) else n
    if -2147483648 ≤ value ∧ value ≤ 2147483647 then some value else none

/-- The header that holds the count. -/
def countHeader : HeaderName := ⟨"x-count"⟩

/-- Reads the count; a head without one, or with something else, is refused. -/
def readHead (h : Head) : Except ResponseError HeadOutput :=
  match h.headers.first? countHeader with
  | none => .error (.badHeader countHeader.text "missing")
  | some v =>
      match v.text? with
      | none => .error (.badHeader countHeader.text "not text")
      | some text =>
          match parseCount? text with
          | none => .error (.badHeader countHeader.text "not an integer")
          | some count => .ok ⟨count, h.status.code⟩

def headOutput : OutputBuilder HeadOutput HeadOutput where
  start _ := {}
  bindHead h :=
    match readHead h with
    | .ok x => set x
    | .error e => throw e
  build x := x

/-- Something was created, with a document about it, or something was deleted. -/
inductive Event where
  | created (shape : AllTypes)
  | deleted

/-- The header that says what happened. -/
def eventHeader : HeaderName := ⟨"x-event-type"⟩

def eventOutput : OutputBuilder Event Event where
  start h := if h.headers.firstText? eventHeader = some "created" then .created {} else .deleted
  bindDocument v := do
    match ← get with
    | .deleted => pure ()
    | .created _ =>
        match AllTypes.shape.bind v with
        | .ok x => set (Event.created x)
        | .error e => throw (.json e)
  build x := x

end ServiceCodec.Conformance
