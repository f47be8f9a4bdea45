import ServiceCodec.Bytes

/-!
# Message bodies

A body is absent, or one buffered piece that has been taken or not, or a stream
of pieces that arrive one by one. A stream is what it will still yield — pieces,
failures, and moments at which nothing is ready — with a count of how often it
was asked, so that "never read" is a statement about the value.
-/

namespace ServiceCodec

/-- A stream that broke off. -/
structure BodyError where
  detail : String
  deriving DecidableEq

def BodyError.message (e : BodyError) : String := "body error: " ++ e.detail

/-- What a stream answers when it is asked. -/
inductive StreamEvent where
  /-- Nothing is ready yet. -/
  | pending
  | chunk (bytes : Bytes)
  | failure (error : BodyError)
  deriving DecidableEq

/-- A stream at some point of its course. -/
structure ByteStream where
  upcoming : List StreamEvent
  /-- How often the stream has been asked. -/
  polls : Nat := 0
  deriving DecidableEq

/-- The body of a request or a response. -/
inductive Body where
  | empty
  /-- One piece, until it is taken. -/
  | full (data : Option Bytes)
  | streaming (stream : ByteStream)
  deriving DecidableEq

/-- What a body answers when it is asked for its next frame. -/
inductive Poll where
  | pending
  | finished
  | data (bytes : Bytes)
  | failed (error : BodyError)
  deriving DecidableEq

/-- What is known of the number of bytes to come. -/
structure SizeHint where
  lower : Nat
  upper : Option Nat
  deriving DecidableEq

/-- The number of bytes to come, if it is known exactly. -/
def SizeHint.exact? (s : SizeHint) : Option Nat := s.upper.filter (· = s.lower)

/-- A stream is asked once: its next event is its answer, and at its end it
answers that it is finished. -/
def ByteStream.poll (s : ByteStream) : Poll × ByteStream :=
  match s.upcoming with
  | [] => (.finished, ⟨[], s.polls + 1⟩)
  | .pending :: rest => (.pending, ⟨rest, s.polls + 1⟩)
  | .chunk bytes :: rest => (.data bytes, ⟨rest, s.polls + 1⟩)
  | .failure e :: rest => (.failed e, ⟨rest, s.polls + 1⟩)

/-- Asks until the stream ends or fails, waiting where nothing is ready. -/
def ByteStream.drain : List StreamEvent → Nat → Except BodyError Bytes × ByteStream
  | [], n => (.ok [], ⟨[], n + 1⟩)
  | .pending :: rest, n => drain rest (n + 1)
  | .chunk bytes :: rest, n =>
      let (r, s) := drain rest (n + 1)
      (r.map (bytes ++ ·), s)
  | .failure e :: rest, n => (.error e, ⟨rest, n + 1⟩)

namespace Body

instance : Inhabited Body := ⟨empty⟩

/-- A buffered body. -/
def ofBytes (bytes : Bytes) : Body := full (some bytes)

def isStreaming : Body → Bool
  | streaming _ => true
  | _ => false

/-- The bytes of a body that is no stream; a stream is handed back as it is. -/
def buffered : Body → Except Body Bytes
  | empty => .ok []
  | full data => .ok (data.getD [])
  | streaming s => .error (streaming s)

/-- Asks for the next frame. -/
def poll : Body → Poll × Body
  | empty => (.finished, empty)
  | full none => (.finished, full none)
  | full (some bytes) => (.data bytes, full none)
  | streaming s => let (p, s) := s.poll; (p, streaming s)

/-- No frame will come. A stream never promises that. -/
def isEndStream : Body → Bool
  | empty => true
  | full data => data.isNone
  | streaming _ => false

def sizeHint : Body → SizeHint
  | empty => ⟨0, some 0⟩
  | full data => let n := (data.getD []).length; ⟨n, some n⟩
  | streaming _ => ⟨0, none⟩

/-- Reads the body to its end, or to the first failure; with what is left. -/
def collect : Body → Except BodyError Bytes × Body
  | empty => (.ok [], empty)
  | full data => (.ok (data.getD []), full none)
  | streaming s =>
      let (r, s) := ByteStream.drain s.upcoming s.polls
      (r, streaming s)

/-- The bytes of the whole body, or the first failure. -/
def content (b : Body) : Except BodyError Bytes := b.collect.1

/-- How often the stream has been asked; a body that is no stream never is. -/
def polls : Body → Nat
  | streaming s => s.polls
  | _ => 0

end Body

end ServiceCodec
