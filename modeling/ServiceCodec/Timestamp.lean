import ServiceCodec.Json.Decode

/-!
# Timestamps

An instant is a whole number of seconds since the epoch and the nanoseconds
after it; a leap second has up to two thousand million of them, and occurs at
the end of a minute only. On the wire an instant is the number of its seconds,
to the millisecond: writing floors to the millisecond and divides, reading
multiplies and rounds a half away from zero. Both are done in binary64.

The instants range over the years from -262143 to 262142.
-/

namespace ServiceCodec

/-- The first second there is. -/
def Timestamp.minSeconds : Int := -8334601228800

/-- The last second there is. -/
def Timestamp.maxSeconds : Int := 8210266876799

/-- An instant, in UTC. -/
structure Timestamp where
  seconds : Int
  nanos : Nat
  inRange : Timestamp.minSeconds ≤ seconds ∧ seconds ≤ Timestamp.maxSeconds
  /-- Only the last second of a minute can be a leap second. -/
  nanosFit : nanos < 1000000000 ∨ (nanos < 2000000000 ∧ seconds % 60 = 59)
  deriving DecidableEq

namespace Timestamp

def ofParts? (seconds : Int) (nanos : Nat) : Option Timestamp :=
  if h : minSeconds ≤ seconds ∧ seconds ≤ maxSeconds then
    if h' : nanos < 1000000000 ∨ (nanos < 2000000000 ∧ seconds % 60 = 59) then
      some ⟨seconds, nanos, h, h'⟩
    else none
  else none

/-- The instant so many milliseconds from the epoch. -/
def ofMillis? (ms : Int) : Option Timestamp :=
  ofParts? (ms / 1000) ((ms % 1000).toNat * 1000000)

/-- The milliseconds from the epoch, floored. -/
def toMillis (t : Timestamp) : Int := t.seconds * 1000 + (t.nanos / 1000000 : Nat)

/-- The start of 1970. -/
def epoch : Timestamp := ⟨0, 0, by decide, by decide⟩

/-- One thousand, in binary64. -/
def thousand : Binary binary64 := Binary.ofInt binary64 1000

/-- The number of seconds that stands for the instant on the wire. -/
def toSeconds (t : Timestamp) : Binary binary64 :=
  (Binary.ofInt binary64 t.toMillis).div thousand

/-- The instant that a number of seconds stands for: none when the number is
not finite, when it is too great to be multiplied, or when it is out of
range. -/
def ofSeconds? (seconds : Binary binary64) : Option Timestamp :=
  if seconds.isFinite then (seconds.mul thousand).roundAway?.bind ofMillis? else none

/-- The same, with the failure named. -/
def ofSeconds (seconds : Binary binary64) : Except JsonError Timestamp :=
  match ofSeconds? seconds with
  | some t => .ok t
  | none => .error (.timestampOutOfRange seconds)

def decode : Decoder Timestamp := fun v => do ofSeconds (← Decoder.double v)

def encode (t : Timestamp) : Json := Json.ofBinary t.toSeconds

/-- `null` for an absent instant. -/
def decodeOptional : Decoder (Option Timestamp) := Decoder.optional decode

def encodeOptional : Option Timestamp → Json
  | none => .null
  | some t => t.encode

end Timestamp

end ServiceCodec
