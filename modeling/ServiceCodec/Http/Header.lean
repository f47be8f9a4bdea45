import ServiceCodec.Bytes
import ServiceCodec.Dictionary

/-!
# Headers

A header name is a token; letter case does not tell names apart, so a name is
kept in lower case. A name can have several values, which keep their order. A
value is a run of bytes without control characters other than the tab; it can be
read as text when it is ASCII, and only then.
-/

namespace ServiceCodec

/-- A header name, in lower case. -/
structure HeaderName where
  text : String
  deriving DecidableEq

namespace HeaderName

/-- The characters of a token. -/
def isTokenChar (c : Char) : Bool :=
  c.isAlphanum || "!#$%&'*+-.^_`|~".toList.contains c

/-- The longest name. -/
def sizeLimit : Nat := 65535

/-- What is wrong with a text that is no name. -/
def fault : String := "invalid HTTP header name"

/-- The name that a text spells in any letter case. -/
def ofText? (text : String) : Option HeaderName :=
  let cs := text.toList
  if !cs.isEmpty && cs.length ≤ sizeLimit && cs.all isTokenChar then
    some ⟨String.ofList (cs.map Char.toLower)⟩
  else none

def contentType : HeaderName := ⟨"content-type"⟩

def contentLength : HeaderName := ⟨"content-length"⟩

/-- Carries the operation that a call is for. -/
def target : HeaderName := ⟨"x-amz-target"⟩

/-- Carries the code of an error. -/
def errorType : HeaderName := ⟨"x-amzn-errortype"⟩

/-- Carry the identifier of a request; the first has precedence. -/
def requestIds : List HeaderName := [⟨"x-amzn-requestid"⟩, ⟨"x-amz-request-id"⟩]

end HeaderName

/-- One value of a header. -/
structure HeaderValue where
  bytes : Bytes
  valid : (bytes.all fun b => (0x20 ≤ b && b ≠ 0x7f) || b = 0x09) = true
  deriving DecidableEq

namespace HeaderValue

/-- What is wrong with bytes that are no value. -/
def fault : String := "failed to parse header value"

def ofBytes? (bytes : Bytes) : Option HeaderValue :=
  if h : (bytes.all fun b => (0x20 ≤ b && b ≠ 0x7f) || b = 0x09) = true then some ⟨bytes, h⟩
  else none

def ofText? (text : String) : Option HeaderValue := ofBytes? (bytesOf text)

/-- The bytes of values that are text. -/
def isTextByte (b : UInt8) : Bool := (0x20 ≤ b && b ≤ 0x7e) || b = 0x09

/-- The value as text, if it is all ASCII. -/
def text? (v : HeaderValue) : Option String :=
  if v.bytes.all isTextByte then
    some (String.ofList (v.bytes.map fun b => Char.ofNat b.toNat))
  else none

/-- The bytes of the decimal digits are 48 to 57. -/
theorem digit_valid : ∀ k < 10, ((0x20 ≤ UInt8.ofNat (48 + k) && UInt8.ofNat (48 + k) ≠ 0x7f) ||
    UInt8.ofNat (48 + k) = 0x09) = true := by decide

/-- A number in decimal digits. -/
def ofNat (n : Nat) : HeaderValue where
  bytes := (Nat.toDigits 10 n).map fun c => UInt8.ofNat c.toNat
  valid := by
    rw [List.all_map, List.all_eq_true]
    intro c hc
    have h := Nat.isDigit_of_mem_toDigits (by decide) (by decide) hc
    rw [Char.isDigit, Bool.and_eq_true, decide_eq_true_eq, decide_eq_true_eq] at h
    have hlo : 48 ≤ c.toNat := h.1
    have hhi : c.toNat ≤ 57 := h.2
    have hk := digit_valid (c.toNat - 48) (by omega)
    rwa [show 48 + (c.toNat - 48) = c.toNat by omega] at hk

end HeaderValue

/-- The headers of a message: the values of each name in their order. -/
abbrev Headers := Dictionary (List HeaderValue)

namespace Headers

def values (h : Headers) (name : HeaderName) : List HeaderValue := (h.find? name.text).getD []

def first? (h : Headers) (name : HeaderName) : Option HeaderValue := (h.values name).head?

/-- The first value under a name, if it is text. -/
def firstText? (h : Headers) (name : HeaderName) : Option String :=
  (h.first? name).bind (·.text?)

def has (h : Headers) (name : HeaderName) : Bool := (h.first? name).isSome

/-- Makes `value` the only one under a name. -/
def set (h : Headers) (name : HeaderName) (value : HeaderValue) : Headers :=
  h.insert name.text [value]

/-- Makes `value` the only one under a name that has none. -/
def setDefault (h : Headers) (name : HeaderName) (value : HeaderValue) : Headers :=
  if h.has name then h else h.set name value

/-- Puts `value` behind those that a name has. -/
def append (h : Headers) (name : HeaderName) (value : HeaderValue) : Headers :=
  h.insert name.text (h.values name ++ [value])

end Headers

end ServiceCodec
