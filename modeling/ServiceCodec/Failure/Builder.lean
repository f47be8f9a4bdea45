import ServiceCodec.Failure.Details
import ServiceCodec.Json.Shape
import ServiceCodec.Response.Error

/-!
# Failures under construction

A failure is built from a document, which may be bound to it, and from its
details, which finish it. Every failure is built afresh: a builder is a
description, and what one failure stores on the way is seen by no other.
-/

namespace ServiceCodec

/-- Builds failures `ε` over states of its own. -/
structure FailureBuilder (ε : Type) where
  State : Type
  initial : State
  /-- Takes the document. What is stored before a failure stays stored. -/
  bind : Json → State → Except ResponseError Unit × State
  build : State → FailureDetails → ε

namespace FailureBuilder

variable {ε : Type}

/-- Replaces the state by what a shape binds; a failure leaves it as it was. -/
def rebind {σ : Type} (s : Shape σ) (v : Json) (old : σ) : Except ResponseError Unit × σ :=
  match s.bind v with
  | .ok x => (.ok (), x)
  | .error e => (.error (.json e), old)

/-- Builds a modeled failure of a shape, as `wrap` makes one an `ε`. -/
def ofShape {σ : Type} (s : Shape σ) (wrap : ModeledFailure σ → ε) : FailureBuilder ε where
  State := σ
  initial := s.blank
  bind := rebind s
  build x details := wrap ⟨x, details⟩

/-- Builds a failure without a shape, as `wrap` makes one an `ε`. -/
def plain (wrap : PlainFailure → ε) : FailureBuilder ε where
  State := Unit
  initial := ()
  bind _ s := (.ok (), s)
  build _ details := wrap ⟨details⟩

/-- The failure with nothing bound to it. -/
def unbound (b : FailureBuilder ε) (details : FailureDetails) : ε := b.build b.initial details

end FailureBuilder

/-- The failures that a service models, each under its code, and what every
other failure becomes. -/
structure FailureCatalog (ε : Type) where
  modeled : Dictionary (FailureBuilder ε)
  fallback : FailureBuilder ε

namespace FailureCatalog

variable {ε : Type}

def find? (c : FailureCatalog ε) (code : String) : Option (FailureBuilder ε) :=
  c.modeled.find? code

def contains (c : FailureCatalog ε) (code : String) : Bool := (c.find? code).isSome

def codes (c : FailureCatalog ε) : List String := c.modeled.keys

end FailureCatalog

end ServiceCodec
