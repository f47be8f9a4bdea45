import ServiceCodec.Failure.Builder
import ServiceCodec.Failure.Report

/-!
# Dispatching failed responses

Every failed response becomes one failure. If its code is registered and the
document binds to what is registered, the failure is the modeled one and carries
the code. In every other case it is the fallback, with nothing bound to it and
no code. The service's name labels both.
-/

namespace ServiceCodec

/-- Turns failed responses into failures `ε`. -/
structure FailureDispatch (ε : Type) where
  catalog : FailureCatalog ε
  codes : CodeReader
  messages : MessageReader
  serviceName : Option String := none

namespace FailureDispatch

variable {ε : Type}

/-- The same dispatch with its failures labelled. -/
def labelled (d : FailureDispatch ε) (serviceName : String) : FailureDispatch ε :=
  { d with serviceName := some serviceName }

/-- Binds the object, if there is one, to a fresh failure. -/
def bindObject (b : FailureBuilder ε) (object : Option JsonObject) :
    Except ResponseError Unit × b.State :=
  match object with
  | some es => b.bind (.object es) b.initial
  | none => (.ok (), b.initial)

/-- The modeled failure that the report selects; what prevents it, otherwise. -/
def modeled (d : FailureDispatch ε) (r : FailureReport) : Option ε × List Record :=
  match r.code with
  | none => (none, [])
  | some code =>
      match d.catalog.find? code with
      | none => (none, [.unregistered code r.response.status])
      | some b =>
          match bindObject b r.object with
          | (.ok (), s) =>
              (some (b.build s { r.details d.serviceName with code := some code }), [])
          | (.error e, _) => (none, [.unbound code e])

/-- The failure that a report describes. -/
def dispatchReport (d : FailureDispatch ε) (r : FailureReport) : ε × List Record :=
  match d.modeled r with
  | (some e, records) => (e, records)
  | (none, records) => (d.catalog.fallback.unbound (r.details d.serviceName), records)

/-- The failure that a response stands for. -/
def dispatch (d : FailureDispatch ε) (r : FailedResponse) : ε × List Record :=
  let (report, records) := FailureReport.ofResponse d.codes d.messages r
  let (e, more) := d.dispatchReport report
  (e, records ++ more)

end FailureDispatch

end ServiceCodec
