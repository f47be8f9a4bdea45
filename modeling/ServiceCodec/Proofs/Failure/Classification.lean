import ServiceCodec.Codec.Basic
import ServiceCodec.Proofs.Failure.Code

/-!
# Every failed response becomes one of two failures

A failed response selects a modeled failure when three things come together:
its body is an object, the code that it carries is registered, and the object
binds to a fresh failure of that registration. `FailureDispatch.Selects` says so
in one place, through the object of the body and the code that was sent, neither
of which mentions the order in which a dispatch looks at them.

`dispatch_classifies` is the whole classification. A response that selects a
failure becomes that one, and carries the code; a response that selects none
becomes the fallback, bound to nothing and without a code. Both carry the same
details otherwise, so whatever prevents the modeled failure — no object, no
code, no registration, no binding — leaves no trace in the failure itself.
-/

namespace ServiceCodec

/-- The object in the body, if the body is one. -/
def FailedResponse.object? (r : FailedResponse) : Option JsonObject :=
  match readObject r.body with
  | .ok object => object
  | .error _ => none

/-- What every failure made of the response carries, with `code` as its code. -/
def FailedResponse.details (r : FailedResponse) (messages : MessageReader)
    (label : Option String) (code : Option String) : FailureDetails where
  status := r.status
  headers := r.headers
  rawBody := r.body
  code := code
  message := r.object?.bind messages
  requestId := requestId? r.headers
  serviceName := label

theorem FailureReport.readBody_fst (r : FailedResponse) : (readBody r).1 = r.object? := by
  rw [readBody, FailedResponse.object?, readObject]
  cases h : readDocument r.body with
  | error e => rfl
  | ok document =>
      cases document with
      | none => rfl
      | some v => cases v <;> rfl

theorem FailureReport.details_ofResponse (codes : CodeReader) (messages : MessageReader)
    (r : FailedResponse) (label : Option String) :
    (ofResponse codes messages r).1.details label = r.details messages label none := by
  simp only [ofResponse, details, FailedResponse.details, readBody_fst]

/-- The code in a report is the one that was sent, behind its namespace; there
is none without an object. -/
theorem FailureReport.code_ofResponse_eq_some_iff {codes : CodeReader}
    {messages : MessageReader} {r : FailedResponse} {code : String} :
    (ofResponse codes messages r).1.code = some code ↔
      ∃ object raw, r.object? = some object ∧
        CodeReader.Sent codes.field r.headers object raw ∧ WithoutNamespace raw code := by
  simp only [ofResponse, readBody_fst, Option.bind_eq_some_iff, Option.map_eq_some_iff,
    CodeReader.read_eq_some_iff, normalizeCode_eq_iff]
  constructor
  · rintro ⟨object, hobject, raw, hsent, hcode⟩
    exact ⟨object, raw, hobject, hsent, hcode⟩
  · rintro ⟨object, raw, hobject, hsent, hcode⟩
    exact ⟨object, hobject, raw, hsent, hcode⟩

namespace FailureDispatch

variable {ε : Type}

/-- The response selects the failure that `b` builds, registered under `code`,
and its object leaves a fresh one in state `s`. -/
def Selects (d : FailureDispatch ε) (r : FailedResponse) (code : String)
    (b : FailureBuilder ε) (s : b.State) : Prop :=
  ∃ object raw, r.object? = some object ∧
    CodeReader.Sent d.codes.field r.headers object raw ∧ WithoutNamespace raw code ∧
    d.catalog.find? code = some b ∧ b.bind (.object object) b.initial = (.ok (), s)

/-- The report says the same, with the object that it holds. -/
theorem selects_iff {d : FailureDispatch ε} {r : FailedResponse} {code : String}
    {b : FailureBuilder ε} {s : b.State} :
    d.Selects r code b s ↔
      (FailureReport.ofResponse d.codes d.messages r).1.code = some code ∧
        d.catalog.find? code = some b ∧ bindObject b r.object? = (.ok (), s) := by
  rw [FailureReport.code_ofResponse_eq_some_iff]
  constructor
  · rintro ⟨object, raw, hobject, hsent, hcode, hfind, hbind⟩
    refine ⟨⟨object, raw, hobject, hsent, hcode⟩, hfind, ?_⟩
    rw [hobject]
    exact hbind
  · rintro ⟨⟨object, raw, hobject, hsent, hcode⟩, hfind, hbind⟩
    rw [hobject] at hbind
    exact ⟨object, raw, hobject, hsent, hcode, hfind, hbind⟩

theorem modeled_of_codeless {d : FailureDispatch ε} {report : FailureReport}
    (h : report.code = none) : d.modeled report = (none, []) := by
  rw [modeled, h]

theorem modeled_of_unregistered {d : FailureDispatch ε} {report : FailureReport}
    {code : String} (h : report.code = some code) (hfind : d.catalog.find? code = none) :
    d.modeled report = (none, [.unregistered code report.response.status]) := by
  rw [modeled, h]
  simp only [hfind]

theorem modeled_of_unbound {d : FailureDispatch ε} {report : FailureReport}
    {code : String} {b : FailureBuilder ε} {e : ResponseError} {s : b.State}
    (h : report.code = some code) (hfind : d.catalog.find? code = some b)
    (hbind : bindObject b report.object = (.error e, s)) :
    d.modeled report = (none, [.unbound code e]) := by
  rw [modeled, h]
  simp only [hfind, hbind]

theorem modeled_of_bound {d : FailureDispatch ε} {report : FailureReport}
    {code : String} {b : FailureBuilder ε} {s : b.State}
    (h : report.code = some code) (hfind : d.catalog.find? code = some b)
    (hbind : bindObject b report.object = (.ok (), s)) :
    d.modeled report =
      (some (b.build s { report.details d.serviceName with code := some code }), []) := by
  rw [modeled, h]
  simp only [hfind, hbind]

theorem object_ofResponse (d : FailureDispatch ε) (r : FailedResponse) :
    (FailureReport.ofResponse d.codes d.messages r).1.object = r.object? :=
  FailureReport.readBody_fst r

theorem dispatch_eq_of_modeled {d : FailureDispatch ε} {r : FailedResponse} {e : ε}
    {records : List Record}
    (h : d.modeled (FailureReport.ofResponse d.codes d.messages r).1 = (some e, records)) :
    d.dispatch r = (e, (FailureReport.readBody r).2 ++ records) := by
  simp only [dispatch, dispatchReport, h]
  rfl

theorem dispatch_eq_of_not_modeled {d : FailureDispatch ε} {r : FailedResponse}
    {records : List Record}
    (h : d.modeled (FailureReport.ofResponse d.codes d.messages r).1 = (none, records)) :
    d.dispatch r =
      (d.catalog.fallback.unbound (r.details d.messages d.serviceName none),
        (FailureReport.readBody r).2 ++ records) := by
  simp only [dispatch, dispatchReport, h, FailureReport.details_ofResponse]
  rfl

theorem dispatch_of_modeled {d : FailureDispatch ε} {r : FailedResponse} {e : ε}
    {records : List Record}
    (h : d.modeled (FailureReport.ofResponse d.codes d.messages r).1 = (some e, records)) :
    (d.dispatch r).1 = e := by
  rw [dispatch_eq_of_modeled h]

theorem dispatch_of_not_modeled {d : FailureDispatch ε} {r : FailedResponse}
    {records : List Record}
    (h : d.modeled (FailureReport.ofResponse d.codes d.messages r).1 = (none, records)) :
    (d.dispatch r).1 =
      d.catalog.fallback.unbound (r.details d.messages d.serviceName none) := by
  rw [dispatch_eq_of_not_modeled h]

theorem dispatch_of_selects {d : FailureDispatch ε} {r : FailedResponse} {code : String}
    {b : FailureBuilder ε} {s : b.State} (h : d.Selects r code b s) :
    (d.dispatch r).1 = b.build s (r.details d.messages d.serviceName (some code)) := by
  obtain ⟨hcode, hfind, hbind⟩ := selects_iff.mp h
  rw [← object_ofResponse] at hbind
  rw [dispatch_of_modeled (modeled_of_bound hcode hfind hbind),
    FailureReport.details_ofResponse]
  rfl

theorem dispatch_of_not_selects {d : FailureDispatch ε} {r : FailedResponse}
    (h : ¬ ∃ code b s, d.Selects r code b s) :
    (d.dispatch r).1 =
      d.catalog.fallback.unbound (r.details d.messages d.serviceName none) := by
  cases hcode : (FailureReport.ofResponse d.codes d.messages r).1.code with
  | none => exact dispatch_of_not_modeled (modeled_of_codeless hcode)
  | some code =>
      cases hfind : d.catalog.find? code with
      | none => exact dispatch_of_not_modeled (modeled_of_unregistered hcode hfind)
      | some b =>
          rcases hbind : bindObject b r.object? with ⟨outcome, s⟩
          cases outcome with
          | ok _ => exact absurd ⟨code, b, s, selects_iff.mpr ⟨hcode, hfind, hbind⟩⟩ h
          | error e =>
              rw [← object_ofResponse d r] at hbind
              exact dispatch_of_not_modeled (modeled_of_unbound hcode hfind hbind)

end FailureDispatch

/-- What a codec makes of a failed response, under any label: the failure that
the response selects, bound to its object and with its code, or else the
unbound fallback without one. -/
theorem Codec.dispatch_classifies {ε : Type} (c : Codec ε) (label : Option String)
    (r : FailedResponse) :
    let d : FailureDispatch ε := { c.dispatcher with serviceName := label }
    (∀ code b s, d.Selects r code b s →
        (d.dispatch r).1 = b.build s (r.details c.messages label (some code))) ∧
      ((¬ ∃ code b s, d.Selects r code b s) →
        (d.dispatch r).1 = c.catalog.fallback.unbound (r.details c.messages label none)) :=
  ⟨fun _ _ _ h => FailureDispatch.dispatch_of_selects h,
    fun h => FailureDispatch.dispatch_of_not_selects h⟩

end ServiceCodec
