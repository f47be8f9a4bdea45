import ServiceCodec.Conformance.Failures
import ServiceCodec.Proofs.Failure.Selection
import ServiceCodec.Response.Handler

/-!
# Outputs and failures are bound alike

A shape can be the output of an operation and a modeled failure of its service.
The one is bound by a response handler and the other by a dispatch, each on a
way of its own; `Codec.payloads_bind_alike` compares the two on the same body,
whatever heads the responses have. The object either binds on both ways, and
leaves the same value of the shape, or on neither, and then the handler fails
because of the document and the dispatch falls back.

Whether a failure was modeled can be read off the failure itself only if the
service keeps it apart from the fallback, which is not the library's business. So
what follows from the failure alone is said for services that do
(`FailureVariant`), and what follows from the output for all.
-/

namespace ServiceCodec

variable {σ ε : Type}

theorem FailedResponse.object?_eq_some_iff {r : FailedResponse} {object : JsonObject} :
    r.object? = some object ↔ readDocument r.body = .ok (some (.object object)) := by
  rw [object?, readObject]
  cases readDocument r.body with
  | error e => simp [bind, Except.bind]
  | ok document =>
      cases document with
      | none => simp [bind, Except.bind, pure, Except.pure]
      | some v =>
          cases v with
          | object es => simp [bind, Except.bind, pure, Except.pure]
          | null | bool value | number value | string value | array elements =>
              simp [bind, Except.bind, throw, throwThe, MonadExceptOf.throw]

/-- A body that is read and holds a document gives what the shape makes of it. -/
theorem ResponseHandler.handle_ofShape (shape : Shape σ) (head : Head) {body : Bytes} {v : Json}
    (h : readDocument body = .ok (some v)) :
    (ResponseHandler.mk false true).handle (.ofShape shape) ⟨head, .ofBytes body⟩ =
      match shape.bind v with
      | .ok s => .ok ⟨s, head, none⟩
      | .error e => .error (.json e) := by
  have hbind : (ResponseHandler.mk false true).bindBody (OutputBuilder.ofShape shape) body =
      OutputBuilder.bindShape shape v := by
    rw [bindBody, if_pos rfl, h]
    rfl
  simp only [handle, handleM, drive, Body.ofBytes, Body.buffered, Option.getD_some, hbind,
    OutputBuilder.bindShape]
  cases shape.bind v <;> rfl

section

variable {shape : Shape σ} {head : Head} {body : Bytes} {v : Json}

theorem ResponseHandler.handle_ofShape_eq_ok_iff (h : readDocument body = .ok (some v)) {s : σ} :
    (ResponseHandler.mk false true).handle (.ofShape shape) ⟨head, .ofBytes body⟩ =
        .ok ⟨s, head, none⟩ ↔ shape.bind v = .ok s := by
  rw [handle_ofShape shape head h]
  cases shape.bind v with
  | ok s' => simp
  | error e => simp

theorem ResponseHandler.handle_ofShape_eq_error_iff (h : readDocument body = .ok (some v))
    {e : JsonError} :
    (ResponseHandler.mk false true).handle (.ofShape shape) ⟨head, .ofBytes body⟩ =
        .error (.json e) ↔ shape.bind v = .error e := by
  rw [handle_ofShape shape head h]
  cases shape.bind v with
  | ok s => simp
  | error e' => simp

end

/-- A failure whose code has a shape is what the shape makes of the object. -/
theorem FailureDispatch.dispatch_ofShape {d : FailureDispatch ε} {shape : Shape σ}
    {wrap : ModeledFailure σ → ε} {r : FailedResponse} {object : JsonObject} {code : String}
    (hnames : r.Names d.codes.field object code)
    (hfind : d.catalog.find? code = some (.ofShape shape wrap)) :
    (d.dispatch r).1 =
      match shape.bind (.object object) with
      | .ok s => wrap ⟨s, r.details d.messages d.serviceName (some code)⟩
      | .error _ => d.catalog.fallback.unbound (r.details d.messages d.serviceName none) := by
  have hrebind : (FailureBuilder.ofShape shape wrap).bind (.object object) shape.blank =
      FailureBuilder.rebind shape (.object object) shape.blank := rfl
  rw [FailureBuilder.rebind] at hrebind
  cases hbind : shape.bind (.object object) with
  | ok s =>
      rw [hbind] at hrebind
      exact dispatch_of_bound hnames hfind hrebind
  | error e =>
      rw [hbind] at hrebind
      exact dispatch_of_unbound hnames hfind hrebind

/-- Failures that `wrap` makes are a variant of their own: the modeled failure can
be read off them, and off the fallback there is none to be read. -/
structure FailureVariant (wrap : ModeledFailure σ → ε) (fallback : FailureBuilder ε) where
  modeled? : ε → Option (ModeledFailure σ)
  modeled?_wrap : ∀ failure, modeled? (wrap failure) = some failure
  modeled?_unbound : ∀ details, modeled? (fallback.unbound details) = none

namespace FailureVariant

variable {wrap : ModeledFailure σ → ε} {fallback : FailureBuilder ε}

theorem wrap_ne_unbound (variant : FailureVariant wrap fallback) (failure : ModeledFailure σ)
    (details : FailureDetails) : wrap failure ≠ fallback.unbound details := by
  intro heq
  have hnone := congrArg variant.modeled? heq
  rw [variant.modeled?_wrap, variant.modeled?_unbound] at hnone
  cases hnone

variable {d : FailureDispatch ε} {shape : Shape σ} {r : FailedResponse} {object : JsonObject}
  {code : String}

theorem modeled?_dispatch_iff (variant : FailureVariant wrap d.catalog.fallback)
    (hnames : r.Names d.codes.field object code)
    (hfind : d.catalog.find? code = some (.ofShape shape wrap)) {s : σ} :
    (∃ m, variant.modeled? (d.dispatch r).1 = some m ∧ m.shape = s ∧ m.details.code = some code) ↔
      shape.bind (.object object) = .ok s := by
  rw [FailureDispatch.dispatch_ofShape hnames hfind]
  cases shape.bind (.object object) with
  | ok s' =>
      simp only [variant.modeled?_wrap]
      constructor
      · intro ⟨m, hm, hshape, _⟩
        cases hm
        rw [← hshape]
      · intro heq
        cases heq
        exact ⟨_, rfl, rfl, rfl⟩
  | error e => simp [variant.modeled?_unbound]

theorem dispatch_eq_fallback_iff (variant : FailureVariant wrap d.catalog.fallback)
    (hnames : r.Names d.codes.field object code)
    (hfind : d.catalog.find? code = some (.ofShape shape wrap)) :
    (d.dispatch r).1 = d.catalog.fallback.unbound (r.details d.messages d.serviceName none) ↔
      ∃ e, shape.bind (.object object) = .error e := by
  rw [FailureDispatch.dispatch_ofShape hnames hfind]
  cases shape.bind (.object object) with
  | ok s => simp [variant.wrap_ne_unbound]
  | error e => simp

end FailureVariant

/-- A shape that is registered under the code of a response is bound to its object
as it is bound to the same body of an output. -/
theorem Codec.payloads_bind_alike (c : Codec ε) (label : Option String) (shape : Shape σ)
    (wrap : ModeledFailure σ → ε) (code : String) (r : FailedResponse) (object : JsonObject)
    (head : Head) (hfind : c.catalog.find? code = some (.ofShape shape wrap))
    (hnames : r.Names c.codes.field object code) :
    let output :=
      (ResponseHandler.mk false true).handle (.ofShape shape) ⟨head, .ofBytes r.body⟩
    let failure := (FailureDispatch.dispatch { c.dispatcher with serviceName := label } r).1
    let fallback := c.catalog.fallback.unbound (r.details c.messages label none)
    ((∃ s, output = .ok ⟨s, head, none⟩) ∨ ∃ e, output = .error (.json e)) ∧
      (∀ s, output = .ok ⟨s, head, none⟩ →
        failure = wrap ⟨s, r.details c.messages label (some code)⟩) ∧
      (∀ e, output = .error (.json e) → failure = fallback) ∧
      ∀ variant : FailureVariant wrap c.catalog.fallback,
        (∀ s, output = .ok ⟨s, head, none⟩ ↔
          ∃ m, variant.modeled? failure = some m ∧ m.shape = s ∧ m.details.code = some code) ∧
        ((∃ e, output = .error (.json e)) ↔ failure = fallback) := by
  intro output failure fallback
  have hread := FailedResponse.object?_eq_some_iff.mp hnames.body
  have hoks (s : σ) : output = .ok ⟨s, head, none⟩ ↔ shape.bind (.object object) = .ok s :=
    ResponseHandler.handle_ofShape_eq_ok_iff hread
  have herrors (e : JsonError) :
      output = .error (.json e) ↔ shape.bind (.object object) = .error e :=
    ResponseHandler.handle_ofShape_eq_error_iff hread
  have hdispatch := FailureDispatch.dispatch_ofShape
    (d := { c.dispatcher with serviceName := label }) hnames hfind
  refine ⟨?_, ?_, ?_, fun variant => ⟨fun s => ?_, ?_⟩⟩
  · cases hbind : shape.bind (.object object) with
    | ok s => exact .inl ⟨s, (hoks s).mpr hbind⟩
    | error e => exact .inr ⟨e, (herrors e).mpr hbind⟩
  · intro s houtput
    rw [(hoks s).mp houtput] at hdispatch
    exact hdispatch
  · intro e houtput
    rw [(herrors e).mp houtput] at hdispatch
    exact hdispatch
  · exact (hoks s).trans (variant.modeled?_dispatch_iff
      (d := { c.dispatcher with serviceName := label }) hnames hfind).symm
  · exact (exists_congr herrors).trans (variant.dispatch_eq_fallback_iff
      (d := { c.dispatcher with serviceName := label }) hnames hfind).symm

/-- Failures of the strict shape under a tag are none of the plain ones. -/
def Conformance.strictVariant (tag tag' : String) :
    FailureVariant (Conformance.Failure.strict tag) (.plain (Conformance.Failure.plain tag')) where
  modeled? := fun
    | .strict tag' failure => if tag' = tag then some failure else none
    | _ => none
  modeled?_wrap _ := if_pos rfl
  modeled?_unbound _ := rfl

theorem Codec.payloads_bind_alike_by_header :
    ∃ (c : Codec Conformance.Failure) (r : FailedResponse) (s : Conformance.Strict)
      (m : ModeledFailure Conformance.Strict),
      (CodecDraft.ofSettings [.fallback (.plain (.plain "base")),
          .modeled "Limit" (.ofShape Conformance.Strict.shape (.strict "t"))]).build = .ok c ∧
        r.headers.firstText? .errorType = some "ns#Limit:http://host/" ∧
        r.body = bytesOf
          "\x7b\"__type\":\"Other\",\"Name\":\"n\",\"Count\":7,\"At\":1.5,\"Data\":\"AAE=\"\x7d" ∧
        (ResponseHandler.mk false true).handle (.ofShape Conformance.Strict.shape)
            ⟨⟨.ok, ∅⟩, .ofBytes r.body⟩ = .ok ⟨s, ⟨.ok, ∅⟩, none⟩ ∧
        (Conformance.strictVariant "t" "base").modeled?
            (FailureDispatch.dispatch { c.dispatcher with serviceName := none } r).1 = some m ∧
        m.shape = s ∧ s.count = 7 ∧ s.data = [0, 1] := by
  obtain ⟨c, r, hbuild, hheader, hbody, hfind, hfallback, hcode, houtput⟩ :
      ∃ (c : Codec Conformance.Failure) (r : FailedResponse),
        (CodecDraft.ofSettings [.fallback (.plain (.plain "base")),
          .modeled "Limit" (.ofShape Conformance.Strict.shape (.strict "t"))]).build = .ok c ∧
        r.headers.firstText? .errorType = some "ns#Limit:http://host/" ∧
        r.body = bytesOf
          "\x7b\"__type\":\"Other\",\"Name\":\"n\",\"Count\":7,\"At\":1.5,\"Data\":\"AAE=\"\x7d" ∧
        c.catalog.find? "Limit" = some (.ofShape Conformance.Strict.shape (.strict "t")) ∧
        c.catalog.fallback = .plain (.plain "base") ∧
        (FailureReport.ofResponse c.codes c.messages r).1.code = some "Limit" ∧
        ((ResponseHandler.mk false true).handle (.ofShape Conformance.Strict.shape)
            ⟨⟨.ok, ∅⟩, .ofBytes r.body⟩).toOption.map
          (fun received => (received.result.count, received.result.data)) = some (7, [0, 1]) :=
    ⟨_, ⟨⟨⟨400, by decide⟩, .ofList [("x-amzn-errortype",
        [⟨bytesOf "ns#Limit:http://host/", by decide +kernel⟩])]⟩, _⟩,
      rfl, by decide +kernel, rfl, rfl, rfl, by decide +kernel, by decide +kernel⟩
  obtain ⟨object, hnames⟩ := (FailedResponse.exists_names_iff c.messages).mpr hcode
  obtain ⟨hends, -, -, hvariant⟩ := payloads_bind_alike c none Conformance.Strict.shape
    (.strict "t") "Limit" r object ⟨.ok, ∅⟩ hfind hnames
  rw [hfallback] at hvariant
  cases hends with
  | inl hok =>
      obtain ⟨s, hok⟩ := hok
      rw [hok] at houtput
      have hread : (s.count, s.data) = (7, [0, 1]) := Option.some.inj houtput
      obtain ⟨m, hm, hshape, -⟩ :=
        ((hvariant (Conformance.strictVariant "t" "base")).1 s).mp hok
      exact ⟨c, r, s, m, hbuild, hheader, hbody, hok, hm, hshape, congrArg Prod.fst hread,
        congrArg Prod.snd hread⟩
  | inr herror =>
      obtain ⟨e, herror⟩ := herror
      rw [herror] at houtput
      cases houtput

end ServiceCodec
