import Mathlib.Data.List.Find
import ServiceCodec.Proofs.Json.Document
import ServiceCodec.Proofs.Response.Payload

/-!
# Members that the document leaves out

A builder begins with the blank value of its shape and replaces it by what the
shape makes of the document. So what becomes of members that the document does
not have is the business of the shape. A record whose fields are all optional,
and are filled from the blank value, is left blank by an object that names none
of them; it is then the same value that an empty body leaves. One required field
is enough to prevent this. Such an object fails to bind, although an empty body
does not, and a failure that is sent with its code and nothing else is reported
as the fallback.
-/

namespace ServiceCodec

variable {σ ε : Type}

namespace Fields

variable {fields : List (Field σ)} {es : JsonObject}

theorem storeMembers_of_absent (habsent : ∀ f ∈ fields, es.find? f.name = none) (s : σ) :
    storeMembers fields s es = .ok s := by
  induction es with
  | nil => rfl
  | cons e rest ih =>
      obtain ⟨key, v⟩ := e
      have hkey : (fields.find? fun f => f.name = key) = none := by
        rw [List.find?_eq_none]
        intro f hf hname
        have hfind := habsent f hf
        rw [Entries.find?, if_pos (of_decide_eq_true hname)] at hfind
        cases hfind
      have hrest : ∀ f ∈ fields, Entries.find? f.name rest = none := by
        intro f hf
        have hfind := habsent f hf
        rw [Entries.find?] at hfind
        split at hfind
        · cases hfind
        · exact hfind
      rw [storeMembers, hkey]
      exact ih hrest

theorem firstMissing?_of_absent (habsent : ∀ f ∈ fields, es.find? f.name = none) :
    firstMissing? fields es = fields.find? (·.required) := by
  rw [firstMissing?]
  apply List.find?_congr
  intro f hf
  rw [habsent f hf, Option.isNone_none, Bool.and_true]

theorem bindObject_of_absent (habsent : ∀ f ∈ fields, es.find? f.name = none) (start : σ) :
    bindObject fields start es =
      match fields.find? (·.required) with
      | some f => .error (.missingField f.name)
      | none => .ok start := by
  rw [bindObject, storeMembers_of_absent habsent, firstMissing?_of_absent habsent]
  rfl

end Fields

/-- The shape fills `fields` from the object, from `start` on, and the object names none of them. -/
structure Shape.Omits (shape : Shape σ) (fields : List (Field σ)) (start : σ)
    (object : JsonObject) : Prop where
  bind : shape.bind (.object object) = Fields.bindObject fields start object
  absent : ∀ f ∈ fields, object.find? f.name = none

namespace Shape.Omits

variable {shape : Shape σ} {fields : List (Field σ)} {start : σ} {object : JsonObject}

theorem bind_eq_error {f : Field σ} (h : shape.Omits fields start object)
    (hf : fields.find? (·.required) = some f) :
    shape.bind (.object object) = .error (.missingField f.name) := by
  rw [h.bind, Fields.bindObject_of_absent h.absent, hf]

theorem bind_eq_blank_iff (h : shape.Omits fields start object) :
    shape.bind (.object object) = .ok shape.blank ↔
      start = shape.blank ∧ ∀ f ∈ fields, f.required = false := by
  cases hf : fields.find? (·.required) with
  | some f =>
      rw [h.bind_eq_error hf]
      constructor
      · intro herror
        cases herror
      · intro ⟨_, hoptional⟩
        have hrequired := List.find?_some hf
        rw [hoptional f (List.mem_of_find?_eq_some hf)] at hrequired
        cases hrequired
  | none =>
      have hoptional : ∀ f ∈ fields, f.required = false := fun f hmem =>
        eq_false_of_ne_true (List.find?_eq_none.mp hf f hmem)
      rw [h.bind, Fields.bindObject_of_absent h.absent, hf, Except.ok.injEq]
      exact (and_iff_left hoptional).symm

end Shape.Omits

theorem ResponseHandler.handle_ofShape_nil (shape : Shape σ) (head : Head) :
    (ResponseHandler.mk false true).handle (.ofShape shape) ⟨head, .ofBytes []⟩ =
      .ok ⟨shape.blank, head, none⟩ := rfl

/-- An object that names no member of a shape leaves it blank, in an output as in a failure,
exactly if the shape binds the object to its blank value. A record does so exactly if it has no
required field. -/
theorem Codec.defaults_survive_iff (c : Codec ε) (label : Option String) (shape : Shape σ)
    (wrap : ModeledFailure σ → ε) (code : String) (r : FailedResponse) (object : JsonObject)
    (head : Head) (body : Bytes) (hfind : c.catalog.find? code = some (.ofShape shape wrap))
    (hnames : r.Names c.codes.field object code)
    (hread : readDocument body = .ok (some (.object object))) :
    let output (body : Bytes) :=
      (ResponseHandler.mk false true).handle (.ofShape shape) ⟨head, .ofBytes body⟩
    let failure := (FailureDispatch.dispatch { c.dispatcher with serviceName := label } r).1
    let fallback := c.catalog.fallback.unbound (r.details c.messages label none)
    let blank := shape.bind (.object object) = .ok shape.blank
    output [] = .ok ⟨shape.blank, head, none⟩ ∧
      (output body = output [] ↔ blank) ∧
      (blank → failure = wrap ⟨shape.blank, r.details c.messages label (some code)⟩) ∧
      (∀ variant : FailureVariant wrap c.catalog.fallback,
        (∃ m, variant.modeled? failure = some m ∧ m.shape = shape.blank ∧
          m.details.code = some code) ↔ blank) ∧
      ∀ fields start, shape.Omits fields start object →
        (blank ↔ start = shape.blank ∧ ∀ f ∈ fields, f.required = false) ∧
        ∀ f, fields.find? (·.required) = some f →
          output body = .error (.json (.missingField f.name)) ∧ failure = fallback := by
  intro output failure fallback blank
  have hdispatch := FailureDispatch.dispatch_ofShape
    (d := { c.dispatcher with serviceName := label }) hnames hfind
  refine ⟨ResponseHandler.handle_ofShape_nil shape head, ?_, ?_, fun variant => ?_,
    fun fields start homits => ⟨homits.bind_eq_blank_iff, fun f hf => ⟨?_, ?_⟩⟩⟩
  · exact ResponseHandler.handle_ofShape_eq_ok_iff hread
  · intro hblank
    rw [hblank] at hdispatch
    exact hdispatch
  · exact variant.modeled?_dispatch_iff
      (d := { c.dispatcher with serviceName := label }) hnames hfind
  · exact (ResponseHandler.handle_ofShape_eq_error_iff hread).mpr (homits.bind_eq_error hf)
  · rw [homits.bind_eq_error hf] at hdispatch
    exact hdispatch

/-! ## A code and nothing else -/

/-- The object that holds a code and nothing else. -/
def codeOnly (code : String) : JsonObject := [(defaultCodeField, .string code)]

/-- A failed response that has a code and nothing else. -/
def FailedResponse.ofCode (status : StatusCode) (code : String) : FailedResponse :=
  ⟨⟨status, ∅⟩, (Json.object (codeOnly code)).toBody⟩

theorem readDocument_codeOnly (code : String) :
    readDocument (Json.object (codeOnly code)).toBody = .ok (some (.object (codeOnly code))) := by
  have hcanonical : (Json.object (codeOnly code)).Canonical :=
    ⟨List.pairwise_singleton _ _, trivial, trivial⟩
  rw [readDocument, Json.ofBody_toBody hcanonical ⟨trivial, trivial⟩ (by decide : 1 ≤ 127)]
  rfl

theorem FailedResponse.names_ofCode (status : StatusCode) {code : String} (hne : code ≠ "")
    (hbare : '#' ∉ code.toList) :
    (ofCode status code).Names defaultCodeField (codeOnly code) code where
  body := object?_eq_some_iff.mpr (readDocument_codeOnly code)
  sent := by
    refine ⟨code, .body (fun c hheader => ?_) rfl hne, hbare, .inl rfl⟩
    obtain ⟨value, hvalue, -⟩ := hheader
    cases hvalue

/-- `AllTypes` has no required members. -/
theorem Codec.defaults_survive_of_optional :
    ∃ (c : Codec Conformance.Failure) (r : FailedResponse),
      (CodecDraft.ofSettings [.fallback (.plain (.plain "base")),
          .modeled "Limit" (.ofShape Conformance.AllTypes.shape (.allTypes "t"))]).build = .ok c ∧
        r.body = bytesOf "\x7b\"__type\":\"Limit\"\x7d" ∧
        (FailureDispatch.dispatch { c.dispatcher with serviceName := none } r).1 =
          .allTypes "t" ⟨{}, r.details c.messages none (some "Limit")⟩ ∧
        (ResponseHandler.mk false true).handle (.ofShape Conformance.AllTypes.shape)
            ⟨⟨.ok, ∅⟩, .ofBytes r.body⟩ = .ok ⟨{}, ⟨.ok, ∅⟩, none⟩ := by
  obtain ⟨c, hbuild, hfind, hfield⟩ : ∃ c : Codec Conformance.Failure,
      (CodecDraft.ofSettings [.fallback (.plain (.plain "base")),
        .modeled "Limit" (.ofShape Conformance.AllTypes.shape (.allTypes "t"))]).build = .ok c ∧
      c.catalog.find? "Limit" = some (.ofShape Conformance.AllTypes.shape (.allTypes "t")) ∧
      c.codes.field = defaultCodeField := ⟨_, rfl, rfl, rfl⟩
  have hnames : (FailedResponse.ofCode ⟨400, by decide⟩ "Limit").Names c.codes.field
      (codeOnly "Limit") "Limit" :=
    hfield ▸ FailedResponse.names_ofCode _ (by decide) (by decide)
  obtain ⟨hnil, houtput, hfailure, -, hfields⟩ := Codec.defaults_survive_iff c none
    Conformance.AllTypes.shape (.allTypes "t") "Limit" _ _ ⟨.ok, ∅⟩ _ hfind hnames
    (readDocument_codeOnly "Limit")
  have homits : Conformance.AllTypes.shape.Omits
      (Conformance.AllTypes.fields (Conformance.AllTypes.bindWithin 1)) {} (codeOnly "Limit") :=
    ⟨rfl, by decide⟩
  have hblank := (hfields _ _ homits).1.mpr ⟨rfl, by decide⟩
  exact ⟨c, _, hbuild, by decide +kernel, hfailure hblank, (houtput.mpr hblank).trans hnil⟩

/-- `Strict` has required members. -/
theorem Codec.defaults_lost_by_required :
    ∃ (c : Codec Conformance.Failure) (r : FailedResponse),
      (CodecDraft.ofSettings [.fallback (.plain (.plain "base")),
          .modeled "Limit" (.ofShape Conformance.Strict.shape (.strict "t"))]).build = .ok c ∧
        r.body = bytesOf "\x7b\"__type\":\"Limit\"\x7d" ∧
        r.Names c.codes.field [("__type", .string "Limit")] "Limit" ∧
        (FailureDispatch.dispatch { c.dispatcher with serviceName := none } r).1 =
          .plain "base" ⟨r.details c.messages none none⟩ ∧
        (ResponseHandler.mk false true).handle (.ofShape Conformance.Strict.shape)
            ⟨⟨.ok, ∅⟩, .ofBytes r.body⟩ = .error (.json (.missingField "Name")) ∧
        (ResponseHandler.mk false true).handle (.ofShape Conformance.Strict.shape)
            ⟨⟨.ok, ∅⟩, .ofBytes []⟩ = .ok ⟨{}, ⟨.ok, ∅⟩, none⟩ := by
  obtain ⟨c, hbuild, hfind, hfallback, hfield⟩ : ∃ c : Codec Conformance.Failure,
      (CodecDraft.ofSettings [.fallback (.plain (.plain "base")),
        .modeled "Limit" (.ofShape Conformance.Strict.shape (.strict "t"))]).build = .ok c ∧
      c.catalog.find? "Limit" = some (.ofShape Conformance.Strict.shape (.strict "t")) ∧
      c.catalog.fallback = .plain (.plain "base") ∧
      c.codes.field = defaultCodeField := ⟨_, rfl, rfl, rfl, rfl⟩
  have hnames : (FailedResponse.ofCode ⟨400, by decide⟩ "Limit").Names c.codes.field
      (codeOnly "Limit") "Limit" :=
    hfield ▸ FailedResponse.names_ofCode _ (by decide) (by decide)
  have hbind : Conformance.Strict.shape.bind (.object (codeOnly "Limit")) =
      .error (.missingField "Name") := rfl
  have hdispatch := FailureDispatch.dispatch_ofShape
    (d := { c.dispatcher with serviceName := none }) hnames hfind
  have hfallback' : (FailureDispatch.catalog { c.dispatcher with serviceName := none }).fallback =
      .plain (.plain "base") := hfallback
  rw [hbind, hfallback'] at hdispatch
  exact ⟨c, _, hbuild, by decide +kernel, hnames, hdispatch,
    (ResponseHandler.handle_ofShape_eq_error_iff (readDocument_codeOnly "Limit")).mpr hbind, rfl⟩

end ServiceCodec
