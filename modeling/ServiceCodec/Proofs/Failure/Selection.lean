import ServiceCodec.Proofs.Failure.Classification

/-!
# What the code of a response selects

A failed response names its failure when it has an object for a body and carries
a code. It then names it once and for all: the object and the code without its
namespace are functions of the response (`FailedResponse.Names.unique`). So what
a dispatch makes of it depends on the one registration under that code, and
there are three cases. The registration binds, and the failure is the modeled
one; it does not bind; there is none. In the last two the failure is the
fallback, and nothing in it tells them apart.
-/

namespace ServiceCodec

/-- The response has `object` for a body and carries `code`, perhaps behind a
namespace. -/
structure FailedResponse.Names (r : FailedResponse) (field : String) (object : JsonObject)
    (code : String) : Prop where
  body : r.object? = some object
  sent : ∃ raw, CodeReader.Sent field r.headers object raw ∧ WithoutNamespace raw code

namespace FailedResponse

variable {r : FailedResponse} {field code code' : String} {object object' : JsonObject}

theorem exists_names_iff (messages : MessageReader) :
    (∃ object, r.Names field object code) ↔
      (FailureReport.ofResponse ⟨field⟩ messages r).1.code = some code := by
  rw [FailureReport.code_ofResponse_eq_some_iff]
  constructor
  · intro ⟨object, hbody, raw, hsent, hcode⟩
    exact ⟨object, raw, hbody, hsent, hcode⟩
  · intro ⟨object, raw, hbody, hsent, hcode⟩
    exact ⟨object, hbody, raw, hsent, hcode⟩

theorem Names.unique (h : r.Names field object code) (h' : r.Names field object' code') :
    object = object' ∧ code = code' := by
  -- The code of a report does not depend on the reader of messages, so any will do.
  have hcode := (exists_names_iff fun _ => none).mp ⟨object, h⟩
  have hcode' := (exists_names_iff fun _ => none).mp ⟨object', h'⟩
  exact ⟨Option.some_inj.mp (h.body.symm.trans h'.body),
    Option.some_inj.mp (hcode.symm.trans hcode')⟩

end FailedResponse

theorem FailureReport.readBody_of_object {r : FailedResponse} {object : JsonObject}
    (h : r.object? = some object) : readBody r = (some object, []) := by
  have hfst := readBody_fst r
  rw [h] at hfst
  rw [readBody] at hfst ⊢
  split at hfst
  · next es hdocument =>
      obtain rfl := Option.some_inj.mp hfst
      rfl
  · cases hfst
  · cases hfst
  · cases hfst

namespace FailureDispatch

variable {ε : Type} {d : FailureDispatch ε} {r : FailedResponse} {object : JsonObject}
  {code : String} {b : FailureBuilder ε}

/-- What a response becomes that selects no modeled failure. -/
def fallbackFor (d : FailureDispatch ε) (r : FailedResponse) : ε :=
  d.catalog.fallback.unbound (r.details d.messages d.serviceName none)

theorem selects_iff_names {s : b.State} :
    d.Selects r code b s ↔ ∃ object, r.Names d.codes.field object code ∧
      d.catalog.find? code = some b ∧ b.bind (.object object) b.initial = (.ok (), s) := by
  constructor
  · intro ⟨object, raw, hbody, hsent, hcode, hfind, hbind⟩
    exact ⟨object, ⟨hbody, raw, hsent, hcode⟩, hfind, hbind⟩
  · intro ⟨object, ⟨hbody, raw, hsent, hcode⟩, hfind, hbind⟩
    exact ⟨object, raw, hbody, hsent, hcode, hfind, hbind⟩

theorem code_of_names (hnames : r.Names d.codes.field object code) :
    (FailureReport.ofResponse d.codes d.messages r).1.code = some code :=
  (FailedResponse.exists_names_iff d.messages).mp ⟨object, hnames⟩

theorem bindObject_of_names (b : FailureBuilder ε) (hnames : r.Names d.codes.field object code) :
    bindObject b (FailureReport.ofResponse d.codes d.messages r).1.object =
      b.bind (.object object) b.initial := by
  rw [object_ofResponse, hnames.body, bindObject]

theorem dispatch_eq_of_bound {s : b.State} (hnames : r.Names d.codes.field object code)
    (hfind : d.catalog.find? code = some b)
    (hbind : b.bind (.object object) b.initial = (.ok (), s)) :
    d.dispatch r = (b.build s (r.details d.messages d.serviceName (some code)), []) := by
  have hobject := (bindObject_of_names b hnames).trans hbind
  rw [dispatch_eq_of_modeled (modeled_of_bound (code_of_names hnames) hfind hobject),
    FailureReport.readBody_of_object hnames.body, FailureReport.details_ofResponse]
  rfl

theorem dispatch_eq_of_unbound {e : ResponseError} {s : b.State}
    (hnames : r.Names d.codes.field object code) (hfind : d.catalog.find? code = some b)
    (hbind : b.bind (.object object) b.initial = (.error e, s)) :
    d.dispatch r = (d.fallbackFor r, [.unbound code e]) := by
  have hobject := (bindObject_of_names b hnames).trans hbind
  rw [dispatch_eq_of_not_modeled (modeled_of_unbound (code_of_names hnames) hfind hobject),
    FailureReport.readBody_of_object hnames.body]
  rfl

theorem dispatch_eq_of_unregistered (hnames : r.Names d.codes.field object code)
    (hfind : d.catalog.find? code = none) :
    d.dispatch r = (d.fallbackFor r, [.unregistered code r.status]) := by
  rw [dispatch_eq_of_not_modeled (modeled_of_unregistered (code_of_names hnames) hfind),
    FailureReport.readBody_of_object hnames.body]
  rfl

theorem dispatch_of_bound {s : b.State} (hnames : r.Names d.codes.field object code)
    (hfind : d.catalog.find? code = some b)
    (hbind : b.bind (.object object) b.initial = (.ok (), s)) :
    (d.dispatch r).1 = b.build s (r.details d.messages d.serviceName (some code)) :=
  congrArg Prod.fst (dispatch_eq_of_bound hnames hfind hbind)

theorem dispatch_of_unbound {e : ResponseError} {s : b.State}
    (hnames : r.Names d.codes.field object code) (hfind : d.catalog.find? code = some b)
    (hbind : b.bind (.object object) b.initial = (.error e, s)) :
    (d.dispatch r).1 =
      d.catalog.fallback.unbound (r.details d.messages d.serviceName none) :=
  congrArg Prod.fst (dispatch_eq_of_unbound hnames hfind hbind)

theorem dispatch_of_unregistered (hnames : r.Names d.codes.field object code)
    (hfind : d.catalog.find? code = none) :
    (d.dispatch r).1 =
      d.catalog.fallback.unbound (r.details d.messages d.serviceName none) :=
  congrArg Prod.fst (dispatch_eq_of_unregistered hnames hfind)

end FailureDispatch

end ServiceCodec
