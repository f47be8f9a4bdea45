import ServiceCodec.Proofs.Failure.Selection

/-!
# What a dispatch leaves in the trace

A dispatch never fails, and the fallback does not say why it is not the modeled
failure. The trace does. `FailureDispatch.Ends` lists the ways in which a dispatch
can end, each with the failure and the records that come of it. Four times
something is absorbed, and there is one record, of a kind of its own: the body is
no document, or one that is no object, or nothing is registered for its code, or
it does not bind to what is. Three times there is nothing to tell: the failure is
the modeled one, or there was no body to speak of, or no code in it.

These are all the ways there are, and no two of them can be taken by the same
response: `dispatch_eq_iff` says that a dispatch ends in just the way that its
response is described by.
-/

namespace ServiceCodec

theorem Json.isBlankByte_of_ofBody {body : Bytes} (h : ofBody body = .ok none) :
    ∀ x ∈ body, isBlankByte x = true := by
  rw [ofBody] at h
  split at h
  · next hblank => exact List.all_eq_true.mp hblank
  · split at h
    · cases h
    · split at h
      · cases h
      · cases h

namespace FailureReport

variable {r : FailedResponse}

theorem readBody_of_blank (h : ∀ x ∈ r.body, Json.isBlankByte x = true) :
    readBody r = (none, []) := by
  rw [readBody, readDocument, Json.ofBody, if_pos (List.all_eq_true.mpr h)]
  rfl

theorem readBody_of_malformed {e : JsonError} (h : Json.ofBody r.body = .error e) :
    readBody r = (none, [.unparseable r.status (.json e)]) := by
  rw [readBody, readDocument, h]
  rfl

theorem readBody_of_other {v : Json} (h : Json.ofBody r.body = .ok (some v))
    (hkind : v.kind ≠ .object) : readBody r = (none, [.notAnObject r.status]) := by
  rw [readBody, readDocument, h]
  cases v with
  | object es => exact absurd rfl hkind
  | null | bool value | number value | string value | array elements => rfl

theorem code_of_readBody {codes : CodeReader} {messages : MessageReader} {records : List Record}
    (h : readBody r = (none, records)) : (ofResponse codes messages r).1.code = none := by
  simp only [ofResponse, h, Option.bind_none]

end FailureReport

namespace FailureDispatch

variable {ε : Type} {d : FailureDispatch ε} {r : FailedResponse}

/-- How a dispatch can end, in which failure and with which records. -/
inductive Ends (d : FailureDispatch ε) (r : FailedResponse) : ε → List Record → Prop where
  | modeled {code : String} {b : FailureBuilder ε} {s : b.State} (h : d.Selects r code b s) :
      Ends d r (b.build s (r.details d.messages d.serviceName (some code))) []
  | blank (h : ∀ x ∈ r.body, Json.isBlankByte x = true) : Ends d r (d.fallbackFor r) []
  | codeless {object : JsonObject} (hbody : r.object? = some object)
      (h : ∀ raw, ¬ CodeReader.Sent d.codes.field r.headers object raw) :
      Ends d r (d.fallbackFor r) []
  | malformed {e : JsonError} (h : Json.ofBody r.body = .error e) :
      Ends d r (d.fallbackFor r) [.unparseable r.status (.json e)]
  | notAnObject {v : Json} (h : Json.ofBody r.body = .ok (some v)) (hkind : v.kind ≠ .object) :
      Ends d r (d.fallbackFor r) [.notAnObject r.status]
  | unregistered {object : JsonObject} {code : String}
      (hnames : r.Names d.codes.field object code) (h : d.catalog.find? code = none) :
      Ends d r (d.fallbackFor r) [.unregistered code r.status]
  | unbound {object : JsonObject} {code : String} {b : FailureBuilder ε} {e : ResponseError}
      {s : b.State} (hnames : r.Names d.codes.field object code)
      (hfind : d.catalog.find? code = some b)
      (h : b.bind (.object object) b.initial = (.error e, s)) :
      Ends d r (d.fallbackFor r) [.unbound code e]

theorem dispatch_of_no_object {records : List Record}
    (h : FailureReport.readBody r = (none, records)) :
    d.dispatch r = (d.fallbackFor r, records) := by
  rw [dispatch_eq_of_not_modeled (modeled_of_codeless (FailureReport.code_of_readBody h)), h,
    List.append_nil, fallbackFor]

theorem dispatch_of_codeless {object : JsonObject} (hbody : r.object? = some object)
    (hcode : (FailureReport.ofResponse d.codes d.messages r).1.code = none) :
    d.dispatch r = (d.fallbackFor r, []) := by
  rw [dispatch_eq_of_not_modeled (modeled_of_codeless hcode),
    FailureReport.readBody_of_object hbody]
  rfl

/-- With an object in the body it is the code that decides. -/
theorem ends_of_object {object : JsonObject} (hbody : r.object? = some object) :
    d.Ends r (d.dispatch r).1 (d.dispatch r).2 := by
  cases hcode : (FailureReport.ofResponse d.codes d.messages r).1.code with
  | none =>
      rw [dispatch_of_codeless hbody hcode]
      refine .codeless hbody fun raw hsent => ?_
      have hnames : r.Names d.codes.field object (normalizeCode raw) :=
        ⟨hbody, raw, hsent, withoutNamespace_normalizeCode raw⟩
      cases hcode.symm.trans (code_of_names hnames)
  | some code =>
      obtain ⟨object, hnames⟩ := (FailedResponse.exists_names_iff d.messages).mpr hcode
      cases hfind : d.catalog.find? code with
      | none =>
          rw [dispatch_eq_of_unregistered hnames hfind]
          exact .unregistered hnames hfind
      | some b =>
          rcases hbind : b.bind (.object object) b.initial with ⟨outcome, s⟩
          cases outcome with
          | ok _ =>
              rw [dispatch_eq_of_bound hnames hfind hbind]
              exact .modeled (selects_iff_names.mpr ⟨object, hnames, hfind, hbind⟩)
          | error e =>
              rw [dispatch_eq_of_unbound hnames hfind hbind]
              exact .unbound hnames hfind hbind

theorem ends_dispatch (d : FailureDispatch ε) (r : FailedResponse) :
    d.Ends r (d.dispatch r).1 (d.dispatch r).2 := by
  cases hbody : Json.ofBody r.body with
  | error e =>
      rw [dispatch_of_no_object (FailureReport.readBody_of_malformed hbody)]
      exact .malformed hbody
  | ok document =>
      cases document with
      | none =>
          have hblank := Json.isBlankByte_of_ofBody hbody
          rw [dispatch_of_no_object (FailureReport.readBody_of_blank hblank)]
          exact .blank hblank
      | some v =>
          by_cases hkind : v.kind = .object
          · cases v with
            | object es =>
                have hobject : r.object? = some es := by
                  rw [FailedResponse.object?, readObject, readDocument, hbody]
                  rfl
                exact ends_of_object hobject
            | null | bool value | number value | string value | array elements => cases hkind
          · rw [dispatch_of_no_object (FailureReport.readBody_of_other hbody hkind)]
            exact .notAnObject hbody hkind

theorem dispatch_eq_iff {failure : ε} {records : List Record} :
    d.dispatch r = (failure, records) ↔ d.Ends r failure records := by
  constructor
  · intro h
    have hends := d.ends_dispatch r
    rwa [h] at hends
  · intro h
    cases h with
    | modeled h =>
        obtain ⟨object, hnames, hfind, hbind⟩ := selects_iff_names.mp h
        exact dispatch_eq_of_bound hnames hfind hbind
    | blank h => exact dispatch_of_no_object (FailureReport.readBody_of_blank h)
    | codeless hbody h =>
        refine dispatch_of_codeless hbody (Option.eq_none_iff_forall_ne_some.mpr fun code hcode => ?_)
        obtain ⟨object, hnames⟩ := (FailedResponse.exists_names_iff d.messages).mpr hcode
        obtain ⟨raw, hsent, -⟩ := hnames.sent
        obtain rfl := Option.some_inj.mp (hbody.symm.trans hnames.body)
        exact h raw hsent
    | malformed h => exact dispatch_of_no_object (FailureReport.readBody_of_malformed h)
    | notAnObject h hkind => exact dispatch_of_no_object (FailureReport.readBody_of_other h hkind)
    | unregistered hnames h => exact dispatch_eq_of_unregistered hnames h
    | unbound hnames hfind h => exact dispatch_eq_of_unbound hnames hfind h

end FailureDispatch

end ServiceCodec
