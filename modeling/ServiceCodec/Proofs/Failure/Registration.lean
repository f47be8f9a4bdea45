import ServiceCodec.Conformance.Failures
import ServiceCodec.Proofs.Failure.Selection

/-!
# A registration that does not bind might as well not be there

`Codec.without` is a codec that has never heard of a code: it is what the same
settings make when those that register something under the code are left out
(`CodecDraft.build_ofSettings_without`). Leaving them out commutes with making
the other settings, because these do not look at what is registered, and of two
registrations under one code the earlier is replaced in any case.

If an object does not bind to what is registered under its code, the failure is
the one of this other codec (`Codec.unbound_as_unregistered`). The other codec
has no builder for the code, so nothing that a builder stores before it refuses
an object can be a part of the failure.
-/

namespace ServiceCodec

variable {ε : Type}

namespace CodecDraft

/-- The setting registers something under `code`. -/
def Setting.registers (code : String) : Setting ε → Bool
  | .modeled code' _ => code' = code
  | _ => false

/-- The draft without what is registered under `code`. -/
def without (d : CodecDraft ε) (code : String) : CodecDraft ε :=
  { d with modeled := d.modeled.erase code }

theorem without_set (d : CodecDraft ε) (x : Setting ε) (code : String) :
    (d.set x).without code =
      if x.registers code then d.without code else (d.without code).set x := by
  cases x with
  | modeled code' builder =>
      -- Under this code, what is inserted is erased again; under another, the two commute.
      by_cases h : code' = code
      · subst h
        simp [without, set, Setting.registers, Dictionary.erase_insert_self]
      · simp [without, set, Setting.registers, h, Dictionary.erase_insert_of_ne]
  | protocol value | version value | resolver value | fallback builder | codeField name
  | messages reader | threshold status => rfl

theorem foldl_set_without (settings : List (Setting ε)) (d : CodecDraft ε) (code : String) :
    (settings.filter fun x => !x.registers code).foldl set (d.without code) =
      (settings.foldl set d).without code := by
  induction settings generalizing d with
  | nil => rfl
  | cons x settings ih =>
      have hx := without_set d x code
      rw [List.foldl_cons, ← ih, hx, List.filter_cons]
      cases hregisters : x.registers code <;> simp

theorem ofSettings_without (settings : List (Setting ε)) (code : String) :
    ofSettings (settings.filter fun x => !x.registers code) =
      (ofSettings settings).without code :=
  foldl_set_without settings {} code

end CodecDraft

/-- The codec without what is registered under `code`. -/
def Codec.without (c : Codec ε) (code : String) : Codec ε :=
  { c with catalog := { c.catalog with modeled := c.catalog.modeled.erase code } }

theorem CodecDraft.build_eq_ok_iff {d : CodecDraft ε} {c : Codec ε} :
    d.build = .ok c ↔
      ∃ fallback threshold, d.fallback = some fallback ∧ Text.allBlank d.version = false ∧
        d.codeField.any Text.allBlank = false ∧ d.threshold? = some threshold ∧
        c = {
          metadata := ⟨d.protocol, d.version⟩
          contentType := d.resolver ⟨d.protocol, d.version⟩
          catalog := ⟨d.modeled, fallback⟩
          codes := ⟨d.codeField.getD defaultCodeField⟩
          messages := d.messages
          threshold } := by
  constructor
  · intro h
    rw [build] at h
    split at h
    · cases h
    · next fallback hfallback =>
        split at h
        · cases h
        · next hversion =>
            split at h
            · cases h
            · next hfield =>
                split at h
                · cases h
                · next threshold hthreshold =>
                    exact ⟨fallback, threshold, hfallback, eq_false_of_ne_true hversion,
                      eq_false_of_ne_true hfield, hthreshold, (Except.ok.inj h).symm⟩
  · intro ⟨fallback, threshold, hfallback, hversion, hfield, hthreshold, hc⟩
    simp [build, hfallback, hversion, hfield, hthreshold, hc]

theorem CodecDraft.build_without {d : CodecDraft ε} {c : Codec ε} (h : d.build = .ok c)
    (code : String) : (d.without code).build = .ok (c.without code) := by
  obtain ⟨fallback, threshold, hfallback, hversion, hfield, hthreshold, rfl⟩ :=
    build_eq_ok_iff.mp h
  exact build_eq_ok_iff.mpr
    ⟨fallback, threshold, hfallback, hversion, hfield, hthreshold, rfl⟩

theorem CodecDraft.build_ofSettings_without {settings : List (CodecDraft.Setting ε)}
    {c : Codec ε} (h : (ofSettings settings).build = .ok c) (code : String) :
    (ofSettings (settings.filter fun x => !x.registers code)).build = .ok (c.without code) := by
  rw [ofSettings_without]
  exact build_without h code

namespace Codec

theorem find?_without (c : Codec ε) (code : String) :
    (c.without code).catalog.find? code = none := by
  rw [without, FailureCatalog.find?, Dictionary.find?_erase, if_pos rfl]

/-- The failure of a response whose object does not bind to what is registered under
its code is that of the codec with the same settings but for those that register the
code, and it is the fallback, bound to nothing and without a code. -/
theorem unbound_as_unregistered (settings : List (CodecDraft.Setting ε)) (c : Codec ε)
    (label : Option String) (r : FailedResponse) (object : JsonObject) (code : String)
    (b : FailureBuilder ε) (e : ResponseError) (s : b.State)
    (hbuild : (CodecDraft.ofSettings settings).build = .ok c)
    (hnames : r.Names c.codes.field object code) (hfind : c.catalog.find? code = some b)
    (hbind : b.bind (.object object) b.initial = (.error e, s)) :
    ∃ c', (CodecDraft.ofSettings (settings.filter fun x => !x.registers code)).build = .ok c' ∧
      c'.catalog.find? code = none ∧
      (FailureDispatch.dispatch { c.dispatcher with serviceName := label } r).1 =
        (FailureDispatch.dispatch { c'.dispatcher with serviceName := label } r).1 ∧
      (FailureDispatch.dispatch { c.dispatcher with serviceName := label } r).1 =
        c.catalog.fallback.unbound (r.details c.messages label none) := by
  have hunbound := FailureDispatch.dispatch_of_unbound
    (d := { c.dispatcher with serviceName := label }) hnames hfind hbind
  have hunregistered := FailureDispatch.dispatch_of_unregistered
    (d := { (c.without code).dispatcher with serviceName := label }) hnames
    (find?_without c code)
  exact ⟨c.without code, CodecDraft.build_ofSettings_without hbuild code, find?_without c code,
    hunbound.trans hunregistered.symm, hunbound⟩

theorem unbound_as_unregistered_after_storing :
    ∃ (settings : List (CodecDraft.Setting Conformance.Failure))
      (c c' : Codec Conformance.Failure) (r : FailedResponse),
      (CodecDraft.ofSettings settings).build = .ok c ∧
        (CodecDraft.ofSettings (settings.filter fun x => !x.registers "Bad")).build = .ok c' ∧
        c.catalog.codes = ["Bad", "Worse"] ∧ c'.catalog.find? "Bad" = none ∧
        r.body = bytesOf "\x7b\"__type\":\"ns#Bad\",\"X\":\"fail\",\"message\":\"no\"\x7d" ∧
        (FailureDispatch.dispatch { c.dispatcher with serviceName := some "Svc" } r).1 =
          (FailureDispatch.dispatch { c'.dispatcher with serviceName := some "Svc" } r).1 ∧
        (FailureDispatch.dispatch { c.dispatcher with serviceName := some "Svc" } r).1.message =
          "raw: no (service: Svc, status code: 400, error code: none, request id: none)" := by
  -- The builder stores the text in `X` before it refuses the document.
  obtain ⟨settings, c, r, hbuild, hfind, hcodes, hbody, hcode, hbind, hmessage⟩ :
      ∃ (settings : List (CodecDraft.Setting Conformance.Failure))
        (c : Codec Conformance.Failure) (r : FailedResponse),
        (CodecDraft.ofSettings settings).build = .ok c ∧
          c.catalog.find? "Bad" = some (Conformance.rawBuilder "raw") ∧
          c.catalog.codes = ["Bad", "Worse"] ∧
          r.body =
            bytesOf "\x7b\"__type\":\"ns#Bad\",\"X\":\"fail\",\"message\":\"no\"\x7d" ∧
          (FailureReport.ofResponse c.codes c.messages r).1.code = some "Bad" ∧
          r.object?.map (fun object => Conformance.bindRaw (.object object) none) =
            some (.error (.unsupportedPayload "X"), some "fail") ∧
          (FailureDispatch.dispatch { c.dispatcher with serviceName := some "Svc" } r).1.message =
            "raw: no (service: Svc, status code: 400, error code: none, request id: none)" :=
    ⟨[.modeled "Bad" (.plain (.plain "old")), .fallback (Conformance.fallbackBuilder "base"),
        .modeled "Worse" (Conformance.rawBuilder "raw"),
        .modeled "Bad" (Conformance.rawBuilder "raw")],
      _, ⟨⟨⟨400, by decide⟩, ∅⟩, _⟩, rfl, rfl, rfl, rfl, by decide +kernel, by decide +kernel,
      by decide +kernel⟩
  obtain ⟨object, hnames⟩ := (FailedResponse.exists_names_iff c.messages).mpr hcode
  rw [hnames.body, Option.map_some, Option.some_inj] at hbind
  obtain ⟨c', hbuild', hgone, hsame, -⟩ := unbound_as_unregistered settings c (some "Svc") r
    object "Bad" (Conformance.rawBuilder "raw") _ _ hbuild hnames hfind hbind
  exact ⟨settings, c, c', r, hbuild, hbuild', hcodes, hgone, hbody, hsame, hmessage⟩

end Codec

end ServiceCodec
