import ServiceCodec.Codec.Draft
import ServiceCodec.Proofs.Request.Content
import ServiceCodec.Proofs.Request.Literal

/-!
# Which configurations a request can fail for

What is built is not yet known to make requests. Building an operation looks at
the braces and the leading slash of its path, and building a codec at blanks;
which characters a URI or a header has is looked at when a request is made.

For an input that is in order (`Input.Fits`) there are three places where that
can go wrong, and `RequestStyle.Misfit` has a case for each: the identifier, the
content type of a document, and the path. The first two are tested directly. The
path is tested as part of a target, but what else the target has never decides
(`Template.admits_targetText`).

The steps of `marshal` are taken in order, each with its two outcomes
(`headers_cases`, `describeBody_cases`, `finish_cases`). An input that fits gets
through all the others, so `Codec.fitting_input_marshals_iff` has no case in
which the input is to blame.
-/

namespace ServiceCodec

/-- All that is asked of the input of an operation that sends no stream: it binds `ls`, a
value for each label among them, it writes its members as an object or has its payload,
and its target is not too long. -/
structure Input.Fits (input : Input) (op : Operation) (ls : Locations) : Prop where
  noStream : op.content.isStream = false
  locations : input.locations = .ok ls
  filled : op.template.FilledBy ls
  members : op.content.hasPayload = false → ∃ es, input.members = .ok (.object es)
  payload : op.content.hasPayload = true → ∃ payload, input.payload = .ok payload
  short : ∀ target, targetText op.template ls = .ok target →
    target.utf8ByteSize ≤ Uri.sizeLimit

/-- The body of the requests is a document. -/
inductive RequestStyle.SendsDocument (s : RequestStyle) (op : Operation) (input : Input) :
    Prop where
  | members (h : op.content = .members) : SendsDocument s op input
  | payload {v : Json} (h : op.content = .payload)
      (hpayload : input.payload = .ok (some (.document v))) : SendsDocument s op input
  | emptyObject (h : op.content = .nothing) (hprotocol : s.protocol = .awsJson) :
      SendsDocument s op input

/-- What in a configuration makes no request, whatever the input has for its labels,
parameters and body: an identifier that is no header, a content type that is none, and
a path that is no URI. -/
inductive RequestStyle.Misfit (s : RequestStyle) (op : Operation) (input : Input)
    (ls : Locations) : RequestError → Prop where
  | identifier {identifier : String} (hprotocol : s.protocol = .awsJson)
      (hidentifier : op.identifier = some identifier)
      (h : HeaderValue.ofText? identifier = none) :
      Misfit s op input ls (.badHeader "x-amz-target" "failed to parse header value")
  | contentType (hbody : s.SendsDocument op input)
      (hbound : ls.headers.has .contentType = false)
      (h : HeaderValue.ofText? s.contentType = none) :
      Misfit s op input ls (.badHeader "content-type" "failed to parse header value")
  | path (h : ¬ Uri.Admits op.template.literal) :
      Misfit s op input ls (.http "invalid uri character")

namespace RequestStyle

variable {s : RequestStyle} {op : Operation} {input : Input} {ls : Locations}
  {target : String} {headers : Headers}

theorem has_set_target (headers : Headers) (v : HeaderValue) :
    (headers.set .target v).has .contentType = headers.has .contentType := by
  rw [Headers.has, Headers.has, Headers.first?, Headers.first?, Headers.values, Headers.values,
    Headers.set, Dictionary.find?_insert, if_neg (by decide)]

theorem headers_cases (s : RequestStyle) (op : Operation) (ls : Locations) :
    (∃ identifier, s.protocol = .awsJson ∧ op.identifier = some identifier ∧
        HeaderValue.ofText? identifier = none ∧
        s.headers op ls = .error (.badHeader "x-amz-target" "failed to parse header value")) ∨
      (∀ identifier, s.protocol = .awsJson → op.identifier = some identifier →
        HeaderValue.ofText? identifier ≠ none) ∧
        ∃ headers, s.headers op ls = .ok headers ∧
          headers.has .contentType = ls.headers.has .contentType := by
  cases hprotocol : s.protocol with
  | restJson =>
      refine .inr ⟨?_, ls.headers, ?_, rfl⟩
      · intro _ h
        cases h
      · simp only [RequestStyle.headers, hprotocol]
  | awsJson =>
      cases hidentifier : op.identifier with
      | none =>
          refine .inr ⟨?_, ls.headers, ?_, rfl⟩
          · intro _ _ h
            cases h
          · simp only [RequestStyle.headers, hprotocol, hidentifier]
      | some identifier =>
          cases hvalue : HeaderValue.ofText? identifier with
          | none =>
              refine .inl ⟨identifier, rfl, rfl, hvalue, ?_⟩
              simp only [RequestStyle.headers, hprotocol, hidentifier, hvalue]
              rfl
          | some v =>
              refine .inr ⟨?_, ls.headers.set .target v, ?_, has_set_target ls.headers v⟩
              · intro identifier' _ heq
                obtain rfl := Option.some_inj.mp heq
                rw [hvalue]
                exact Option.some_ne_none v
              · simp only [RequestStyle.headers, hprotocol, hidentifier, hvalue]

theorem describeBody_cases (headers : Headers) (bytes : Bytes) (contentType : String) :
    (headers.has .contentType = false ∧ HeaderValue.ofText? contentType = none ∧
        describeBody headers bytes contentType =
          .error (.badHeader "content-type" "failed to parse header value")) ∨
      (headers.has .contentType = false → HeaderValue.ofText? contentType ≠ none) ∧
        ∃ described, describeBody headers bytes contentType = .ok described := by
  cases hhas : headers.has .contentType with
  | true =>
      exact .inr ⟨nofun, _, describeBody_eq_ok_iff.mpr ⟨headers, .inl ⟨hhas, rfl⟩, rfl⟩⟩
  | false =>
      cases hvalue : HeaderValue.ofText? contentType with
      | none =>
          refine .inl ⟨rfl, rfl, ?_⟩
          rw [describeBody, hhas, hvalue]
          rfl
      | some v =>
          exact .inr ⟨fun _ => Option.some_ne_none v, _,
            describeBody_eq_ok_iff.mpr ⟨_, .inr ⟨hhas, v, hvalue, rfl⟩, rfl⟩⟩

theorem finish_cases (headers : Headers) (body : Body)
    (htarget : targetText op.template ls = .ok target)
    (hsize : target.utf8ByteSize ≤ Uri.sizeLimit) :
    (Uri.Admits op.template.literal ∧ ∃ rq, finish op target headers body = .ok rq) ∨
      ¬ Uri.Admits op.template.literal ∧
        finish op target headers body = .error (.http "invalid uri character") := by
  rw [← Template.admits_targetText htarget]
  rcases Uri.ofText_cases hsize with ⟨hadmits, uri, huri⟩ | ⟨hadmits, huri⟩
  · exact .inl ⟨hadmits, _, finish_eq_ok_iff.mpr ⟨uri, huri, rfl⟩⟩
  · refine .inr ⟨hadmits, ?_⟩
    rw [finish, huri]
    rfl

/-- What an input that fits has for a body; only a document has the style's content
type. -/
theorem exists_content (hfits : input.Fits op ls) :
    ∃ content, s.content op input = .ok content ∧
      ((content = none ∧ ¬ s.SendsDocument op input) ∨
        (∃ bytes, content = some (bytes, octetStream) ∧ ¬ s.SendsDocument op input) ∨
        ∃ bytes, content = some (bytes, s.contentType) ∧ s.SendsDocument op input) := by
  cases hop : op.content with
  | stream =>
      have hstream := hfits.noStream
      rw [hop] at hstream
      cases hstream
  | nothing =>
      cases hprotocol : s.protocol with
      | awsJson =>
          have hcontent : s.content op input =
              .ok (some ((Json.object []).toBody, s.contentType)) := by
            simp only [content, hop, hprotocol]
            rfl
          exact ⟨_, hcontent, .inr (.inr ⟨_, rfl, .emptyObject hop hprotocol⟩)⟩
      | restJson =>
          have hcontent : s.content op input = .ok none := by
            simp only [content, hop, hprotocol]
            rfl
          refine ⟨_, hcontent, .inl ⟨rfl, fun hsends => ?_⟩⟩
          cases hsends with
          | members h | payload h => rw [hop] at h; cases h
          | emptyObject _ h => rw [hprotocol] at h; cases h
  | members =>
      obtain ⟨es, hes⟩ := hfits.members (by rw [hop]; rfl)
      have hcontent : s.content op input =
          .ok (some ((Json.object es).toBody, s.contentType)) := by
        simp only [content, hop, membersBody, hes]
        rfl
      exact ⟨_, hcontent, .inr (.inr ⟨_, rfl, .members hop⟩)⟩
  | payload =>
      obtain ⟨payload, hpayload⟩ := hfits.payload (by rw [hop]; rfl)
      have hsends : s.SendsDocument op input → ∃ v, payload = some (.document v) := by
        intro hsends
        cases hsends with
        | payload _ hv => exact ⟨_, Except.ok.inj (hpayload.symm.trans hv)⟩
        | members h | emptyObject h => rw [hop] at h; cases h
      cases payload with
      | none =>
          have hcontent : s.content op input = .ok none := by
            simp only [content, hop, hpayload]
            rfl
          refine ⟨_, hcontent, .inl ⟨rfl, fun h => ?_⟩⟩
          obtain ⟨v, hv⟩ := hsends h
          cases hv
      | some p =>
          cases p with
          | document v =>
              have hcontent : s.content op input = .ok (some (v.toBody, s.contentType)) := by
                simp only [content, hop, hpayload]
                rfl
              exact ⟨_, hcontent, .inr (.inr ⟨_, rfl, .payload hop hpayload⟩)⟩
          | blob bytes =>
              have hcontent : s.content op input = .ok (some (bytes, octetStream)) := by
                simp only [content, hop, hpayload]
                rfl
              refine ⟨_, hcontent, .inr (.inl ⟨bytes, rfl, fun h => ?_⟩)⟩
              obtain ⟨v, hv⟩ := hsends h
              cases hv

theorem start_of_headers_error {e : RequestError} (hlocations : input.locations = .ok ls)
    (htarget : targetText op.template ls = .ok target) (h : s.headers op ls = .error e) :
    s.start op input = .error e := by
  rw [start, hlocations]
  simp only [bind, Except.bind, htarget, h]

/-- A request that got as far as its target and its headers fails for the path alone. -/
theorem marshal_cases_of_finish {body : Body} (hfits : input.Fits op ls)
    (htarget : targetText op.template ls = .ok target)
    (hidentifier : ∀ identifier, s.protocol = .awsJson → op.identifier = some identifier →
      HeaderValue.ofText? identifier ≠ none)
    (hcontentType : s.SendsDocument op input → ls.headers.has .contentType = false →
      HeaderValue.ofText? s.contentType ≠ none)
    (hmarshal : s.marshal op input = finish op target headers body) :
    (∃ rq, s.marshal op input = .ok rq ∧ ∀ e, ¬ s.Misfit op input ls e) ∨
      ∃ e, s.marshal op input = .error e ∧ s.Misfit op input ls e := by
  rw [hmarshal]
  rcases finish_cases headers body htarget (hfits.short target htarget) with
    ⟨hadmits, rq, hrq⟩ | ⟨hadmits, herror⟩
  · refine .inl ⟨rq, hrq, fun e hmisfit => ?_⟩
    cases hmisfit with
    | identifier hprotocol hid hvalue => exact hidentifier _ hprotocol hid hvalue
    | contentType hsends hbound hvalue => exact hcontentType hsends hbound hvalue
    | path h => exact h hadmits
  · exact .inr ⟨_, herror, .path hadmits⟩

theorem marshal_cases (hfits : input.Fits op ls) :
    (∃ rq, s.marshal op input = .ok rq ∧ ∀ e, ¬ s.Misfit op input ls e) ∨
      ∃ e, s.marshal op input = .error e ∧ s.Misfit op input ls e := by
  obtain ⟨target, htarget, -⟩ := Template.exists_targetText hfits.filled
  rcases headers_cases s op ls with
    ⟨identifier, hprotocol, hid, hvalue, herror⟩ | ⟨hidentifier, headers, hheaders, hhas⟩
  · have hstart := start_of_headers_error hfits.locations htarget herror
    exact .inr ⟨_, marshal_of_start_error hfits.noStream hstart,
      .identifier hprotocol hid hvalue⟩
  · have hstart : s.start op input = .ok (target, headers) :=
      start_eq_ok_iff.mpr ⟨ls, hfits.locations, htarget, hheaders⟩
    obtain ⟨content, hcontent, hkind⟩ := exists_content (s := s) hfits
    rcases hkind with ⟨rfl, hsends⟩ | ⟨bytes, rfl, hsends⟩ | ⟨bytes, rfl, hsends⟩
    · have hmarshal := marshal_of_no_content hfits.noStream hstart hcontent
      exact marshal_cases_of_finish hfits htarget hidentifier (fun h => absurd h hsends) hmarshal
    · have hmarshal := marshal_of_content hfits.noStream hstart hcontent
      rcases describeBody_cases headers bytes octetStream with
        ⟨-, hvalue, -⟩ | ⟨-, described, hdescribed⟩
      · rw [HeaderValue.ofText?_eq_some (v := octetStreamValue) rfl] at hvalue
        cases hvalue
      · rw [hdescribed] at hmarshal
        exact marshal_cases_of_finish hfits htarget hidentifier (fun h => absurd h hsends)
          hmarshal
    · have hmarshal := marshal_of_content hfits.noStream hstart hcontent
      rcases describeBody_cases headers bytes s.contentType with
        ⟨hbound, hvalue, herror⟩ | ⟨hvalue, described, hdescribed⟩
      · rw [herror] at hmarshal
        exact .inr ⟨_, hmarshal, .contentType hsends (hhas.symm.trans hbound) hvalue⟩
      · rw [hdescribed] at hmarshal
        exact marshal_cases_of_finish hfits htarget hidentifier
          (fun _ hbound => hvalue (hhas.trans hbound)) hmarshal

end RequestStyle

/-- An input that fits makes a request, unless the configuration is at fault, and then
the error is that of the fault. -/
theorem Codec.fitting_input_marshals_iff {ε : Type} (c : Codec ε) (op : Operation)
    (input : Input) (ls : Locations) (hfits : input.Fits op ls) :
    ((∃ rq, c.marshal op input = .ok rq) ↔ ∀ e, ¬ c.style.Misfit op input ls e) ∧
      ∀ e, c.marshal op input = .error e → c.style.Misfit op input ls e := by
  rcases RequestStyle.marshal_cases (s := c.style) hfits with ⟨rq, hrq, hnone⟩ | ⟨e, herror, he⟩
  · refine ⟨iff_of_true ⟨rq, hrq⟩ hnone, fun e herror => ?_⟩
    rw [marshal, hrq] at herror
    cases herror
  · refine ⟨iff_of_false ?_ (fun hnone => hnone e he), fun e' herror' => ?_⟩
    · intro ⟨rq, hrq⟩
      rw [marshal, herror] at hrq
      cases hrq
    · rw [marshal, herror] at herror'
      exact Except.error.inj herror' ▸ he

theorem Input.short_of_target {op : Operation} {ls : Locations} {target : String}
    (htarget : targetText op.template ls = .ok target)
    (hsize : target.utf8ByteSize ≤ Uri.sizeLimit) (target' : String)
    (h : targetText op.template ls = .ok target') : target'.utf8ByteSize ≤ Uri.sizeLimit := by
  obtain rfl := Except.ok.inj (htarget.symm.trans h)
  exact hsize

theorem Codec.fitting_input_marshals_beyond_ascii :
    ∃ (c : Codec PlainFailure) (op : Operation) (ls : Locations),
      (CodecDraft.ofSettings [.version "1.1 é", .fallback (.plain id)]).build = .ok c ∧
        (OperationDraft.ofSettings "/ü/{Id}?list={Id+}#\n"
          [.identifier "Tables.Lösche\tAlle"]).build = .ok op ∧
        Locations.ofList [.label "Id" "a b/?#", .query "\x7b" "&"] = .ok ls ∧
        Input.Fits { locations := .ok ls } op ls ∧
        ∃ rq, c.marshal op { locations := .ok ls } = .ok rq := by
  obtain ⟨c, op, ls, hc, hop, hls, hfits, hidentifier, hcontentType, hpath⟩ :
      ∃ (c : Codec PlainFailure) (op : Operation) (ls : Locations),
        (CodecDraft.ofSettings [.version "1.1 é", .fallback (.plain id)]).build = .ok c ∧
        (OperationDraft.ofSettings "/ü/{Id}?list={Id+}#\n"
          [.identifier "Tables.Lösche\tAlle"]).build = .ok op ∧
        Locations.ofList [.label "Id" "a b/?#", .query "\x7b" "&"] = .ok ls ∧
        Input.Fits { locations := .ok ls } op ls ∧
        (∀ e ∈ op.identifier, HeaderValue.ofText? e ≠ none) ∧
        HeaderValue.ofText? c.style.contentType ≠ none ∧ Uri.Admits op.template.literal := by
    refine ⟨_, _, _, rfl, rfl, rfl, ?_, by decide, by decide +kernel,
      Uri.admits_iff.mp (by decide +kernel)⟩
    refine ⟨rfl, rfl, by decide +kernel, fun _ => ⟨[], rfl⟩, nofun, ?_⟩
    exact Input.short_of_target rfl (by decide +kernel)
  refine ⟨c, op, ls, hc, hop, hls, hfits, ?_⟩
  refine (Codec.fitting_input_marshals_iff c op _ ls hfits).1.mpr fun e hmisfit => ?_
  cases hmisfit with
  | identifier _ hop hvalue => exact hidentifier _ hop hvalue
  | contentType _ _ hvalue => exact hcontentType hvalue
  | path h => exact h hpath

/-- A path, an identifier and a version that are accepted, and for each an input that fits
and makes no request. -/
theorem Codec.accepted_configurations_fail :
    (∃ (c : Codec PlainFailure) (op : Operation),
      (CodecDraft.ofSettings [.protocol .restJson, .fallback (.plain id)]).build = .ok c ∧
        (OperationDraft.ofSettings "/a b" []).build = .ok op ∧ Input.Fits {} op {} ∧
        c.marshal op {} = .error (.http "invalid uri character")) ∧
      (∃ (c : Codec PlainFailure) (op : Operation),
        (CodecDraft.ofSettings [.fallback (.plain id)]).build = .ok c ∧
          (OperationDraft.ofSettings "/" [.identifier "A\nB"]).build = .ok op ∧
          Input.Fits {} op {} ∧
          c.marshal op {} = .error (.badHeader "x-amz-target" "failed to parse header value")) ∧
      ∃ (c : Codec PlainFailure) (op : Operation),
        (CodecDraft.ofSettings [.version "1\n0", .fallback (.plain id)]).build = .ok c ∧
          (OperationDraft.ofSettings "/" []).build = .ok op ∧ Input.Fits {} op {} ∧
          c.marshal op {} =
            .error (.badHeader "content-type" "failed to parse header value") := by
  have hfits : ∀ op target, op.content = .nothing → op.template.FilledBy {} →
      targetText op.template {} = .ok target → target.utf8ByteSize ≤ Uri.sizeLimit →
      Input.Fits {} op {} := by
    intro op target hop hfilled htarget hsize
    refine ⟨by rw [hop]; rfl, rfl, hfilled, fun _ => ⟨[], rfl⟩, fun _ => ⟨none, rfl⟩, ?_⟩
    exact Input.short_of_target htarget hsize
  refine ⟨⟨_, _, rfl, rfl, ?_, rfl⟩, ⟨_, _, rfl, rfl, ?_, rfl⟩, _, _, rfl, rfl, ?_, rfl⟩
  · exact hfits _ "/a b" rfl (by decide) rfl (by decide)
  · exact hfits _ "/" rfl (by decide) rfl (by decide)
  · exact hfits _ "/" rfl (by decide) rfl (by decide)

end ServiceCodec
