import Mathlib.Logic.Function.Basic
import ServiceCodec.Proofs.Request.Marshal
import ServiceCodec.Proofs.Text.Ascii

/-!
# What a request carries

The headers of a request are compared here as what they answer to every name,
and what they should answer is put together from texts: the last value that the
input binds to the name, the identifier under the target header, and for a body
its content type and its length. A view of this kind knows no order of steps and
no dictionary, so that nothing is overridden or left over unseen.

The body is compared with `Carries`, one rule for each kind of operation and
input, of which no two apply to the same request. `Codec.marshal_carries` joins
the two: whatever request is made has the
body of one of these rules and, header by header, the view that goes with it.
-/

namespace ServiceCodec

/-- What a member binds to a header name, which is in lower case. -/
def Location.value? (key : String) : Location → Option HeaderValue
  | .header name value =>
      if HeaderName.ofText? name = some ⟨key⟩ then HeaderValue.ofText? value else none
  | _ => none

/-- What each name, in lower case, has for its values. -/
abbrev HeaderView := String → Option (List HeaderValue)

namespace HeaderView

/-- Each name has the last value that is bound to it. -/
def ofBindings (members : List Location) : HeaderView := fun key =>
  (members.filterMap (Location.value? key)).getLast?.map ([·])

/-- The text is the only value under the name. -/
def put (h : HeaderView) (name : HeaderName) (text : String) : HeaderView :=
  Function.update h name.text ((HeaderValue.ofText? text).map ([·]))

/-- The text is the only value under a name that has none. -/
def putDefault (h : HeaderView) (name : HeaderName) (text : String) : HeaderView :=
  if (h name.text).isSome then h else h.put name text

end HeaderView

namespace RequestStyle

/-- The headers of a request whose input binds `members`, but for its body's. -/
def ownHeaders (s : RequestStyle) (op : Operation) (members : List Location) : HeaderView :=
  match s.protocol, op.identifier with
  | .awsJson, some identifier => (HeaderView.ofBindings members).put .target identifier
  | _, _ => HeaderView.ofBindings members

/-- What the body is to be, with its content type; nothing where there is to be
no body. A document is carried by the bytes of its text, and these read back as that
document and no other (`Json.ofBody_toBody`). -/
inductive Carries (s : RequestStyle) (op : Operation) (input : Input) :
    Option (Bytes × String) → Prop where
  | nothing (h : op.content = .nothing) (hprotocol : s.protocol = .restJson) :
      Carries s op input none
  | absent (h : op.content = .payload) (hpayload : input.payload = .ok none) :
      Carries s op input none
  | emptyObject (h : op.content = .nothing) (hprotocol : s.protocol = .awsJson) :
      Carries s op input (some (bytesOf "{}", s.contentType))
  | noMembers (h : op.content = .members) (hmembers : input.members = .ok .null) :
      Carries s op input (some (bytesOf "{}", s.contentType))
  | members {es : JsonObject} (h : op.content = .members)
      (hmembers : input.members = .ok (.object es)) :
      Carries s op input (some ((Json.object es).toBody, s.contentType))
  | document {v : Json} (h : op.content = .payload)
      (hpayload : input.payload = .ok (some (.document v))) :
      Carries s op input (some (v.toBody, s.contentType))
  | blob {bytes : Bytes} (h : op.content = .payload)
      (hpayload : input.payload = .ok (some (.blob bytes))) :
      Carries s op input (some (bytes, "binary/octet-stream"))

theorem toBody_empty : (Json.object []).toBody = bytesOf "{}" := rfl

theorem membersBody_eq_ok_iff {input : Input} {bytes : Bytes} :
    membersBody input = .ok bytes ↔
      (input.members = .ok .null ∧ bytes = bytesOf "{}") ∨
        ∃ es, input.members = .ok (.object es) ∧ bytes = (Json.object es).toBody := by
  rw [membersBody]
  cases input.members with
  | error e => simp
  | ok v =>
      cases v with
      | null => simp [toBody_empty, eq_comm]
      | object es => simp [eq_comm]
      | bool _ | number _ | string _ | array _ => simp

/-- A body that was made is one that the rules allow. -/
theorem carries_of_content {s : RequestStyle} {op : Operation} {input : Input}
    {content : Option (Bytes × String)} (hstream : op.content.isStream = false)
    (h : s.content op input = .ok content) : Carries s op input content := by
  rw [RequestStyle.content] at h
  cases hop : op.content with
  | stream => rw [hop] at hstream; cases hstream
  | members =>
      simp only [hop, Except.bind_eq_ok_iff] at h
      obtain ⟨bytes, hbytes, heq⟩ := h
      cases heq
      rcases membersBody_eq_ok_iff.mp hbytes with ⟨hmembers, rfl⟩ | ⟨es, hmembers, rfl⟩
      · exact .noMembers hop hmembers
      · exact .members hop hmembers
  | payload =>
      simp only [hop, Except.bind_eq_ok_iff] at h
      obtain ⟨payload, hpayload, heq⟩ := h
      cases payload with
      | none => cases heq; exact .absent hop hpayload
      | some p =>
          cases p with
          | document v => cases heq; exact .document hop hpayload
          | blob bytes => cases heq; exact .blob hop hpayload
  | nothing =>
      simp only [hop] at h
      cases hprotocol : s.protocol with
      | awsJson =>
          rw [hprotocol] at h
          cases h
          exact .emptyObject hop hprotocol
      | restJson =>
          rw [hprotocol] at h
          cases h
          exact .nothing hop hprotocol

theorem Carries.unique {s : RequestStyle} {op : Operation} {input : Input}
    {content content' : Option (Bytes × String)} (h : s.Carries op input content)
    (h' : s.Carries op input content') : content = content' := by
  -- Two different rules disagree on the operation, the protocol or the input.
  cases h <;> cases h' <;> simp_all

end RequestStyle

namespace Locations

theorem find?_headers_bind {ls ls' : Locations} {m : Location} (h : ls.bind m = .ok ls')
    (key : String) :
    ls'.headers.find? key = ((m.value? key).map ([·])).or (ls.headers.find? key) := by
  cases m with
  | label name value | query name value =>
      cases h
      rfl
  | header name value =>
      obtain ⟨n, v, hn, hv, rfl⟩ := bindHeader_eq_ok_iff.mp h
      rw [Headers.set, Dictionary.find?_insert, Location.value?, hn, hv]
      by_cases hkey : key = n.text
      · subst hkey
        rw [if_pos rfl, if_pos rfl]
        rfl
      · have hne : some n ≠ some ⟨key⟩ := by
          rintro ⟨⟩
          exact hkey rfl
        rw [if_neg hkey, if_neg hne]
        rfl

/-- If each binding puts what is read off it above an answer, bindings made one after another
leave the last of what is read off them, above what was there before. -/
theorem bindAll_last {β : Type} {view : Locations → Option β} {read : Location → Option β}
    (hbind : ∀ {ls ls' : Locations} {m : Location}, ls.bind m = .ok ls' →
      view ls' = (read m).or (view ls))
    {ls ls' : Locations} {members : List Location} (h : ls.bindAll members = .ok ls') :
    view ls' = (members.filterMap read).getLast?.or (view ls) := by
  induction members generalizing ls with
  | nil => cases h; rfl
  | cons m rest ih =>
      rw [bindAll, List.foldlM_cons] at h
      obtain ⟨ls₁, hm, hrest⟩ := Except.bind_eq_ok_iff.mp h
      rw [ih hrest, hbind hm, ← Option.or_assoc, List.filterMap_cons]
      congr 1
      cases read m with
      | none => rw [Option.or_none]
      | some v => rw [List.getLast?_cons]; cases (rest.filterMap read).getLast? <;> rfl

theorem find?_headers_bindAll {ls ls' : Locations} {members : List Location}
    (h : ls.bindAll members = .ok ls') (key : String) :
    ls'.headers.find? key =
      (HeaderView.ofBindings members key).or (ls.headers.find? key) := by
  rw [bindAll_last (fun hbind => find?_headers_bind hbind key) h, HeaderView.ofBindings,
    ← List.map_filterMap, List.getLast?_map]

theorem find?_headers_ofList {ls : Locations} {members : List Location}
    (h : ofList members = .ok ls) : ls.headers.find? = HeaderView.ofBindings members := by
  funext key
  rw [find?_headers_bindAll h]
  exact Option.or_none

end Locations

/-- Bindings, and whatever is put above them, leave one value to a name or none. -/
def HeaderView.Single (h : HeaderView) : Prop :=
  ∀ key, ∃ v : Option HeaderValue, h key = v.map ([·])

theorem HeaderView.single_ofBindings (members : List Location) : (ofBindings members).Single :=
  fun _ => ⟨_, rfl⟩

theorem HeaderView.Single.put {h : HeaderView} (hsingle : h.Single) (name : HeaderName)
    (text : String) : (h.put name text).Single := by
  intro key
  by_cases hkey : key = name.text
  · subst hkey
    exact ⟨HeaderValue.ofText? text, Function.update_self ..⟩
  · obtain ⟨v, hv⟩ := hsingle key
    exact ⟨v, (Function.update_of_ne hkey ..).trans hv⟩

theorem HeaderValue.ofText?_eq_some {text : String} {v : HeaderValue}
    (h : v.bytes = bytesOf text) : ofText? text = some v := by
  obtain ⟨bytes, valid⟩ := v
  subst h
  rw [ofText?, ofBytes?, dif_pos valid]

/-- The length in a header is a decimal number. -/
theorem HeaderValue.ofText?_repr (n : Nat) : ofText? n.repr = some (.ofNat n) := by
  refine ofText?_eq_some ?_
  have hascii : ∀ c ∈ Nat.toDigits 10 n, c.toNat < 128 := by
    intro c hc
    have hdigit := Nat.isDigit_of_mem_toDigits (by decide) (by decide) hc
    rw [Char.isDigit, Bool.and_eq_true, decide_eq_true_eq, decide_eq_true_eq] at hdigit
    have hhi : c.toNat ≤ 57 := hdigit.2
    omega
  rw [Nat.repr, bytesOf_ascii hascii]
  rfl

namespace Headers

theorem find?_set {h : Headers} {name : HeaderName} {text : String} {v : HeaderValue}
    (hv : HeaderValue.ofText? text = some v) :
    (h.set name v).find? = HeaderView.put h.find? name text := by
  funext key
  rw [set, Dictionary.find?_insert, HeaderView.put, Function.update_apply, hv]
  rfl

theorem has_eq {h : Headers} (hsingle : HeaderView.Single h.find?) (name : HeaderName) :
    h.has name = (h.find? name.text).isSome := by
  obtain ⟨v, hv⟩ := hsingle name.text
  rw [has, first?, values, hv]
  cases v <;> rfl

theorem find?_setDefault {h : Headers} (hsingle : HeaderView.Single h.find?)
    {name : HeaderName} {text : String} {v : HeaderValue}
    (hv : HeaderValue.ofText? text = some v) :
    (h.setDefault name v).find? = HeaderView.putDefault h.find? name text := by
  rw [setDefault, HeaderView.putDefault, has_eq hsingle]
  split
  · rfl
  · exact find?_set hv

end Headers

namespace RequestStyle

variable {s : RequestStyle} {op : Operation} {members : List Location} {ls : Locations}
  {headers : Headers}

theorem single_ownHeaders : (s.ownHeaders op members).Single := by
  rw [ownHeaders]
  split
  · exact (HeaderView.single_ofBindings members).put _ _
  · exact HeaderView.single_ofBindings members

theorem find?_headers (hls : Locations.ofList members = .ok ls)
    (h : s.headers op ls = .ok headers) : headers.find? = s.ownHeaders op members := by
  have hbound := Locations.find?_headers_ofList hls
  cases hprotocol : s.protocol with
  | restJson =>
      simp only [RequestStyle.headers, hprotocol] at h
      obtain rfl := Except.ok.inj h
      simp only [ownHeaders, hprotocol, hbound]
  | awsJson =>
      cases hidentifier : op.identifier with
      | none =>
          simp only [RequestStyle.headers, hprotocol, hidentifier] at h
          obtain rfl := Except.ok.inj h
          simp only [ownHeaders, hprotocol, hidentifier, hbound]
      | some identifier =>
          simp only [RequestStyle.headers, hprotocol, hidentifier] at h
          simp only [ownHeaders, hprotocol, hidentifier]
          split at h
          · next v hv =>
              obtain rfl := Except.ok.inj h
              rw [Headers.find?_set hv, hbound]
          · cases h

theorem find?_describeBody {bytes : Bytes} {contentType : String} {described : Headers}
    (hsingle : HeaderView.Single headers.find?)
    (h : describeBody headers bytes contentType = .ok described) :
    described.find? = (HeaderView.putDefault headers.find? .contentType contentType).put
      .contentLength bytes.length.repr := by
  have hlength : ∀ typed : Headers,
      (typed.set .contentLength (.ofNat bytes.length)).find? =
        HeaderView.put typed.find? .contentLength bytes.length.repr :=
    fun _ => Headers.find?_set (HeaderValue.ofText?_repr _)
  rw [HeaderView.putDefault, ← Headers.has_eq hsingle]
  rw [describeBody] at h
  split at h
  · next hhas =>
      cases h
      rw [if_pos hhas]
      exact hlength headers
  · next hhas =>
      rw [if_neg hhas]
      split at h
      · next v hv =>
          cases h
          rw [← Headers.find?_set hv]
          exact hlength _
      · cases h

end RequestStyle

/-- The body and the headers of every request that is made, for an input that
binds `members`. -/
theorem Codec.marshal_carries {ε : Type} (c : Codec ε) (op : Operation) (input : Input)
    (members : List Location) (hmembers : input.locations = Locations.ofList members) :
    (∀ rq, c.marshal op input = .ok rq →
      op.content.isStream = false ∧ ∃ content, c.style.Carries op input content ∧
        match content with
        | none => rq.body = .empty ∧ rq.headers.find? = c.style.ownHeaders op members
        | some (bytes, contentType) =>
            rq.body = .full (some bytes) ∧
              rq.headers.find? =
                ((c.style.ownHeaders op members).putDefault .contentType contentType).put
                  .contentLength bytes.length.repr) ∧
      ∀ body rq, c.marshalBody op input body = .ok rq →
        op.content.isStream = true ∧ rq.body = body ∧
          rq.headers.find? = (c.style.ownHeaders op members).putDefault .contentType
            "binary/octet-stream" := by
  have hview : ∀ target headers, c.style.start op input = .ok (target, headers) →
      headers.find? = c.style.ownHeaders op members := by
    intro target headers hstart
    obtain ⟨ls, hls, _, hheaders⟩ := RequestStyle.start_eq_ok_iff.mp hstart
    exact RequestStyle.find?_headers (hmembers.symm.trans hls) hheaders
  have hsingle : (c.style.ownHeaders op members).Single := RequestStyle.single_ownHeaders
  refine ⟨fun rq h => ?_, fun body rq h => ?_⟩
  · obtain ⟨hstream, target, headers, hstart, hmade⟩ := RequestStyle.marshal_eq_ok_iff.mp h
    refine ⟨hstream, ?_⟩
    have hheaders := hview target headers hstart
    rcases hmade with ⟨hcontent, hfinish⟩ |
      ⟨bytes, contentType, described, hcontent, hdescribed, hfinish⟩
    · obtain ⟨uri, _, rfl⟩ := RequestStyle.finish_eq_ok_iff.mp hfinish
      exact ⟨none, RequestStyle.carries_of_content hstream hcontent, rfl, hheaders⟩
    · obtain ⟨uri, _, rfl⟩ := RequestStyle.finish_eq_ok_iff.mp hfinish
      refine ⟨some (bytes, contentType), RequestStyle.carries_of_content hstream hcontent,
        rfl, ?_⟩
      rw [← hheaders] at hsingle ⊢
      exact RequestStyle.find?_describeBody hsingle hdescribed
  · obtain ⟨hstream, target, headers, hstart, hfinish⟩ :=
      RequestStyle.marshalBody_eq_ok_iff.mp h
    obtain ⟨uri, _, rfl⟩ := RequestStyle.finish_eq_ok_iff.mp hfinish
    have hheaders := hview target headers hstart
    refine ⟨hstream, rfl, ?_⟩
    rw [← hheaders] at hsingle ⊢
    exact Headers.find?_setDefault hsingle (HeaderValue.ofText?_eq_some rfl)

theorem Codec.marshal_carries_above_bindings :
    ∃ op rq, ({ path := "/", identifier := some "Tables.List" } : OperationDraft).build = .ok op ∧
      (Codec.bare .awsJson).marshal op
        { locations := Locations.ofList
            [.header "X-Amz-Target" "Other", .header "Content-Length" "7"] } = .ok rq ∧
      rq.body = .full (some (bytesOf "{}")) ∧
      rq.headers.find? = (((Codec.bare .awsJson).style.ownHeaders op
        [.header "X-Amz-Target" "Other", .header "Content-Length" "7"]).putDefault
          .contentType "application/x-amz-json-1.0").put .contentLength "2" := by
  obtain ⟨op, rq, hop, hrq, hcontent⟩ : ∃ op rq,
      ({ path := "/", identifier := some "Tables.List" } : OperationDraft).build = .ok op ∧
        (Codec.bare .awsJson).marshal op
          { locations := Locations.ofList
              [.header "X-Amz-Target" "Other", .header "Content-Length" "7"] } = .ok rq ∧
        op.content = .nothing :=
    ⟨_, _, rfl, rfl, rfl⟩
  obtain ⟨_, content, hcarries, hmade⟩ :=
    (Codec.marshal_carries (Codec.bare .awsJson) op _ _ rfl).1 rq hrq
  refine ⟨op, rq, hop, hrq, ?_⟩
  cases hcarries with
  | emptyObject => exact hmade
  | nothing _ hprotocol => cases hprotocol
  | absent h | noMembers h | members h | document h | blob h => rw [hcontent] at h; cases h

end ServiceCodec
