import ServiceCodec.Proofs.First
import ServiceCodec.Proofs.Request.Content
import ServiceCodec.Proofs.Request.Misfits

/-!
# The first fault of a request

Seven things can be wrong with a request, each at a step of its own. A `Fault`
says what is wrong at a step, in terms of the operation, the style and the
input, and knows nothing of the other steps, nor of the program that makes the
request. Marshalling reports the fault of the first step that has one, and
succeeds if there is none (`marshal_eq_error_iff`, `Codec.first_fault_reported`).

The program is brought into the form of a chain first, with one link for each
step. Then every link is compared with the faults of its step, as far as the
links before it were passed.
-/

namespace ServiceCodec

/-- The steps at which making a request can fail. -/
inductive RequestStep where
  | stream | locations | labels | identifier | content | contentType | uri
  deriving DecidableEq

/-- All of them, in the order in which they are taken. -/
def RequestStep.order : List RequestStep :=
  [.stream, .locations, .labels, .identifier, .content, .contentType, .uri]

namespace RequestStyle

/-- What is wrong at a step, and how it is reported. -/
inductive Fault (s : RequestStyle) (op : Operation) (input : Input) :
    RequestStep → RequestError → Prop where
  | stream (h : op.content.isStream = true) : Fault s op input .stream .bodyRequired
  | locations {e : RequestError} (h : input.locations = .error e) : Fault s op input .locations e
  /-- The leftmost label that nothing, or an empty value, is bound to. -/
  | label {ls : Locations} {name : String} (hls : input.locations = .ok ls)
      (h : op.template.unfilled? ls = some name) : Fault s op input .labels (.unboundLabel name)
  | identifier {identifier : String} (hprotocol : s.protocol = .awsJson)
      (hop : op.identifier = some identifier) (h : HeaderValue.ofText? identifier = none) :
      Fault s op input .identifier (.badHeader "x-amz-target" "failed to parse header value")
  | payload {e : RequestError} (hop : op.content = .payload) (h : input.payload = .error e) :
      Fault s op input .content e
  | members {e : JsonError} (hop : op.content = .members) (h : input.members = .error e) :
      Fault s op input .content (.json e)
  | notAnObject {v : Json} (hop : op.content = .members) (h : input.members = .ok v)
      (hobject : v.kind ≠ .object) (hnull : v.kind ≠ .null) :
      Fault s op input .content (.notAnObject v.kind)
  | contentType {ls : Locations} {bytes : Bytes} {contentType : String}
      (hls : input.locations = .ok ls) (hbody : s.Carries op input (some (bytes, contentType)))
      (hbound : ls.headers.has .contentType = false)
      (h : HeaderValue.ofText? contentType = none) :
      Fault s op input .contentType (.badHeader "content-type" "failed to parse header value")
  | uri {ls : Locations} {fault : UriFault} (hls : input.locations = .ok ls)
      (h : Uri.ofText (op.template.target ls) = .error fault) :
      Fault s op input .uri (.http fault.message)

/-! ## The chain -/

/-- An operation whose body is a stream needs one. -/
def refuseStream (op : Operation) : Except RequestError Unit :=
  if op.content.isStream then .error .bodyRequired else .ok ()

/-- The headers of a request with this content, and its body. -/
def describe (headers : Headers) :
    Option (Bytes × String) → Except RequestError (Headers × Body)
  | none => .ok (headers, .empty)
  | some (bytes, contentType) =>
      (describeBody headers bytes contentType).map fun described => (described, .ofBytes bytes)

theorem marshal_eq (s : RequestStyle) (op : Operation) (input : Input) :
    s.marshal op input =
      refuseStream op >>= fun _ =>
      input.locations >>= fun ls =>
      targetText op.template ls >>= fun target =>
      s.headers op ls >>= fun headers =>
      s.content op input >>= fun content =>
      describe headers content >>= fun p =>
      finish op target p.1 p.2 := by
  have hcontent (target : String) (headers : Headers) (content : Option (Bytes × String)) :
      (match content with
        | none => finish op target headers .empty
        | some (bytes, contentType) => do
            let headers ← describeBody headers bytes contentType
            finish op target headers (.ofBytes bytes)) =
      describe headers content >>= fun p => finish op target p.1 p.2 := by
    cases content with
    | none => rfl
    | some p =>
        simp only [describe]
        cases describeBody headers p.1 p.2 <;> rfl
  rw [marshal, start, refuseStream]
  cases op.content.isStream with
  | true => rfl
  | false =>
      simp only [bind_assoc, pure_bind, ← hcontent]
      rfl

/-! ## The faults of each step -/

variable {s : RequestStyle} {op : Operation} {input : Input} {ls : Locations}

theorem refuseStream_eq_error_iff (e : RequestError) :
    refuseStream op = .error e ↔ s.Fault op input .stream e := by
  rw [refuseStream]
  constructor
  · intro h
    split at h
    · next hstream =>
        cases h
        exact .stream hstream
    · cases h
  · intro h
    cases h with
    | stream hstream => rw [if_pos hstream]

theorem isStream_of_refuseStream {u : Unit} (h : refuseStream op = .ok u) :
    op.content.isStream = false := by
  rw [refuseStream] at h
  split at h
  · cases h
  · next hstream => exact eq_false_of_ne_true hstream

theorem locations_eq_error_iff (e : RequestError) :
    input.locations = .error e ↔ s.Fault op input .locations e := by
  constructor
  · exact .locations
  · intro h
    cases h with
    | locations h => exact h

theorem targetText_eq_error_iff (hls : input.locations = .ok ls) (e : RequestError) :
    targetText op.template ls = .error e ↔ s.Fault op input .labels e := by
  rw [Template.targetText_eq]
  constructor
  · intro h
    split at h
    · cases h
    · next name hname =>
        cases h
        exact .label hls hname
  · intro h
    cases h with
    | label hls' hname =>
        cases hls.symm.trans hls'
        rw [hname]

theorem headers_eq_error_iff (ls : Locations) (e : RequestError) :
    s.headers op ls = .error e ↔ s.Fault op input .identifier e := by
  rcases headers_cases s op ls with
    ⟨identifier, hprotocol, hop, hvalue, herror⟩ | ⟨hvalid, headers, hok, -⟩
  · rw [herror]
    constructor
    · intro h
      cases h
      exact .identifier hprotocol hop hvalue
    · intro h
      cases h
      rfl
  · rw [hok]
    constructor
    · intro h
      cases h
    · intro h
      cases h with
      | identifier hprotocol hop hvalue => exact absurd hvalue (hvalid _ hprotocol hop)

theorem has_of_headers {headers : Headers} (h : s.headers op ls = .ok headers) :
    headers.has .contentType = ls.headers.has .contentType := by
  rcases headers_cases s op ls with ⟨_, -, -, -, herror⟩ | ⟨-, headers', hok, hhas⟩
  · rw [herror] at h
    cases h
  · cases h.symm.trans hok
    exact hhas

theorem membersBody_eq_error_iff {e : RequestError} :
    membersBody input = .error e ↔
      (∃ e', input.members = .error e' ∧ e = .json e') ∨
        ∃ v, input.members = .ok v ∧ v.kind ≠ .object ∧ v.kind ≠ .null ∧
          e = .notAnObject v.kind := by
  rw [membersBody]
  cases input.members with
  | error e' => simp [eq_comm]
  | ok v =>
      cases v with
      | null | object es => simp [Json.kind]
      | bool _ | number _ | string _ | array _ => simp [Json.kind, eq_comm]

theorem content_eq_error_iff (hstream : op.content.isStream = false) (e : RequestError) :
    s.content op input = .error e ↔ s.Fault op input .content e := by
  constructor
  · intro h
    cases hop : op.content with
    | stream => rw [hop] at hstream; cases hstream
    | members =>
        simp only [content, hop] at h
        cases hbody : membersBody input with
        | ok bytes => rw [hbody] at h; cases h
        | error e' =>
            rw [hbody] at h
            cases h
            rcases membersBody_eq_error_iff.mp hbody with
              ⟨e', hmembers, rfl⟩ | ⟨v, hmembers, hobject, hnull, rfl⟩
            · exact .members hop hmembers
            · exact .notAnObject hop hmembers hobject hnull
    | payload =>
        simp only [content, hop] at h
        cases hpayload : input.payload with
        | error e' => rw [hpayload] at h; cases h; exact .payload hop hpayload
        | ok payload =>
            rw [hpayload] at h
            rcases payload with - | ⟨v | bytes⟩
            · cases h
            · cases h
            · cases h
    | nothing =>
        simp only [content, hop] at h
        split at h
        · cases h
        · cases h
  · intro h
    cases h with
    | payload hop h =>
        simp only [content, hop, h]
        rfl
    | members hop h =>
        simp only [content, hop, membersBody, h]
        rfl
    | notAnObject hop h hobject hnull =>
        simp only [content, hop, membersBody_eq_error_iff.mpr (.inr ⟨_, h, hobject, hnull, rfl⟩)]
        rfl

/-- The members are looked at only where they are the body. -/
theorem content_of_members (h : op.content ≠ .members) (members : Except JsonError Json) :
    s.content op { input with members } = s.content op input := by
  cases hop : op.content with
  | members => exact absurd hop h
  | stream | payload | nothing => simp only [content, hop]

theorem describe_eq_error_iff {headers : Headers} {content : Option (Bytes × String)}
    (hstream : op.content.isStream = false) (hls : input.locations = .ok ls)
    (hheaders : s.headers op ls = .ok headers) (hcontent : s.content op input = .ok content)
    (e : RequestError) :
    describe headers content = .error e ↔ s.Fault op input .contentType e := by
  have hcarries := carries_of_content hstream hcontent
  cases content with
  | none =>
      constructor
      · intro h
        cases h
      · intro h
        cases h with
        | contentType _ hbody => cases hcarries.unique hbody
  | some p =>
      obtain ⟨bytes, contentType⟩ := p
      rw [describe]
      rcases describeBody_cases headers bytes contentType with
        ⟨hbound, hvalue, herror⟩ | ⟨hvalid, described, hok⟩
      · rw [herror]
        constructor
        · intro h
          cases h
          exact .contentType hls hcarries ((has_of_headers hheaders).symm.trans hbound) hvalue
        · intro h
          cases h
          rfl
      · rw [hok]
        constructor
        · intro h
          cases h
        · intro h
          cases h with
          | contentType hls' hbody hbound hvalue =>
              cases hls.symm.trans hls'
              cases hcarries.unique hbody
              exact absurd hvalue (hvalid ((has_of_headers hheaders).trans hbound))

theorem finish_eq_error_iff {target : String} {headers : Headers} {body : Body}
    (hls : input.locations = .ok ls) (htarget : targetText op.template ls = .ok target)
    (e : RequestError) :
    finish op target headers body = .error e ↔ s.Fault op input .uri e := by
  obtain ⟨-, rfl⟩ := Template.targetText_eq_ok_iff_filledBy.mp htarget
  rw [finish]
  constructor
  · intro h
    split at h
    · cases h
    · next fault hfault =>
        cases h
        exact .uri hls hfault
  · intro h
    cases h with
    | uri hls' hfault =>
        cases hls.symm.trans hls'
        rw [hfault]

theorem marshal_eq_error_iff (e : RequestError) :
    s.marshal op input = .error e ↔ First (s.Fault op input) RequestStep.order e := by
  rw [marshal_eq]
  refine First.bind_iff refuseStream_eq_error_iff (fun _ hstream => ?_) e
  refine First.bind_iff locations_eq_error_iff fun ls hls => ?_
  refine First.bind_iff (targetText_eq_error_iff hls) fun target htarget => ?_
  refine First.bind_iff (headers_eq_error_iff ls) fun headers hheaders => ?_
  have hbody := isStream_of_refuseStream hstream
  refine First.bind_iff (content_eq_error_iff hbody) fun content hcontent => ?_
  refine First.bind_iff (describe_eq_error_iff hbody hls hheaders hcontent) fun p _ => ?_
  exact First.singleton_iff (finish_eq_error_iff hls htarget)

end RequestStyle

theorem RequestStep.mem_order (step : RequestStep) : step ∈ order := by
  cases step <;> decide

/-- A request fails with the fault of the first step that has one, and is made if no step has.
The members of an input are of no concern where they are not the body. -/
theorem Codec.first_fault_reported {ε : Type} (c : Codec ε) (op : Operation) (input : Input) :
    (∀ e, c.marshal op input = .error e ↔
        First (c.style.Fault op input) RequestStep.order e) ∧
      ((∃ rq, c.marshal op input = .ok rq) ↔ ∀ step e, ¬ c.style.Fault op input step e) ∧
      (op.content ≠ .members →
        ∀ members, c.marshal op { input with members } = c.marshal op input) := by
  refine ⟨RequestStyle.marshal_eq_error_iff, ⟨?_, ?_⟩, fun hop members => ?_⟩
  · intro ⟨rq, hrq⟩ step e hfault
    obtain ⟨e', hfirst⟩ := First.exists_iff.mpr ⟨step, step.mem_order, e, hfault⟩
    have herror := RequestStyle.marshal_eq_error_iff e' |>.mpr hfirst
    rw [marshal, herror] at hrq
    cases hrq
  · intro hnone
    cases hmarshal : c.marshal op input with
    | ok rq => exact ⟨rq, rfl⟩
    | error e =>
        have hfirst := RequestStyle.marshal_eq_error_iff e |>.mp hmarshal
        obtain ⟨step, -, e', hfault⟩ := First.exists_iff.mp ⟨e, hfirst⟩
        exact absurd hfault (hnone step e')
  · rw [marshal, marshal, RequestStyle.marshal_eq, RequestStyle.marshal_eq,
      RequestStyle.content_of_members hop]

end ServiceCodec
