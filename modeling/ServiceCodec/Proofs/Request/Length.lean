import ServiceCodec.Proofs.Request.Content

/-!
# When the length in a request is that of its body

The length header is written together with the body, by `describeBody`, and in
no other place. So it is right wherever the library writes the body itself,
above any length that the input binds (`lengths_of_described`). A request that
is left without a body, and one whose body is given, go past that place. Both
send the length that the members bind, if they bind one (`lengths_of_start`), and
no other: a length for a body that is not there, or none for a body that is
buffered and has one.

`Codec.length_agrees_iff` draws the line, and `Codec.length_contradicts` has a
request on the wrong side of it for each of the two ways.
-/

namespace ServiceCodec

namespace Body

/-- These values of the length header are right for the body. -/
def Admits : Body → List HeaderValue → Prop
  | empty, lengths => lengths = [] ∨ lengths = [.ofNat 0]
  | full data, lengths => lengths = [.ofNat (data.getD []).length]
  | streaming _, _ => True

instance (b : Body) (lengths : List HeaderValue) : Decidable (b.Admits lengths) :=
  match b with
  | empty => inferInstanceAs (Decidable (_ ∨ _))
  | full data => inferInstanceAs (Decidable (lengths = [.ofNat (data.getD []).length]))
  | streaming _ => .isTrue trivial

end Body

/-- The values of the length header. -/
def Request.lengths (rq : Request) : List HeaderValue := rq.headers.values .contentLength

/-- The length header does not contradict the body. -/
def Request.LengthAgrees (rq : Request) : Prop := rq.body.Admits rq.lengths

instance (rq : Request) : Decidable rq.LengthAgrees :=
  inferInstanceAs (Decidable (rq.body.Admits rq.lengths))

/-- The length that the members bind: the last one, or none. -/
def Location.lengths (members : List Location) : List HeaderValue :=
  (members.filterMap (Location.value? HeaderName.contentLength.text)).getLast?.toList

namespace RequestStyle

variable {s : RequestStyle} {op : Operation} {input : Input} {members : List Location}
  {headers described : Headers} {target : String}

theorem lengths_of_described {bytes : Bytes} {contentType : String}
    (h : describeBody headers bytes contentType = .ok described) :
    described.values .contentLength = [.ofNat bytes.length] := by
  obtain ⟨typed, -, rfl⟩ := describeBody_eq_ok_iff.mp h
  rw [Headers.values, Headers.set, Dictionary.find?_insert, if_pos rfl]
  rfl

theorem ownHeaders_of_ne {key : String} (h : key ≠ HeaderName.target.text) :
    s.ownHeaders op members key = HeaderView.ofBindings members key := by
  have hput : ∀ identifier, (HeaderView.ofBindings members).put .target identifier key =
      HeaderView.ofBindings members key := fun _ => Function.update_of_ne h ..
  cases hprotocol : s.protocol with
  | restJson => simp only [ownHeaders, hprotocol]
  | awsJson =>
      cases hidentifier : op.identifier with
      | none => simp only [ownHeaders, hprotocol, hidentifier]
      | some identifier => simp only [ownHeaders, hprotocol, hidentifier, hput]

theorem lengths_of_start (hmembers : input.locations = Locations.ofList members)
    (h : s.start op input = .ok (target, headers)) :
    headers.values .contentLength = Location.lengths members := by
  obtain ⟨ls, hls, -, hheaders⟩ := start_eq_ok_iff.mp h
  have hview := find?_headers (hmembers.symm.trans hls) hheaders
  rw [Headers.values, hview, ownHeaders_of_ne (by decide), HeaderView.ofBindings, Location.lengths]
  cases (members.filterMap (Location.value? HeaderName.contentLength.text)).getLast? <;> rfl

theorem lengths_setDefault (headers : Headers) (v : HeaderValue) :
    (headers.setDefault .contentType v).values .contentLength =
      headers.values .contentLength := by
  rw [Headers.setDefault]
  split
  · rfl
  · rw [Headers.values, Headers.set, Dictionary.find?_insert, if_neg (by decide), Headers.values]

end RequestStyle

/-- A request whose body the library writes has the length of that body, whatever the
input binds. Without a body, or with one that is given, a request has the length that
the input binds, and agrees with its body exactly if that does. -/
theorem Codec.length_agrees_iff {ε : Type} (c : Codec ε) (op : Operation) (input : Input)
    (members : List Location) (hmembers : input.locations = Locations.ofList members) :
    (∀ rq, c.marshal op input = .ok rq →
      (∃ bytes, rq.body = .full (some bytes) ∧ rq.LengthAgrees) ∨
        rq.body = .empty ∧ rq.lengths = Location.lengths members ∧
          (rq.LengthAgrees ↔ Body.empty.Admits (Location.lengths members))) ∧
      ∀ body rq, c.marshalBody op input body = .ok rq →
        rq.body = body ∧ rq.lengths = Location.lengths members ∧
          (rq.LengthAgrees ↔ body.Admits (Location.lengths members)) := by
  refine ⟨fun rq h => ?_, fun body rq h => ?_⟩
  · obtain ⟨-, target, headers, hstart, hmade⟩ := RequestStyle.marshal_eq_ok_iff.mp h
    rcases hmade with ⟨-, hfinish⟩ | ⟨bytes, contentType, described, -, hdescribed, hfinish⟩
    · obtain ⟨uri, -, rfl⟩ := RequestStyle.finish_eq_ok_iff.mp hfinish
      have hlengths := RequestStyle.lengths_of_start hmembers hstart
      refine .inr ⟨rfl, hlengths, ?_⟩
      rw [Request.LengthAgrees, Request.lengths, hlengths]
    · obtain ⟨uri, -, rfl⟩ := RequestStyle.finish_eq_ok_iff.mp hfinish
      exact .inl ⟨bytes, rfl, RequestStyle.lengths_of_described hdescribed⟩
  · obtain ⟨-, target, headers, hstart, hfinish⟩ := RequestStyle.marshalBody_eq_ok_iff.mp h
    obtain ⟨uri, -, rfl⟩ := RequestStyle.finish_eq_ok_iff.mp hfinish
    have hlengths := RequestStyle.lengths_of_start hmembers hstart
    rw [← RequestStyle.lengths_setDefault headers octetStreamValue] at hlengths
    refine ⟨rfl, hlengths, ?_⟩
    rw [Request.LengthAgrees, Request.lengths, hlengths]

theorem Codec.length_agrees_of_bound :
    (∃ op rq, ({ path := "/" } : OperationDraft).build = .ok op ∧
      (Codec.bare .awsJson).marshal op
        { locations := Locations.ofList [.header "CONTENT-Length" "7"] } = .ok rq ∧
      rq.body = .full (some (bytesOf "\x7b\x7d")) ∧ rq.LengthAgrees) ∧
      ∃ op rq, (OperationDraft.ofSettings "/" [.payloadMembers true, .explicitPayload true,
          .streamingInput true]).build = .ok op ∧
        (Codec.bare .restJson).marshalBody op
          { locations := Locations.ofList
              [.header "Content-Length" "7", .header "content-length" "3"] }
          (.ofBytes (bytesOf "abc")) = .ok rq ∧ rq.LengthAgrees := by
  constructor
  · obtain ⟨op, rq, hop, hrq, hbody⟩ : ∃ op rq,
        ({ path := "/" } : OperationDraft).build = .ok op ∧
          (Codec.bare .awsJson).marshal op
            { locations := Locations.ofList [.header "CONTENT-Length" "7"] } = .ok rq ∧
          rq.body = .full (some (bytesOf "\x7b\x7d")) :=
      ⟨_, _, rfl, rfl, rfl⟩
    rcases (Codec.length_agrees_iff (Codec.bare .awsJson) op _ _ rfl).1 rq hrq with
      ⟨_, _, hagrees⟩ | ⟨hempty, _⟩
    · exact ⟨op, rq, hop, hrq, hbody, hagrees⟩
    · rw [hbody] at hempty
      cases hempty
  · obtain ⟨op, rq, hop, hrq⟩ : ∃ op rq,
        (OperationDraft.ofSettings "/" [.payloadMembers true, .explicitPayload true,
          .streamingInput true]).build = .ok op ∧
          (Codec.bare .restJson).marshalBody op
            { locations := Locations.ofList
                [.header "Content-Length" "7", .header "content-length" "3"] }
            (.ofBytes (bytesOf "abc")) = .ok rq :=
      ⟨_, _, rfl, rfl⟩
    obtain ⟨_, _, hiff⟩ :=
      (Codec.length_agrees_iff (Codec.bare .restJson) op _ _ rfl).2 _ rq hrq
    exact ⟨op, rq, hop, hrq, hiff.mpr (by decide)⟩

/-- Two requests whose length contradicts the body: a bound length of 7 that is sent
with no body, and three bytes that are sent with no length. -/
theorem Codec.length_contradicts :
    (∃ op rq, ({ path := "/" } : OperationDraft).build = .ok op ∧
      (Codec.bare .restJson).marshal op
        { locations := Locations.ofList [.header "Content-Length" "7"] } = .ok rq ∧
      rq.body = .empty ∧ rq.lengths = [.ofNat 7] ∧ ¬ rq.LengthAgrees) ∧
      ∃ op rq, (OperationDraft.ofSettings "/" [.payloadMembers true, .explicitPayload true,
          .streamingInput true]).build = .ok op ∧
        (Codec.bare .restJson).marshalBody op {} (.ofBytes (bytesOf "abc")) = .ok rq ∧
        rq.body = .full (some (bytesOf "abc")) ∧ rq.lengths = [] ∧ ¬ rq.LengthAgrees := by
  refine ⟨⟨_, _, rfl, rfl, rfl, by decide, by decide⟩, _, _, rfl, rfl, rfl, by decide, by decide⟩

end ServiceCodec
