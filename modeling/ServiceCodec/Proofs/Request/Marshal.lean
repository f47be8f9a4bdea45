import ServiceCodec.Codec.Basic

/-!
# What a request that was made is made of

Marshalling is a chain of steps each of which can fail. A request that came out
of it went through all of them, and so it is described by what each step
answered: these are the equivalences of this file, one for each step of the
chain and one for each of the two ways to make a request. Statements about
requests start from them and take the chain apart no further than they need.
-/

namespace ServiceCodec

theorem Except.bind_eq_ok_iff {ε α β : Type} {x : Except ε α} {f : α → Except ε β} {b : β} :
    (x >>= f) = .ok b ↔ ∃ a, x = .ok a ∧ f a = .ok b := by
  cases x with
  | error e => simp [bind, Except.bind]
  | ok a => simp [bind, Except.bind]

theorem Except.bind_pure_eq_ok_iff {ε α β : Type} {x : Except ε α} {f : α → β} {b : β} :
    (x >>= fun a => pure (f a)) = .ok b ↔ ∃ a, x = .ok a ∧ b = f a := by
  rw [Except.bind_eq_ok_iff]
  constructor
  · rintro ⟨a, ha, heq⟩
    exact ⟨a, ha, (Except.ok.inj heq).symm⟩
  · rintro ⟨a, ha, rfl⟩
    exact ⟨a, ha, rfl⟩

namespace Locations

theorem bindHeader_eq_ok_iff {ls ls' : Locations} {name value : String} :
    ls.bindHeader name value = .ok ls' ↔
      ∃ n v, HeaderName.ofText? name = some n ∧ HeaderValue.ofText? value = some v ∧
        ls' = { ls with headers := ls.headers.set n v } := by
  rw [bindHeader]
  cases HeaderName.ofText? name with
  | none => simp
  | some n =>
      cases HeaderValue.ofText? value with
      | none => simp
      | some v => simp [eq_comm]

end Locations

namespace RequestStyle

variable {s : RequestStyle} {op : Operation} {input : Input} {target : String}
  {headers : Headers} {body : Body} {rq : Request}

theorem start_eq_ok_iff :
    s.start op input = .ok (target, headers) ↔
      ∃ ls, input.locations = .ok ls ∧ targetText op.template ls = .ok target ∧
        s.headers op ls = .ok headers := by
  simp only [start, Except.bind_eq_ok_iff]
  constructor
  · rintro ⟨ls, hls, t, ht, hs, hheaders, heq⟩
    cases heq
    exact ⟨ls, hls, ht, hheaders⟩
  · rintro ⟨ls, hls, ht, hheaders⟩
    exact ⟨ls, hls, target, ht, headers, hheaders, rfl⟩

theorem finish_eq_ok_iff :
    finish op target headers body = .ok rq ↔
      ∃ uri, Uri.ofText target = .ok uri ∧ rq = ⟨op.method, uri, headers, body⟩ := by
  rw [finish]
  cases Uri.ofText target with
  | error fault => simp
  | ok uri =>
      constructor
      · intro h
        cases h
        exact ⟨uri, rfl, rfl⟩
      · rintro ⟨uri', huri, rfl⟩
        cases huri
        rfl

theorem describeBody_eq_ok_iff {bytes : Bytes} {contentType : String} {described : Headers} :
    describeBody headers bytes contentType = .ok described ↔
      ∃ typed, (headers.has .contentType = true ∧ typed = headers ∨
          headers.has .contentType = false ∧ ∃ v, HeaderValue.ofText? contentType = some v ∧
            typed = headers.set .contentType v) ∧
        described = typed.set .contentLength (.ofNat bytes.length) := by
  rw [describeBody]
  cases hhas : headers.has .contentType with
  | true => simp [pure, Except.pure, bind, Except.bind, eq_comm]
  | false =>
      cases hvalue : HeaderValue.ofText? contentType with
      | none => simp [bind, Except.bind, throw, throwThe, MonadExceptOf.throw]
      | some v => simp [pure, Except.pure, bind, Except.bind, eq_comm]

/-- A request without a body is finished with the headers it started with, one
with a body after they describe it. -/
theorem marshal_eq_ok_iff :
    s.marshal op input = .ok rq ↔
      op.content.isStream = false ∧ ∃ target headers,
        s.start op input = .ok (target, headers) ∧
          ((s.content op input = .ok none ∧ finish op target headers .empty = .ok rq) ∨
            ∃ bytes contentType described,
              s.content op input = .ok (some (bytes, contentType)) ∧
                describeBody headers bytes contentType = .ok described ∧
                  finish op target described (.ofBytes bytes) = .ok rq) := by
  rw [marshal]
  cases hstream : op.content.isStream with
  | true => simp [bind, Except.bind, throw, throwThe, MonadExceptOf.throw]
  | false =>
      simp only [Bool.false_eq_true, if_false, true_and, Except.bind_eq_ok_iff]
      constructor
      · rintro ⟨⟨target, headers⟩, hstart, content, hcontent, h⟩
        refine ⟨target, headers, hstart, ?_⟩
        cases content with
        | none => exact .inl ⟨hcontent, h⟩
        | some p =>
            obtain ⟨described, hdescribed, h⟩ := Except.bind_eq_ok_iff.mp h
            exact .inr ⟨p.1, p.2, described, hcontent, hdescribed, h⟩
      · rintro ⟨target, headers, hstart, h⟩
        refine ⟨(target, headers), hstart, ?_⟩
        rcases h with ⟨hcontent, h⟩ | ⟨bytes, contentType, described, hcontent, hdescribed, h⟩
        · exact ⟨none, hcontent, h⟩
        · exact ⟨some (bytes, contentType), hcontent,
            Except.bind_eq_ok_iff.mpr ⟨described, hdescribed, h⟩⟩

theorem marshal_of_start_error {e : RequestError} (hstream : op.content.isStream = false)
    (h : s.start op input = .error e) : s.marshal op input = .error e := by
  rw [marshal, hstream, h]
  rfl

theorem marshal_of_no_content (hstream : op.content.isStream = false)
    (hstart : s.start op input = .ok (target, headers))
    (hcontent : s.content op input = .ok none) :
    s.marshal op input = finish op target headers .empty := by
  rw [marshal, hstream, hstart, hcontent]
  rfl

theorem marshal_of_content {bytes : Bytes} {contentType : String}
    (hstream : op.content.isStream = false)
    (hstart : s.start op input = .ok (target, headers))
    (hcontent : s.content op input = .ok (some (bytes, contentType))) :
    s.marshal op input = describeBody headers bytes contentType >>= fun described =>
      finish op target described (.ofBytes bytes) := by
  rw [marshal, hstream, hstart, hcontent]
  rfl

theorem marshalBody_eq_ok_iff :
    s.marshalBody op input body = .ok rq ↔
      op.content.isStream = true ∧ ∃ target headers,
        s.start op input = .ok (target, headers) ∧
          finish op target (headers.setDefault .contentType octetStreamValue) body =
            .ok rq := by
  rw [marshalBody]
  cases hstream : op.content.isStream with
  | false => simp [bind, Except.bind, throw, throwThe, MonadExceptOf.throw]
  | true =>
      simp only [Bool.not_true, Bool.false_eq_true, if_false, true_and, Except.bind_eq_ok_iff]
      constructor
      · rintro ⟨⟨target, headers⟩, hstart, h⟩
        exact ⟨target, headers, hstart, h⟩
      · rintro ⟨target, headers, hstart, h⟩
        exact ⟨(target, headers), hstart, h⟩

end RequestStyle

/-- A codec that knows no failures. -/
def Codec.bare (protocol : Protocol) : Codec PlainFailure where
  metadata := ⟨protocol, "1.0"⟩
  contentType := "application/x-amz-json-1.0"
  catalog := ⟨∅, .plain id⟩
  codes := {}
  messages := .ofFields MessageReader.defaultFields
  threshold := ⟨300, by decide⟩

end ServiceCodec
