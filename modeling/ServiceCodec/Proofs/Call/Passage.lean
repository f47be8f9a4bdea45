import ServiceCodec.Proofs.Body.Polls
import ServiceCodec.Proofs.Call.Delivery
import ServiceCodec.Proofs.Request.Marshal
import ServiceCodec.Proofs.Response.Calls

/-!
# Streams pass through a call unread

A body that is handed on is not looked at on the way. For a request this is
`marshalBody_eq_map`: what is made of a given body is what is made of an absent
one, with the body put in its place, so neither the request nor its error can
depend on it. For an output it is `handle_streamed`: a builder is shown the head,
and what it makes of that, an output or an error, is all there is before the body
is put beside it.

A poll is counted in the stream itself, and a body that a call reads is written
into the journal as reading left it. So the body in a request or an output being
the given one says that it is at the same position, and an empty journal says
that no other body was asked either (`spared_run`). Where the outcome does need
the body of the response, that one body is read, and to its end.
-/

namespace ServiceCodec

/-- What a builder makes of the head alone. -/
def OutputBuilder.ofHead {σ ρ : Type} (b : OutputBuilder σ ρ) (head : Head) :
    Except ResponseError ρ :=
  let (answer, s) := (b.bindHead head).run.run (b.start head)
  answer.map fun _ => b.build s

theorem RequestStyle.marshalBody_eq_map (s : RequestStyle) (op : Operation) (input : Input)
    (body : Body) :
    s.marshalBody op input body =
      (s.marshalBody op input .empty).map fun rq => { rq with body } := by
  rw [marshalBody, marshalBody]
  cases op.content.isStream with
  | false => rfl
  | true =>
      cases s.start op input with
      | error e => rfl
      | ok p =>
          show finish op p.1 _ body = (finish op p.1 _ .empty).map _
          rw [finish, finish]
          cases Uri.ofText p.1 <;> rfl

theorem ResponseHandler.handle_streamed {σ ρ : Type} {h : ResponseHandler}
    (hstreams : h.streamsOutput = true) (b : OutputBuilder σ ρ) (r : Response) :
    h.handle b r = (b.ofHead r.toHead).map fun result => ⟨result, r.toHead, some r.body⟩ := by
  rcases hhead : (b.bindHead r.toHead).run.run (b.start r.toHead) with ⟨answer, s⟩
  rw [OutputBuilder.ofHead, hhead]
  cases answer with
  | error e =>
      rw [handle_of_course (.headRefused hhead)]
      rfl
  | ok _ =>
      rw [handle_of_course (.builtFromHead hhead (.streamed hstreams)), handedOn, if_pos hstreams]
      rfl

namespace Call

variable {ε σ ρ : Type}

/-- What is promised about bodies of the report of a call that had `request` to send. -/
structure Spared (c : Codec ε) (op : Operation) (b : OutputBuilder σ ρ)
    (transport : Transport) (request : Except RequestError Request)
    (report : CallReport ε ρ) : Prop where
  unread : (∀ rq r, request = .ok rq → transport rq = .ok r → ¬ c.ReadsBody op r.status) →
    report.journal.read = []
  streamed : ∀ rq r, request = .ok rq → transport rq = .ok r →
    r.status.code < c.threshold.code → op.streamsOutput = true →
      report.journal.read = [] ∧
        report.outcome = ((b.ofHead r.toHead).map fun result =>
          ⟨result, r.toHead, some r.body⟩).mapError .response
  readOut : ∀ rq r bytes, request = .ok rq → transport rq = .ok r →
    c.ReadsBody op r.status → r.body.Delivers bytes →
      ∃ left, report.journal.read = [left] ∧ r.body.ReadToEnd left

theorem readsBody_of_isFailure {c : Codec ε} {op : Operation} {status : StatusCode}
    (h : c.isFailure status = true) : c.ReadsBody op status := .inl (of_decide_eq_true h)

/-- A body is read only if the outcome needs it. -/
theorem read_eq_nil {c : Codec ε} {op : Operation} {b : OutputBuilder σ ρ}
    {transport : Transport} {request : Except RequestError Request}
    (h : ∀ rq r, request = .ok rq → transport rq = .ok r → ¬ c.ReadsBody op r.status) :
    (run c op b transport request).journal.read = [] := by
  have hcourse := course_run c op b transport request
  generalize run c op b transport request = report at hcourse
  cases hcourse with
  | rejected | undelivered | streamed => rfl
  | broken hr hread _ =>
      exact absurd (hread.imp_left of_decide_eq_true) (h _ _ rfl hr)
  | failed hr hstatus _ => exact absurd (readsBody_of_isFailure hstatus) (h _ _ rfl hr)
  | buffered hr _ hop _ => exact absurd (.inr hop) (h _ _ rfl hr)

theorem read_of_delivers {c : Codec ε} {op : Operation} {b : OutputBuilder σ ρ}
    {transport : Transport} {rq : Request} {r : Response} {bytes : Bytes}
    (hr : transport rq = .ok r) (hreads : c.ReadsBody op r.status)
    (hbody : r.body.Delivers bytes) :
    (run c op b transport (.ok rq)).journal.read = [r.body.collect.2] := by
  have hcollect := Body.collect_of_delivers hbody
  cases hstatus : c.isFailure r.status with
  | true => rw [run_of_failed hr hstatus hcollect]
  | false =>
      have hop : op.streamsOutput = false :=
        (isFailure_or_buffered hreads).resolve_left (by simp [hstatus])
      rw [run_of_buffered hr hstatus hop hcollect]

theorem spared_run (c : Codec ε) (op : Operation) (b : OutputBuilder σ ρ)
    (transport : Transport) (request : Except RequestError Request) :
    Spared c op b transport request (run c op b transport request) where
  unread h := read_eq_nil h
  streamed rq r h hr hstatus hop := by
    subst h
    rw [run_of_streamed hr (isFailure_eq_false hstatus) hop,
      ResponseHandler.handle_streamed (h := op.handler) hop]
    exact ⟨rfl, rfl⟩
  readOut rq r bytes h hr hreads hbody := by
    subst h
    exact ⟨_, read_of_delivers hr hreads hbody, Body.readToEnd_collect hbody⟩

end Call

/-- A body that is given for a request is sent as it was given, and a body that an
operation streams is handed on as it came; no call asks either of them for anything. -/
theorem Codec.streams_pass_unread {ε σ ρ : Type} (c : Codec ε) (op : Operation)
    (input : Input) (given : Body) (b : OutputBuilder σ ρ) (transport : Transport) :
    c.marshalBody op input given =
        (c.marshalBody op input .empty).map (fun rq => { rq with body := given }) ∧
      (∀ rq, c.marshalBody op input given = .ok rq → rq.body = given ∧
        (c.callWithBody op input given b transport).journal.sent = [rq]) ∧
      (∀ (jsonOutput : Bool) (r : Response),
        (ResponseHandler.mk true jsonOutput).handle b r =
          (b.ofHead r.toHead).map fun result => ⟨result, r.toHead, some r.body⟩) ∧
      Call.Spared c op b transport (c.marshal op input) (c.call op input b transport) ∧
      Call.Spared c op b transport (c.marshalBody op input given)
        (c.callWithBody op input given b transport) := by
  refine ⟨c.style.marshalBody_eq_map op input given, fun rq h => ⟨?_, ?_⟩,
    fun _ => ResponseHandler.handle_streamed rfl b, Call.spared_run .., Call.spared_run ..⟩
  · obtain ⟨-, target, headers, -, hfinish⟩ := RequestStyle.marshalBody_eq_ok_iff.mp h
    obtain ⟨uri, -, hrq⟩ := RequestStyle.finish_eq_ok_iff.mp hfinish
    rw [hrq]
  · rw [callWithBody, Call.sent_run, h]
    rfl

/-- An upload that is sent back: the same stream, and nobody asked it. -/
example : ∃ op, (OperationDraft.ofSettings "/" [.payloadMembers true, .explicitPayload true,
      .streamingInput true, .streamingOutput true]).build = .ok op ∧
    let upload := Body.streaming ⟨[.chunk [1], .pending, .failure ⟨"reset"⟩], 0⟩
    let report := (Codec.bare .restJson).callWithBody op {} upload .discard
      fun rq => .ok ⟨⟨.ok, ∅⟩, rq.body⟩
    report.journal.read = [] ∧ report.outcome.toOption.bind (·.body) = some upload :=
  ⟨_, rfl, rfl, rfl⟩

end ServiceCodec
