import ServiceCodec.Proofs.Call.Law

/-!
# How a response is delivered does not matter

A call that reads the body of its response, to find out about a failure or to
build an output, sees of the body no more than its content. So bodies that hold
the same bytes lead to the same outcome, be they absent, buffered, or cut into
pieces with pauses between them, and a body that breaks off leads to its failure
and to nothing else.

`Call.run_of_same_content` is the reason: two responses with one head whose
bodies have one content take the same course. `Codec.call_ignores_delivery` is
what callers see of it, for both ways to call an operation.
-/

namespace ServiceCodec

/-- The outcome of a response with this status takes reading its body: it is a
failure, or an output that is not streamed. -/
def Codec.ReadsBody {ε : Type} (c : Codec ε) (op : Operation) (status : StatusCode) : Prop :=
  c.threshold.code ≤ status.code ∨ op.streamsOutput = false

namespace Call

variable {ε σ ρ : Type} {c : Codec ε} {op : Operation} {b : OutputBuilder σ ρ}

/-- What is promised of the reports that a call with `request` to send ends in, by
the transport that it is given. -/
structure IgnoresDelivery (c : Codec ε) (op : Operation)
    (request : Except RequestError Request) (report : Transport → CallReport ε ρ) : Prop where
  delivered : ∀ (head : Head) (body body' : Body) (bytes : Bytes)
    (transport transport' : Transport), c.ReadsBody op head.status →
      body.Delivers bytes → body'.Delivers bytes →
      (∀ rq, request = .ok rq →
        transport rq = .ok ⟨head, body⟩ ∧ transport' rq = .ok ⟨head, body'⟩) →
      (report transport).outcome = (report transport').outcome ∧
        (report transport).journal.records = (report transport').journal.records
  broken : ∀ (head : Head) (body : Body) (e : BodyError) (transport : Transport) (rq : Request),
    c.ReadsBody op head.status → body.BreaksOff e → request = .ok rq →
      transport rq = .ok ⟨head, body⟩ → (report transport).outcome = .error (.body e)

theorem isFailure_or_buffered {status : StatusCode} (h : c.ReadsBody op status) :
    c.isFailure status = true ∨ op.streamsOutput = false := h.imp_left decide_eq_true

theorem run_of_same_content {transport transport' : Transport} {rq : Request} {head : Head}
    {body body' : Body} (hread : c.ReadsBody op head.status)
    (hcontent : body.content = body'.content) (h : transport rq = .ok ⟨head, body⟩)
    (h' : transport' rq = .ok ⟨head, body'⟩) :
    (run c op b transport (.ok rq)).outcome = (run c op b transport' (.ok rq)).outcome ∧
      (run c op b transport (.ok rq)).journal.records =
        (run c op b transport' (.ok rq)).journal.records := by
  have hreads := isFailure_or_buffered hread
  -- The course is decided by the content and then by the status; the reports differ at
  -- most in what reading left of the bodies.
  cases hbytes : body'.content with
  | error e =>
      have hleft := Body.collect_of_content (hcontent.trans hbytes)
      have hleft' := Body.collect_of_content hbytes
      rw [run_of_broken h hreads hleft, run_of_broken h' hreads hleft']
      exact ⟨rfl, rfl⟩
  | ok bytes =>
      have hleft := Body.collect_of_content (hcontent.trans hbytes)
      have hleft' := Body.collect_of_content hbytes
      cases hstatus : c.isFailure head.status with
      | true =>
          rw [run_of_failed h hstatus hleft, run_of_failed h' hstatus hleft']
          exact ⟨rfl, rfl⟩
      | false =>
          have hop : op.streamsOutput = false := hreads.resolve_left (by simp [hstatus])
          rw [run_of_buffered h hstatus hop hleft, run_of_buffered h' hstatus hop hleft']
          exact ⟨rfl, rfl⟩

theorem ignoresDelivery_run (request : Except RequestError Request) :
    IgnoresDelivery c op request fun transport => run c op b transport request where
  delivered head body body' bytes transport transport' hread hbody hbody' hanswers := by
    cases request with
    | error e => exact ⟨rfl, rfl⟩
    | ok rq =>
        obtain ⟨h, h'⟩ := hanswers rq rfl
        have hcontent : body.content = body'.content := by
          rw [Body.content_of_delivers hbody, Body.content_of_delivers hbody']
        exact run_of_same_content hread hcontent h h'
  broken head body e transport rq hread hbody hrequest h := by
    have hleft := Body.collect_of_breaksOff hbody
    rw [hrequest, run_of_broken h (isFailure_or_buffered hread) hleft]

end Call

/-- However an operation is called, its outcome is that of the bytes in the
response, or of the first failure of a body that has to be read and breaks off. -/
theorem Codec.call_ignores_delivery {ε σ ρ : Type} (c : Codec ε) (op : Operation)
    (input : Input) (given : Body) (b : OutputBuilder σ ρ) :
    Call.IgnoresDelivery c op (c.marshal op input) (c.call op input b) ∧
      Call.IgnoresDelivery c op (c.marshalBody op input given)
        (c.callWithBody op input given b) :=
  ⟨Call.ignoresDelivery_run _, Call.ignoresDelivery_run _⟩

end ServiceCodec
