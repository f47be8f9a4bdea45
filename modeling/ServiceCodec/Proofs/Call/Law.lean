import ServiceCodec.Proofs.Body.Content
import ServiceCodec.Proofs.Call.Course

/-!
# What a call does, whatever happens on the way

`Call.Lawful` is the promise of a call, one clause for each thing that can
happen: what was sent, and which of the five errors or which output came of it.
The clauses name the response's body by the bytes that it delivers, or by the
failure that it breaks off with, and the status by its number, so that they read
without the steps between them.

Two clauses are about what does not happen. A call sees no more of its transport
than the answer to its request, so that with no request it sees nothing of it.
And when a body breaks off, the report would be the same with any other catalog,
readers and builder: nothing of them was run.

`Codec.call_lawful` adds which of the two ways to call an operation can send
anything at all: the one that its description asks for.
-/

namespace ServiceCodec

namespace Call

variable {ε σ ρ : Type}

/-- What is promised of the report of a call that had `request` to send. -/
structure Lawful (c : Codec ε) (op : Operation) (b : OutputBuilder σ ρ)
    (transport : Transport) (request : Except RequestError Request)
    (report : CallReport ε ρ) : Prop where
  sent : report.journal.sent = request.toOption.toList
  asked : ∀ transport' : Transport,
    (∀ rq, request = .ok rq → transport' rq = transport rq) →
      run c op b transport' request = report
  rejected : ∀ e, request = .error e → report.outcome = .error (.request e)
  undelivered : ∀ rq e, request = .ok rq → transport rq = .error e →
    report.outcome = .error (.transport e)
  failed : ∀ rq r bytes, request = .ok rq → transport rq = .ok r →
    c.threshold.code ≤ r.status.code → r.body.Delivers bytes →
      report.outcome = .error (.service
        ((FailureDispatch.mk c.catalog c.codes c.messages
          (if op.serviceName = "" then none else some op.serviceName)).dispatch
            ⟨r.toHead, bytes⟩).1)
  streamed : ∀ rq r, request = .ok rq → transport rq = .ok r →
    r.status.code < c.threshold.code → op.streamsOutput = true →
      report.outcome =
        ((ResponseHandler.mk true op.jsonOutput).handle b r).mapError .response
  buffered : ∀ rq r bytes, request = .ok rq → transport rq = .ok r →
    r.status.code < c.threshold.code → op.streamsOutput = false →
      r.body.Delivers bytes →
        report.outcome = ((ResponseHandler.mk false op.jsonOutput).handle b
          ⟨r.toHead, .ofBytes bytes⟩).mapError .response
  broken : ∀ rq r e, request = .ok rq → transport rq = .ok r →
    c.threshold.code ≤ r.status.code ∨ op.streamsOutput = false →
      r.body.BreaksOff e →
        report.outcome = .error (.body e) ∧ report.journal.records = [] ∧
          ∀ (σ' : Type) (c' : Codec ε) (b' : OutputBuilder σ' ρ),
            c'.threshold = c.threshold → run c' op b' transport request = report

theorem sent_run (c : Codec ε) (op : Operation) (b : OutputBuilder σ ρ)
    (transport : Transport) (request : Except RequestError Request) :
    (run c op b transport request).journal.sent = request.toOption.toList := by
  have hcourse := course_run c op b transport request
  generalize run c op b transport request = report at hcourse
  cases hcourse <;> rfl

theorem isFailure_eq_false {c : Codec ε} {status : StatusCode}
    (h : status.code < c.threshold.code) : c.isFailure status = false := by
  rw [Codec.isFailure, decide_eq_false_iff_not]
  omega

theorem dispatcherFor_eq (c : Codec ε) (op : Operation) :
    c.dispatcherFor op = FailureDispatch.mk c.catalog c.codes c.messages
      (if op.serviceName = "" then none else some op.serviceName) := by
  rw [Codec.dispatcherFor]
  by_cases hname : op.serviceName = ""
  · rw [if_pos (by rw [hname]; rfl), if_pos hname]
    rfl
  · rw [if_neg (by simpa using hname), if_neg hname]
    rfl

theorem lawful_run (c : Codec ε) (op : Operation) (b : OutputBuilder σ ρ)
    (transport : Transport) (request : Except RequestError Request) :
    Lawful c op b transport request (run c op b transport request) where
  sent := sent_run c op b transport request
  asked transport' h := by
    cases request with
    | error e => rfl
    | ok rq => exact run_congr (h rq rfl)
  rejected e h := by rw [h, run_of_rejected]
  undelivered rq e h herror := by rw [h, run_of_undelivered herror]
  failed rq r bytes h hr hstatus hbody := by
    rw [h, run_of_failed hr (decide_eq_true hstatus) (Body.collect_of_delivers hbody), failureOf,
      dispatcherFor_eq]
  streamed rq r h hr hstatus hop := by
    rw [h, run_of_streamed hr (isFailure_eq_false hstatus) hop, Operation.handler, hop]
  buffered rq r bytes h hr hstatus hop hbody := by
    rw [h, run_of_buffered hr (isFailure_eq_false hstatus) hop (Body.collect_of_delivers hbody),
      Operation.handler, hop]
  broken rq r e h hr hread hbody := by
    have hcollect := Body.collect_of_breaksOff hbody
    have hreads : ∀ c' : Codec ε, c'.threshold = c.threshold →
        c'.isFailure r.status = true ∨ op.streamsOutput = false := fun c' hc =>
      hread.imp_left fun hle => decide_eq_true (hc ▸ hle)
    subst h
    rw [run_of_broken hr (hreads c rfl) hcollect]
    refine ⟨rfl, rfl, fun σ' c' b' hc => ?_⟩
    rw [run_of_broken hr (hreads c' hc) hcollect]

end Call

namespace Codec

variable {ε σ ρ : Type}

theorem marshal_of_stream {c : Codec ε} {op : Operation} (h : op.content.isStream = true)
    (input : Input) : c.marshal op input = .error .bodyRequired := by
  rw [marshal, RequestStyle.marshal, if_pos h]
  rfl

theorem marshalBody_of_not_stream {c : Codec ε} {op : Operation}
    (h : op.content.isStream = false) (input : Input) (body : Body) :
    c.marshalBody op input body = .error .bodyUnexpected := by
  rw [marshalBody, RequestStyle.marshalBody, h]
  rfl

/-- A call keeps its promise however it is made, and of the two ways to call an
operation only one can send anything, whatever the input. -/
theorem call_lawful (c : Codec ε) (op : Operation) (input : Input) (body : Body)
    (b : OutputBuilder σ ρ) (transport : Transport) :
    Call.Lawful c op b transport (c.marshal op input) (c.call op input b transport) ∧
      Call.Lawful c op b transport (c.marshalBody op input body)
        (c.callWithBody op input body b transport) ∧
      ((c.call op input b transport).journal.sent ≠ [] → op.content.isStream = false) ∧
      ((c.callWithBody op input body b transport).journal.sent ≠ [] →
        op.content.isStream = true) := by
  refine ⟨Call.lawful_run .., Call.lawful_run .., fun hsent => ?_, fun hsent => ?_⟩
  · cases hstream : op.content.isStream with
    | false => rfl
    | true =>
        rw [call, Call.sent_run, marshal_of_stream hstream] at hsent
        exact absurd rfl hsent
  · cases hstream : op.content.isStream with
    | true => rfl
    | false =>
        rw [callWithBody, Call.sent_run, marshalBody_of_not_stream hstream] at hsent
        exact absurd rfl hsent

end Codec

end ServiceCodec
