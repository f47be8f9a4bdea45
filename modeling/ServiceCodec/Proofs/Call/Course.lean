import ServiceCodec.Call

/-!
# The courses a call can take

A call is six programs in one: there is no request to send, the request is not
delivered, the body of the response breaks off, the response is a failure, or
it is an output, read first or handed on unread. `Call.run` walks through them
with a journal of what was done so far; here each course has one equation for
the whole report it ends in. Whatever is said about calls is said about these
reports, and no later proof looks into the steps again.

The equations come from one lemma for each step, which says what the step
answers and what it leaves in the journal, and from two lemmas on sequences: a
step that answers hands its journal on, and a step that fails ends the call. No
step opens or closes the span it is taken in, so all of them leave their records
in the span that the call began with (`traceOf`).
-/

namespace ServiceCodec

namespace Call

variable {ε σ ρ α β : Type} {j j' : Journal}

/-- What a step answers and leaves in the journal, when it starts from `j`. -/
def after (step : CallStep ε α) (j : Journal) : Except (CallError ε) α × Journal :=
  step.run.run j

theorem after_pure (a : α) : after (pure a : CallStep ε α) j = (.ok a, j) := rfl

theorem after_bind_ok {step : CallStep ε α} {next : α → CallStep ε β} {a : α}
    (h : after step j = (.ok a, j')) : after (step >>= next) j = after (next a) j' := by
  simp only [after] at h ⊢
  rw [ExceptT.run_bind, StateT.run_bind, h]
  rfl

theorem after_bind_error {step : CallStep ε α} {next : α → CallStep ε β} {e : CallError ε}
    (h : after step j = (.error e, j')) : after (step >>= next) j = (.error e, j') := by
  simp only [after] at h ⊢
  rw [ExceptT.run_bind, StateT.run_bind, h]
  rfl

theorem after_emit (records : List Record) :
    after (emit records : CallStep ε Unit) j =
      (.ok (), { j with trace := j.trace ++ records.map (.recorded · j.within) }) := rfl

theorem after_inSpan {span : CallSpan} {step : CallStep ε α} {answer : Except (CallError ε) α}
    (h : after step { j with trace := j.trace ++ [.entered span], within := some span } =
      (answer, j')) :
    after (inSpan span step) j = (answer, { j' with within := j.within }) := by
  have hanswer := congrArg (fun p : Except (CallError ε) α × Journal =>
    (p.1, { p.2 with within := j.within })) h
  exact hanswer

section Send

variable {transport : Transport} {request : Request}

theorem after_send_ok {r : Response} (h : transport request = .ok r) :
    after (send transport request : CallStep ε Response) j =
      (.ok r, { j with sent := j.sent ++ [request] }) := by
  rw [send, h]
  rfl

theorem after_send_error {e : TransportError} (h : transport request = .error e) :
    after (send transport request : CallStep ε Response) j =
      (.error (.transport e), { j with sent := j.sent ++ [request] }) := by
  rw [send, h]
  rfl

end Send

section Collect

variable {body left : Body}

theorem after_collect_ok {bytes : Bytes} (h : body.collect = (.ok bytes, left)) :
    after (collect body : CallStep ε Bytes) j =
      (.ok bytes, { j with read := j.read ++ [left] }) := by
  rw [collect, h]
  rfl

theorem after_collect_error {e : BodyError} (h : body.collect = (.error e, left)) :
    after (collect body : CallStep ε Bytes) j =
      (.error (.body e), { j with read := j.read ++ [left] }) := by
  rw [collect, h]
  rfl

end Collect

section Respond

variable {c : Codec ε} {op : Operation} {b : OutputBuilder σ ρ} {r : Response} {left : Body}

/-- What a codec makes of a failed response of an operation, with its records. -/
def failureOf (c : Codec ε) (op : Operation) (r : Response) (bytes : Bytes) :
    ε × List Record :=
  (c.dispatcherFor op).dispatch ⟨r.toHead, bytes⟩

theorem after_fail_ok {bytes : Bytes} (h : r.body.collect = (.ok bytes, left)) :
    after (fail c op r : CallStep ε α) j =
      (.error (.service (failureOf c op r bytes).1),
        { j with
          read := j.read ++ [left]
          trace := j.trace ++ (.failureReceived r.status bytes.length ::
            (failureOf c op r bytes).2).map (.recorded · j.within) }) := by
  rw [fail, after_bind_ok (after_collect_ok h), after_bind_ok (after_emit _)]
  exact (after_bind_ok (after_emit _)).trans (by rw [List.append_assoc, ← List.map_append]; rfl)

theorem after_fail_error {e : BodyError} (h : r.body.collect = (.error e, left)) :
    after (fail c op r : CallStep ε α) j =
      (.error (.body e), { j with read := j.read ++ [left] }) := by
  rw [fail, after_bind_error (after_collect_error h)]

theorem after_handle (body : Body) :
    after (match op.handler.handle b ⟨r.toHead, body⟩ with
      | .ok received => return received
      | .error e => throw (.response e) : CallStep ε (Received ρ)) j =
      ((op.handler.handle b ⟨r.toHead, body⟩).mapError .response, j) := by
  cases op.handler.handle b ⟨r.toHead, body⟩ <;> rfl

theorem after_succeed_streamed (h : op.streamsOutput = true) :
    after (succeed op b r : CallStep ε (Received ρ)) j =
      ((op.handler.handle b r).mapError .response, j) := by
  rw [succeed, if_pos h, after_bind_ok (after_pure _)]
  exact after_handle r.body

theorem after_succeed_buffered {bytes : Bytes} (hop : op.streamsOutput = false)
    (h : r.body.collect = (.ok bytes, left)) :
    after (succeed op b r : CallStep ε (Received ρ)) j =
      ((op.handler.handle b ⟨r.toHead, Body.ofBytes bytes⟩).mapError .response,
        { j with read := j.read ++ [left] }) := by
  have hread : after (Body.ofBytes <$> collect r.body : CallStep ε Body) j =
      (.ok (Body.ofBytes bytes), { j with read := j.read ++ [left] }) := by
    rw [map_eq_pure_bind, after_bind_ok (after_collect_ok h)]
    rfl
  rw [succeed, if_neg (by rw [hop]; decide), after_bind_ok hread]
  exact after_handle (Body.ofBytes bytes)

theorem after_succeed_broken {e : BodyError} (hop : op.streamsOutput = false)
    (h : r.body.collect = (.error e, left)) :
    after (succeed op b r : CallStep ε (Received ρ)) j =
      (.error (.body e), { j with read := j.read ++ [left] }) := by
  have hread : after (Body.ofBytes <$> collect r.body : CallStep ε Body) j =
      (.error (.body e), { j with read := j.read ++ [left] }) := by
    rw [map_eq_pure_bind, after_bind_error (after_collect_error h)]
  rw [succeed, if_neg (by rw [hop]; decide), after_bind_error hread]

end Respond

/-! ## The six reports

What remains is to start from an empty journal. The failed response and the two
outputs are told apart by the status alone, before anything is read. -/

/-- The trace of a call of an operation that leaves these records. -/
def traceOf (op : Operation) (records : List Record) : List TraceEntry :=
  .entered (.ofOperation op) :: records.map (.recorded · (some (.ofOperation op)))

/-- The records of such a trace are those it was made of. -/
@[simp] theorem records_traceOf (op : Operation) (records : List Record) :
    (traceOf op records).filterMap TraceEntry.record? = records := by
  rw [traceOf, List.filterMap_cons_none rfl, List.filterMap_map]
  exact List.filterMap_some

section Run

variable {c : Codec ε} {op : Operation} {b : OutputBuilder σ ρ} {transport : Transport}
  {request : Request} {r : Response} {left : Body}

theorem steps_ok (c : Codec ε) (op : Operation) (b : OutputBuilder σ ρ) (transport : Transport)
    (request : Request) :
    steps c op b transport (.ok request) = send transport request >>= fun r =>
      if c.isFailure r.status then fail c op r else succeed op b r :=
  pure_bind request _

/-- Of a transport a call sees no more than its answer to the request. -/
theorem run_congr {transport' : Transport} (h : transport' request = transport request) :
    run c op b transport' (.ok request) = run c op b transport (.ok request) := by
  have hsteps : steps c op b transport' (.ok request) = steps c op b transport (.ok request) := by
    rw [steps_ok, steps_ok, send, send, h]
  rw [run, run, hsteps]

theorem run_of_after {sent : List Request} {read : List Body} {records : List Record}
    {outcome : Except (CallError ε) (Received ρ)}
    (h : after (send transport request >>= fun r =>
        if c.isFailure r.status then fail c op r else succeed op b r : CallStep ε (Received ρ))
        { trace := traceOf op [], within := some (.ofOperation op) } =
      (outcome, ⟨sent, read, traceOf op records, some (.ofOperation op)⟩)) :
    run c op b transport (.ok request) =
      ⟨{ sent, read, trace := traceOf op records }, outcome⟩ := by
  rw [← steps_ok] at h
  have hreport := congrArg (fun p => (⟨p.2, p.1⟩ : CallReport ε ρ)) (after_inSpan (j := {}) h)
  exact hreport

theorem run_of_rejected {e : RequestError} :
    run c op b transport (.error e) =
      ⟨{ trace := traceOf op [.requestRejected e] }, .error (.request e)⟩ := rfl

theorem run_of_undelivered {e : TransportError} (h : transport request = .error e) :
    run c op b transport (.ok request) =
      ⟨{ sent := [request], trace := traceOf op [] }, .error (.transport e)⟩ :=
  run_of_after (after_bind_error (after_send_error h))

theorem run_of_failed {bytes : Bytes} (h : transport request = .ok r)
    (hstatus : c.isFailure r.status = true) (hbody : r.body.collect = (.ok bytes, left)) :
    run c op b transport (.ok request) =
      ⟨{ sent := [request]
         read := [left]
         trace := traceOf op
           (.failureReceived r.status bytes.length :: (failureOf c op r bytes).2) },
        .error (.service (failureOf c op r bytes).1)⟩ := by
  refine run_of_after ?_
  rw [after_bind_ok (after_send_ok h), if_pos hstatus]
  exact after_fail_ok hbody

theorem run_of_streamed (h : transport request = .ok r)
    (hstatus : c.isFailure r.status = false) (hop : op.streamsOutput = true) :
    run c op b transport (.ok request) =
      ⟨{ sent := [request], trace := traceOf op [] },
        (op.handler.handle b r).mapError .response⟩ := by
  refine run_of_after ?_
  rw [after_bind_ok (after_send_ok h), if_neg (by rw [hstatus]; decide)]
  exact after_succeed_streamed hop

theorem run_of_buffered {bytes : Bytes} (h : transport request = .ok r)
    (hstatus : c.isFailure r.status = false) (hop : op.streamsOutput = false)
    (hbody : r.body.collect = (.ok bytes, left)) :
    run c op b transport (.ok request) =
      ⟨{ sent := [request], read := [left], trace := traceOf op [] },
        (op.handler.handle b ⟨r.toHead, Body.ofBytes bytes⟩).mapError .response⟩ := by
  refine run_of_after ?_
  rw [after_bind_ok (after_send_ok h), if_neg (by rw [hstatus]; decide)]
  exact after_succeed_buffered hop hbody

/-- A body that breaks off ends the call, whatever it was read for. -/
theorem run_of_broken {e : BodyError} (h : transport request = .ok r)
    (hread : c.isFailure r.status = true ∨ op.streamsOutput = false)
    (hbody : r.body.collect = (.error e, left)) :
    run c op b transport (.ok request) =
      ⟨{ sent := [request], read := [left], trace := traceOf op [] }, .error (.body e)⟩ := by
  refine run_of_after ?_
  rw [after_bind_ok (after_send_ok h)]
  cases hstatus : c.isFailure r.status with
  | true => exact after_fail_error hbody
  | false =>
      have hop : op.streamsOutput = false := hread.resolve_left (by rw [hstatus]; decide)
      exact after_succeed_broken hop hbody

end Run

/-- How a call with `request` to send can end in `report`. -/
inductive Course (c : Codec ε) (op : Operation) (b : OutputBuilder σ ρ)
    (transport : Transport) : Except RequestError Request → CallReport ε ρ → Prop where
  | rejected {e : RequestError} : Course c op b transport (.error e)
      ⟨{ trace := traceOf op [.requestRejected e] }, .error (.request e)⟩
  | undelivered {rq : Request} {e : TransportError} (h : transport rq = .error e) :
      Course c op b transport (.ok rq)
        ⟨{ sent := [rq], trace := traceOf op [] }, .error (.transport e)⟩
  | broken {rq : Request} {r : Response} {e : BodyError} {left : Body}
      (h : transport rq = .ok r)
      (hread : c.isFailure r.status = true ∨ op.streamsOutput = false)
      (hbody : r.body.collect = (.error e, left)) :
      Course c op b transport (.ok rq)
        ⟨{ sent := [rq], read := [left], trace := traceOf op [] }, .error (.body e)⟩
  | failed {rq : Request} {r : Response} {bytes : Bytes} {left : Body}
      (h : transport rq = .ok r) (hstatus : c.isFailure r.status = true)
      (hbody : r.body.collect = (.ok bytes, left)) :
      Course c op b transport (.ok rq)
        ⟨{ sent := [rq]
           read := [left]
           trace := traceOf op
             (.failureReceived r.status bytes.length :: (failureOf c op r bytes).2) },
          .error (.service (failureOf c op r bytes).1)⟩
  | streamed {rq : Request} {r : Response} (h : transport rq = .ok r)
      (hstatus : c.isFailure r.status = false) (hop : op.streamsOutput = true) :
      Course c op b transport (.ok rq)
        ⟨{ sent := [rq], trace := traceOf op [] }, (op.handler.handle b r).mapError .response⟩
  | buffered {rq : Request} {r : Response} {bytes : Bytes} {left : Body}
      (h : transport rq = .ok r) (hstatus : c.isFailure r.status = false)
      (hop : op.streamsOutput = false) (hbody : r.body.collect = (.ok bytes, left)) :
      Course c op b transport (.ok rq)
        ⟨{ sent := [rq], read := [left], trace := traceOf op [] },
          (op.handler.handle b ⟨r.toHead, Body.ofBytes bytes⟩).mapError .response⟩

theorem course_run (c : Codec ε) (op : Operation) (b : OutputBuilder σ ρ)
    (transport : Transport) (request : Except RequestError Request) :
    Course c op b transport request (run c op b transport request) := by
  cases request with
  | error e => exact .rejected
  | ok rq =>
      cases h : transport rq with
      | error e => rw [run_of_undelivered h]; exact .undelivered h
      | ok r =>
          rcases hbody : r.body.collect with ⟨content, left⟩
          cases hstatus : c.isFailure r.status with
          | true =>
              cases content with
              | error e =>
                  rw [run_of_broken h (.inl hstatus) hbody]
                  exact .broken h (.inl hstatus) hbody
              | ok bytes =>
                  rw [run_of_failed h hstatus hbody]
                  exact .failed h hstatus hbody
          | false =>
              cases hop : op.streamsOutput with
              | true =>
                  rw [run_of_streamed h hstatus hop]
                  exact .streamed h hstatus hop
              | false =>
                  cases content with
                  | error e =>
                      rw [run_of_broken h (.inr hop) hbody]
                      exact .broken h (.inr hop) hbody
                  | ok bytes =>
                      rw [run_of_buffered h hstatus hop hbody]
                      exact .buffered h hstatus hop hbody

end Call

end ServiceCodec
