import ServiceCodec.Proofs.Call.Law
import ServiceCodec.Proofs.Failure.Absorbed

/-!
# The trace of a call

A call leaves a record when it has no request to send, and when a failed response
has been read to its end; the dispatch of that response may add one more. Nothing
else leaves any: not a transport that fails, not a body that breaks off, not an
output that does not bind, not success. `Call.Traced` has one clause for each of
the two and one for all the rest.

The trace itself begins with the span of the call, and each record stands in it
with that span around. A record is left in whatever span is open where it is made,
so this says that the span is opened before anything else happens, that nothing on
the way leaves it, and that nothing is recorded behind it.

`Codec.absorbed_failures_recorded` adds what the records are good for. A response
that is absorbed leaves exactly one record of its own, with the status or the code
it was about, and since no two kinds of record share their message, the message
names the cause.
-/

namespace ServiceCodec

theorem Record.ctorIdx_eq_of_message_eq {x y : Record} (h : x.message = y.message) :
    x.ctorIdx = y.ctorIdx := by
  revert h
  cases x <;> cases y <;> simp only [message, Record.ctorIdx] <;> decide

namespace FailureDispatch

variable {ε : Type} {d : FailureDispatch ε} {r : FailedResponse}

/-- What a record says about where it came from: the status of the response, or the code in it. -/
def Concerns (d : FailureDispatch ε) (r : FailedResponse) (x : Record) : Prop :=
  ("status", r.status.code.repr) ∈ x.fields ∨
    ∃ object code, r.Names d.codes.field object code ∧ ("error_code", code) ∈ x.fields

theorem Ends.alone {failure : ε} {records : List Record} (h : d.Ends r failure records)
    {x : Record} (hx : x ∈ records) : records = [x] ∧ d.Concerns r x := by
  cases h with
  | modeled | blank | codeless => cases hx
  | malformed | notAnObject =>
      obtain rfl := List.mem_singleton.mp hx
      exact ⟨rfl, .inl List.mem_cons_self⟩
  | unregistered hnames | unbound hnames =>
      obtain rfl := List.mem_singleton.mp hx
      exact ⟨rfl, .inr ⟨_, _, hnames, List.mem_cons_self⟩⟩

end FailureDispatch

namespace Call

variable {ε σ ρ : Type}

/-- What is promised of the trace of a call that had `request` to send. -/
structure Traced (c : Codec ε) (op : Operation) (transport : Transport)
    (request : Except RequestError Request) (report : CallReport ε ρ) : Prop where
  within :
    let span : CallSpan := ⟨op.serviceName, op.identifier.getD "", op.method, op.template.path⟩
    report.journal.trace =
        .entered span :: report.journal.records.map (fun x => .recorded x (some span)) ∧
      report.journal.within = none
  rejected : ∀ e, request = .error e →
    report.journal.sent = [] ∧ report.journal.records = [.requestRejected e]
  failed : ∀ rq r bytes, request = .ok rq → transport rq = .ok r →
    c.threshold.code ≤ r.status.code → r.body.Delivers bytes →
      ∃ failure records,
        (FailureDispatch.mk c.catalog c.codes c.messages
          (if op.serviceName = "" then none else some op.serviceName)).Ends
            ⟨r.toHead, bytes⟩ failure records ∧
        report.outcome = .error (.service failure) ∧
        report.journal.records = .failureReceived r.status bytes.length :: records
  silent : ∀ rq, request = .ok rq →
    (∀ r bytes, transport rq = .ok r → c.threshold.code ≤ r.status.code →
      ¬ r.body.Delivers bytes) → report.journal.records = []

theorem ends_failureOf (c : Codec ε) (op : Operation) (r : Response) (bytes : Bytes) :
    (FailureDispatch.mk c.catalog c.codes c.messages
      (if op.serviceName = "" then none else some op.serviceName)).Ends ⟨r.toHead, bytes⟩
        (failureOf c op r bytes).1 (failureOf c op r bytes).2 := by
  rw [← dispatcherFor_eq]
  exact FailureDispatch.ends_dispatch ..

/-- Of the six courses of a call, the two that leave records are those of the clauses. -/
theorem Course.records {c : Codec ε} {op : Operation} {b : OutputBuilder σ ρ}
    {transport : Transport} {request : Except RequestError Request} {report : CallReport ε ρ}
    (h : Course c op b transport request report) :
    report.journal.records = [] ∨ (∃ e, request = .error e) ∨
      ∃ rq r bytes, request = .ok rq ∧ transport rq = .ok r ∧ c.isFailure r.status = true ∧
        r.body.Delivers bytes := by
  cases h with
  | undelivered | broken | streamed | buffered => exact .inl rfl
  | rejected => exact .inr (.inl ⟨_, rfl⟩)
  | failed h hstatus hbody =>
      have hcontent := Body.content_eq_ok_iff.mp (congrArg Prod.fst hbody)
      exact .inr (.inr ⟨_, _, _, rfl, h, hstatus, hcontent⟩)

/-- Each course ends in a trace of one span, which is closed again. -/
theorem Course.within {c : Codec ε} {op : Operation} {b : OutputBuilder σ ρ}
    {transport : Transport} {request : Except RequestError Request} {report : CallReport ε ρ}
    (h : Course c op b transport request report) :
    report.journal.trace = traceOf op report.journal.records ∧ report.journal.within = none := by
  cases h with
  | rejected | undelivered | broken | streamed | buffered => exact ⟨rfl, rfl⟩
  | failed => exact ⟨by rw [Journal.records, records_traceOf], rfl⟩

theorem traced_run (c : Codec ε) (op : Operation) (b : OutputBuilder σ ρ)
    (transport : Transport) (request : Except RequestError Request) :
    Traced c op transport request (run c op b transport request) where
  within := (course_run c op b transport request).within
  rejected e h := by
    rw [h, run_of_rejected]
    exact ⟨rfl, rfl⟩
  failed rq r bytes h hr hstatus hbody := by
    rw [h, run_of_failed hr (decide_eq_true hstatus) (Body.collect_of_delivers hbody)]
    exact ⟨_, _, ends_failureOf c op r bytes, rfl, records_traceOf ..⟩
  silent rq h hother := by
    rcases (course_run c op b transport request).records with
      hnil | ⟨e, herror⟩ | ⟨rq', r, bytes, hrq, hr, hstatus, hbody⟩
    · exact hnil
    · cases h.symm.trans herror
    · obtain rfl := Except.ok.inj (h.symm.trans hrq)
      exact absurd hbody (hother r bytes hr (of_decide_eq_true hstatus))

end Call

/-- Each failure that a dispatch absorbs leaves exactly one record, from whose message the cause
can be told and whose fields say what it was about; a dispatch that absorbs none leaves none. A
call adds its own record when its input makes no request and when it has read a failed response,
and has all its records within its span, which depends on the operation alone. -/
theorem Codec.absorbed_failures_recorded {ε σ ρ : Type} (c : Codec ε) :
    (∀ (label : Option String) (r : FailedResponse),
      let d : FailureDispatch ε := { c.dispatcher with serviceName := label }
      (∀ failure records, d.dispatch r = (failure, records) ↔ d.Ends r failure records) ∧
        ∀ x ∈ (d.dispatch r).2, (d.dispatch r).2 = [x] ∧ d.Concerns r x) ∧
    (∀ x y : Record, x.message = y.message → x.ctorIdx = y.ctorIdx) ∧
    ∀ (op : Operation) (input : Input) (body : Body) (b : OutputBuilder σ ρ)
      (transport : Transport),
      Call.Traced c op transport (c.marshal op input) (c.call op input b transport) ∧
        Call.Traced c op transport (c.marshalBody op input body)
          (c.callWithBody op input body b transport) :=
  ⟨fun _ r => ⟨fun _ _ => FailureDispatch.dispatch_eq_iff,
      fun _ hx => (FailureDispatch.ends_dispatch _ r).alone hx⟩,
    fun _ _ h => Record.ctorIdx_eq_of_message_eq h,
    fun _ _ _ _ _ => ⟨Call.traced_run .., Call.traced_run ..⟩⟩

end ServiceCodec
