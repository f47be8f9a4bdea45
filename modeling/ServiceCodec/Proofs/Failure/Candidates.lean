import ServiceCodec.Proofs.Failure.Code
import ServiceCodec.Proofs.First
import ServiceCodec.Response.Output

/-!
# Candidates that are passed over

Identifier, code and message of a failure are each looked for in several
places. The place that counts should be the first that holds something of use,
be there unusable ones before it or not.

Code and message are found in this way. The identifier of the request is not.
There the first header that is present is chosen before it is read, so when its
value is no text it `Hides` whatever the headers behind it say.
-/

namespace ServiceCodec

/-! ## Messages -/

namespace MessageReader

/-- A field of the body holds the text. -/
def Says (body : JsonObject) (field text : String) : Prop := body.find? field = some (.string text)

theorem bind_text?_eq_some_iff (body : JsonObject) (field text : String) :
    (body.find? field).bind (·.text?) = some text ↔ Says body field text := by
  simp only [Option.bind_eq_some_iff, Json.text?_eq_some_iff, exists_eq_right, Says]

theorem ofFields_eq_some_iff {fields : List String} {body : JsonObject}
    {message : String} :
    ofFields fields body = some message ↔ First (Says body) fields message :=
  ⟨First.of_findSome? (bind_text?_eq_some_iff body),
    First.findSome?_eq_some (bind_text?_eq_some_iff body)⟩

theorem ofFields_eq_none_iff {fields : List String} {body : JsonObject} :
    ofFields fields body = none ↔ ∀ field ∈ fields, ∀ text, ¬ Says body field text := by
  rw [Option.eq_none_iff_forall_ne_some]
  constructor
  · intro hnone field hfield text hsays
    obtain ⟨message, hfirst⟩ := First.exists_iff.mpr ⟨field, hfield, text, hsays⟩
    exact hnone message (ofFields_eq_some_iff.mpr hfirst)
  · intro hsilent message hsome
    obtain ⟨field, hfield, text, hsays⟩ :=
      First.exists_iff.mp ⟨message, ofFields_eq_some_iff.mp hsome⟩
    exact hsilent field hfield text hsays

end MessageReader

/-! ## Identifiers -/

namespace Headers

/-- The first value under a name is the text. -/
def Reads (headers : Headers) (name : HeaderName) (text : String) : Prop :=
  ∃ v, headers.first? name = some v ∧ v.text? = some text

/-- The first of the headers that is present cannot be read, and one behind it can. -/
inductive Hides (headers : Headers) : List HeaderName → Prop where
  | here {name : HeaderName} {names : List HeaderName} {v : HeaderValue}
      (hv : headers.first? name = some v) (htext : v.text? = none)
      (h : ∃ id, First headers.Reads names id) : Hides headers (name :: names)
  | there {name : HeaderName} {names : List HeaderName} (habsent : headers.first? name = none)
      (h : Hides headers names) : Hides headers (name :: names)

/-- The first value of the first header that is present, if it is text. -/
def textOfPresent? (headers : Headers) (names : List HeaderName) : Option String :=
  (names.findSome? headers.first?).bind (·.text?)

section Names

variable {headers : Headers} {name : HeaderName} {names : List HeaderName} {v : HeaderValue}

theorem textOfPresent?_cons_of_none (h : headers.first? name = none) :
    headers.textOfPresent? (name :: names) = headers.textOfPresent? names := by
  rw [textOfPresent?, List.findSome?_cons, h]
  rfl

theorem textOfPresent?_cons_of_some (h : headers.first? name = some v) :
    headers.textOfPresent? (name :: names) = v.text? := by
  rw [textOfPresent?, List.findSome?_cons, h]
  rfl

theorem not_reads_of_absent (h : headers.first? name = none) (text : String) :
    ¬ headers.Reads name text := by
  intro ⟨v, hv, _⟩
  rw [h] at hv
  cases hv

theorem reads_iff_of_present (h : headers.first? name = some v) (text : String) :
    headers.Reads name text ↔ v.text? = some text := by
  constructor
  · intro ⟨v', hv', htext⟩
    cases h.symm.trans hv'
    exact htext
  · exact fun htext => ⟨v, h, htext⟩

theorem Hides.textOfPresent? (h : Hides headers names) : headers.textOfPresent? names = none := by
  induction h with
  | here hv htext _ => rw [textOfPresent?_cons_of_some hv, htext]
  | there habsent _ ih => rw [textOfPresent?_cons_of_none habsent, ih]

theorem Hides.exists_first (h : Hides headers names) :
    ∃ id, First headers.Reads names id := by
  induction h with
  | here hv htext h =>
      obtain ⟨id, hid⟩ := h
      refine ⟨id, .there (fun text hread => ?_) hid⟩
      rw [reads_iff_of_present hv, htext] at hread
      cases hread
  | there habsent _ ih =>
      obtain ⟨id, hid⟩ := ih
      exact ⟨id, .there (not_reads_of_absent habsent) hid⟩

theorem textOfPresent?_eq_some_iff (h : ¬ Hides headers names) (id : String) :
    headers.textOfPresent? names = some id ↔ First headers.Reads names id := by
  induction names with
  | nil =>
      constructor
      · intro hsome
        cases hsome
      · intro hfirst
        cases hfirst
  | cons name names ih =>
      cases hv : headers.first? name with
      | none =>
          rw [textOfPresent?_cons_of_none hv, ih fun hhides => h (.there hv hhides),
            First.cons_iff_of_skip (not_reads_of_absent hv)]
      | some v =>
          rw [textOfPresent?_cons_of_some hv]
          constructor
          · exact fun htext => .here ((reads_iff_of_present hv id).mpr htext)
          · intro hfirst
            cases hfirst with
            | here hread => exact (reads_iff_of_present hv id).mp hread
            | there hskip hrest =>
                have htext : v.text? = none := Option.eq_none_iff_forall_ne_some.mpr
                  fun text htext => hskip text ((reads_iff_of_present hv text).mpr htext)
                exact absurd (.here hv htext ⟨id, hrest⟩) h

end Names

end Headers

/-- Code and message are what the first usable candidate says, for every response whose body is an
object. So is the identifier, unless an unreadable header hides one that could be read; then there
is none. -/
theorem usable_candidates_count_iff (headers : Headers) (body : JsonObject) :
    ((∀ id, requestId? headers = some id ↔
        First headers.Reads HeaderName.requestIds id) ↔
      ¬ headers.Hides HeaderName.requestIds) ∧
    (headers.Hides HeaderName.requestIds → requestId? headers = none) ∧
    (∀ field code, CodeReader.read ⟨field⟩ headers (some body) = some code ↔
      CodeReader.Sent field headers body code) ∧
    ∀ fields,
      (∀ message, MessageReader.ofFields fields body = some message ↔
        First (MessageReader.Says body) fields message) ∧
      (MessageReader.ofFields fields body = none ↔
        ∀ field ∈ fields, ∀ text, ¬ MessageReader.Says body field text) := by
  refine ⟨⟨?_, ?_⟩, fun h => h.textOfPresent?, fun field code => CodeReader.read_eq_some_iff,
    fun fields => ⟨fun message => MessageReader.ofFields_eq_some_iff,
      MessageReader.ofFields_eq_none_iff⟩⟩
  · intro hfound hhides
    obtain ⟨id, hid⟩ := hhides.exists_first
    have hnone : requestId? headers = none := hhides.textOfPresent?
    rw [(hfound id).mpr hid] at hnone
    cases hnone
  · exact fun h id => Headers.textOfPresent?_eq_some_iff h id

/-- An identifier that is no text hides the one that is. -/
theorem identifier_hidden :
    ∃ (headers : Headers) (v w : HeaderValue),
      headers.values ⟨"x-amzn-requestid"⟩ = [v] ∧ v.text? = none ∧
      headers.values ⟨"x-amz-request-id"⟩ = [w] ∧ w.text? = some "s3" ∧
      requestId? headers = none := by
  refine ⟨Headers.append (Headers.append ∅ ⟨"x-amzn-requestid"⟩ ⟨bytesOf "é", by decide⟩)
    ⟨"x-amz-request-id"⟩ ⟨bytesOf "s3", by decide⟩, ⟨bytesOf "é", by decide⟩,
    ⟨bytesOf "s3", by decide⟩, ?_⟩
  decide +kernel

end ServiceCodec
