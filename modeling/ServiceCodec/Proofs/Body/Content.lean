import ServiceCodec.Body

/-!
# What a body holds, however it comes

A stream brings its bytes in pieces and with pauses, and a body may as well be
buffered or absent. `Body.Delivers` says what bytes a body holds in the end, and
`Body.BreaksOff` which failure ends it before, both read off the events that a
stream still has. Collecting a body answers just this (`content_eq_ok_iff`,
`content_eq_error_iff`): of the pieces only their bytes count, of the failures
only the first, and nothing that follows a failure.

Collecting walks through the events, so what it answers is found by induction on
them. That it answers nothing else holds because the two descriptions leave out
no body: a stream has a first failure or none.
-/

namespace ServiceCodec

/-- The bytes that an event brings. -/
def StreamEvent.bytes : StreamEvent → Bytes
  | chunk bytes => bytes
  | pending | failure _ => []

namespace ByteStream

theorem unbroken_or_broken (events : List StreamEvent) :
    (∀ e, .failure e ∉ events) ∨
      ∃ before e rest, events = before ++ .failure e :: rest ∧ ∀ e', .failure e' ∉ before := by
  induction events with
  | nil => exact .inl fun e => List.not_mem_nil
  | cons event events ih =>
      cases event with
      | failure e => exact .inr ⟨[], e, events, rfl, fun e' => List.not_mem_nil⟩
      | pending | chunk bytes =>
          rcases ih with hwhole | ⟨before, e, rest, hevents, hbefore⟩
          · exact .inl fun e => by simp [hwhole e]
          · exact .inr ⟨_ :: before, e, rest, by rw [hevents]; rfl, fun e' => by simp [hbefore e']⟩

theorem drain_of_unbroken {events : List StreamEvent} (h : ∀ e, .failure e ∉ events)
    (polls : Nat) : drain events polls =
      (.ok (events.flatMap StreamEvent.bytes), ⟨[], polls + events.length + 1⟩) := by
  -- A pause only counts a poll, so the count stays free in the induction.
  induction events generalizing polls with
  | nil => rfl
  | cons event rest ih =>
      have hrest : ∀ e, .failure e ∉ rest := fun e he => h e (List.mem_cons_of_mem event he)
      have hcount : polls + 1 + rest.length + 1 = polls + (rest.length + 1) + 1 := by omega
      cases event with
      | pending => simp [drain, ih hrest, StreamEvent.bytes, hcount]
      | chunk bytes => simp [drain, ih hrest, StreamEvent.bytes, Except.map, hcount]
      | failure e => exact absurd List.mem_cons_self (h e)

theorem drain_of_broken {before rest : List StreamEvent} {e : BodyError}
    (h : ∀ e', .failure e' ∉ before) (polls : Nat) :
    (drain (before ++ .failure e :: rest) polls).1 = .error e := by
  induction before generalizing polls with
  | nil => rfl
  | cons event before ih =>
      have hbefore : ∀ e', .failure e' ∉ before :=
        fun e' he => h e' (List.mem_cons_of_mem event he)
      cases event with
      | pending => exact ih hbefore (polls + 1)
      | chunk bytes => simp [drain, ih hbefore, Except.map]
      | failure e' => exact absurd List.mem_cons_self (h e')

end ByteStream

namespace Body

/-- The body holds these bytes and ends behind them. -/
inductive Delivers : Body → Bytes → Prop where
  | absent : Delivers empty []
  | taken : Delivers (full none) []
  | buffered (bytes : Bytes) : Delivers (full (some bytes)) bytes
  | streamed {events : List StreamEvent} (h : ∀ e, .failure e ∉ events) (polls : Nat) :
      Delivers (streaming ⟨events, polls⟩) (events.flatMap StreamEvent.bytes)

/-- The body is a stream that fails, and `e` is its first failure. -/
inductive BreaksOff : Body → BodyError → Prop where
  | streamed {before rest : List StreamEvent} {e : BodyError}
      (h : ∀ e', .failure e' ∉ before) (polls : Nat) :
      BreaksOff (streaming ⟨before ++ .failure e :: rest, polls⟩) e

variable {body : Body} {bytes : Bytes} {e : BodyError}

theorem delivers_or_breaksOff (body : Body) :
    (∃ bytes, body.Delivers bytes) ∨ ∃ e, body.BreaksOff e := by
  match body with
  | empty => exact .inl ⟨_, .absent⟩
  | full none => exact .inl ⟨_, .taken⟩
  | full (some bytes) => exact .inl ⟨_, .buffered bytes⟩
  | streaming ⟨events, polls⟩ =>
      rcases ByteStream.unbroken_or_broken events with h | ⟨before, e, rest, rfl, h⟩
      · exact .inl ⟨_, .streamed h polls⟩
      · exact .inr ⟨e, .streamed h polls⟩

theorem content_of_delivers (h : body.Delivers bytes) : body.content = .ok bytes := by
  cases h with
  | absent => rfl
  | taken => rfl
  | buffered => rfl
  | streamed h polls => exact congrArg Prod.fst (ByteStream.drain_of_unbroken h polls)

theorem content_of_breaksOff (h : body.BreaksOff e) : body.content = .error e := by
  cases h with
  | streamed h polls => exact ByteStream.drain_of_broken h polls

theorem content_eq_ok_iff : body.content = .ok bytes ↔ body.Delivers bytes := by
  refine ⟨fun hcontent => ?_, content_of_delivers⟩
  rcases body.delivers_or_breaksOff with ⟨bytes', h⟩ | ⟨e, h⟩
  · have hsame := hcontent.symm.trans (content_of_delivers h)
    cases hsame
    exact h
  · have habsurd := hcontent.symm.trans (content_of_breaksOff h)
    cases habsurd

theorem content_eq_error_iff : body.content = .error e ↔ body.BreaksOff e := by
  refine ⟨fun hcontent => ?_, content_of_breaksOff⟩
  rcases body.delivers_or_breaksOff with ⟨bytes, h⟩ | ⟨e', h⟩
  · have habsurd := hcontent.symm.trans (content_of_delivers h)
    cases habsurd
  · have hsame := hcontent.symm.trans (content_of_breaksOff h)
    cases hsame
    exact h

/-- The content is what collecting answers, whatever it leaves. -/
theorem collect_of_content {content : Except BodyError Bytes} (h : body.content = content) :
    body.collect = (content, body.collect.2) := by
  rw [← h, Body.content]

theorem collect_of_delivers (h : body.Delivers bytes) :
    body.collect = (.ok bytes, body.collect.2) :=
  collect_of_content (content_of_delivers h)

theorem collect_of_breaksOff (h : body.BreaksOff e) :
    body.collect = (.error e, body.collect.2) :=
  collect_of_content (content_of_breaksOff h)

example : (streaming ⟨[.chunk [1], .pending, .chunk [], .chunk [2, 3]], 0⟩).Delivers [1, 2, 3] :=
  content_eq_ok_iff.mp rfl

end Body

end ServiceCodec
