import ServiceCodec.Proofs.Body.Content

/-!
# Bodies under repeated polls

Whoever sends a body asks it for one frame after the other, and between two
polls believes what else it says: how many bytes are still to come, that nothing
comes any more, or that its bytes can be had at once. `Body.advance` is the body
that a number of polls leaves and `Body.answers` is what they were answered, so
that all of this is said of the body at any moment of such a run.

Each statement is one about a single poll, carried along the run by induction on
the number of polls. A poll moves bytes from the body into the answer and loses
none (`delivers_poll`). A body that is no stream is at its end after one poll
(`isEndStream_poll`), and at the end a poll changes nothing
(`poll_of_isEndStream`). A stream answers with its next event, whatever that is,
so its run is read off its events (`answers_streaming`, `advance_streaming`).

Collecting is such a run too, the one that goes on until the body answers that
it is finished (`readToEnd_collect`).
-/

namespace ServiceCodec

/-- The bytes that an answer brings. -/
def Poll.bytes : Poll → Bytes
  | data bytes => bytes
  | pending | finished | failed _ => []

/-- How a stream answers with one of its events. -/
def StreamEvent.answer : StreamEvent → Poll
  | pending => .pending
  | chunk bytes => .data bytes
  | failure e => .failed e

namespace Body

/-- The body after so many polls. -/
def advance : Body → Nat → Body
  | b, 0 => b
  | b, k + 1 => b.poll.2.advance k

/-- The answers to so many polls. -/
def answers : Body → Nat → List Poll
  | _, 0 => []
  | b, k + 1 => b.poll.1 :: b.poll.2.answers k

variable {b : Body} {bytes : Bytes}

/-! ## One poll -/

theorem isStreaming_poll (b : Body) : b.poll.2.isStreaming = b.isStreaming := by
  match b with
  | empty | full none | full (some _) | streaming _ => rfl

theorem delivers_poll (h : b.Delivers bytes) :
    ∃ rest, b.poll.2.Delivers rest ∧ b.poll.1.bytes ++ rest = bytes := by
  cases h with
  | absent => exact ⟨[], .absent, rfl⟩
  | taken => exact ⟨[], .taken, rfl⟩
  | buffered bytes => exact ⟨[], .taken, List.append_nil bytes⟩
  | @streamed events h polls =>
      cases events with
      | nil => exact ⟨[], .streamed h (polls + 1), rfl⟩
      | cons event rest =>
          have hrest : ∀ e, .failure e ∉ rest := fun e he => h e (List.mem_cons_of_mem event he)
          refine ⟨rest.flatMap StreamEvent.bytes, ?_, ?_⟩
          · cases event <;> exact .streamed hrest (polls + 1)
          · cases event with
            | pending | chunk _ => rfl
            | failure e => exact absurd List.mem_cons_self (h e)

theorem isEndStream_poll (h : b.isStreaming = false) : b.poll.2.isEndStream = true := by
  match b with
  | empty | full none | full (some _) => rfl
  | streaming _ => cases h

theorem poll_of_isEndStream (h : b.isEndStream = true) : b.poll = (.finished, b) := by
  match b with
  | empty | full none => rfl
  | full (some _) | streaming _ => cases h

theorem isEndStream_of_poll (hstream : b.isStreaming = false) (h : b.poll.1 = .finished) :
    b.isEndStream = true := by
  match b with
  | empty | full none => rfl
  | full (some _) => cases h
  | streaming _ => cases hstream

/-! ## The body between two polls -/

theorem buffered_of_delivers (hstream : b.isStreaming = false) (h : b.Delivers bytes) :
    b.buffered = .ok bytes := by
  cases h with
  | absent | taken | buffered => rfl
  | streamed => cases hstream

theorem exact_sizeHint (hstream : b.isStreaming = false) (h : b.Delivers bytes) :
    SizeHint.exact? b.sizeHint = some bytes.length := by
  cases h with
  | absent | taken | buffered => simp [sizeHint, SizeHint.exact?]
  | streamed => cases hstream

theorem eq_nil_of_isEndStream (hend : b.isEndStream = true) (h : b.Delivers bytes) :
    bytes = [] := by
  cases h with
  | absent | taken => rfl
  | buffered | streamed => cases hend

/-! ## Runs of polls -/

theorem isStreaming_advance (b : Body) (k : Nat) :
    (b.advance k).isStreaming = b.isStreaming := by
  induction k generalizing b with
  | zero => rfl
  | succ k ih => exact (ih b.poll.2).trans b.isStreaming_poll

theorem delivers_advance (h : b.Delivers bytes) (k : Nat) :
    ∃ rest, (b.advance k).Delivers rest ∧ (b.answers k).flatMap Poll.bytes ++ rest = bytes := by
  induction k generalizing b bytes with
  | zero => exact ⟨bytes, h, rfl⟩
  | succ k ih =>
      obtain ⟨left, hleft, hpoll⟩ := delivers_poll h
      obtain ⟨rest, hrest, hrun⟩ := ih hleft
      refine ⟨rest, hrest, ?_⟩
      rw [answers, List.flatMap_cons, List.append_assoc, hrun, hpoll]

theorem advance_of_isEndStream (h : b.isEndStream = true) (k : Nat) : b.advance k = b := by
  induction k with
  | zero => rfl
  | succ k ih => rw [advance, poll_of_isEndStream h]; exact ih

theorem answers_of_isEndStream (h : b.isEndStream = true) (k : Nat) :
    b.answers k = List.replicate k .finished := by
  induction k with
  | zero => rfl
  | succ k ih => rw [answers, poll_of_isEndStream h, ih]; rfl

theorem isEndStream_advance (h : b.isStreaming = false) (k : Nat) :
    (b.advance (k + 1)).isEndStream = true := by
  have hend := isEndStream_poll h
  rw [advance, advance_of_isEndStream hend]
  exact hend

theorem answers_succ (h : b.isStreaming = false) (k : Nat) :
    b.answers (k + 1) = b.poll.1 :: List.replicate k .finished := by
  rw [answers, answers_of_isEndStream (isEndStream_poll h)]

theorem advance_streaming (s : ByteStream) (k : Nat) :
    (streaming s).advance k = streaming ⟨s.upcoming.drop k, s.polls + k⟩ := by
  induction k generalizing s with
  | zero => rfl
  | succ k ih =>
      obtain ⟨events, polls⟩ := s
      have hcount : polls + 1 + k = polls + (k + 1) := by omega
      match events with
      | [] => exact (ih ⟨[], polls + 1⟩).trans (by rw [hcount, List.drop_nil, List.drop_nil])
      | .pending :: rest | .chunk _ :: rest | .failure _ :: rest =>
          exact (ih ⟨rest, polls + 1⟩).trans (by rw [hcount]; rfl)

theorem answers_streaming (s : ByteStream) (k : Nat) :
    (streaming s).answers k = (s.upcoming.take k).map StreamEvent.answer ++
      List.replicate (k - s.upcoming.length) .finished := by
  induction k generalizing s with
  | zero => simp [answers]
  | succ k ih =>
      obtain ⟨events, polls⟩ := s
      match events with
      | [] => simpa [answers, poll, ByteStream.poll, List.replicate_succ] using ih ⟨[], polls + 1⟩
      | .pending :: rest | .chunk _ :: rest | .failure _ :: rest =>
          simpa [answers, poll, ByteStream.poll, StreamEvent.answer] using ih ⟨rest, polls + 1⟩

/-! ## What is still to come -/

/-- From some poll on, the answers have brought `n` bytes and bring no more. -/
def StillBrings (b : Body) (n : Nat) : Prop :=
  ∃ k, ∀ m, k ≤ m → ((b.answers m).flatMap Poll.bytes).length = n

theorem exists_delivers (h : b.isStreaming = false) : ∃ bytes, b.Delivers bytes := by
  match b with
  | empty => exact ⟨_, .absent⟩
  | full none => exact ⟨_, .taken⟩
  | full (some bytes) => exact ⟨_, .buffered bytes⟩
  | streaming _ => cases h

theorem stillBrings_of_delivers (hstream : b.isStreaming = false) (h : b.Delivers bytes) :
    b.StillBrings bytes.length := by
  refine ⟨1, fun m hm => ?_⟩
  obtain ⟨k, rfl⟩ : ∃ k, m = k + 1 := ⟨m - 1, by omega⟩
  obtain ⟨rest, hrest, hrun⟩ := delivers_advance h (k + 1)
  have hnil : rest = [] := eq_nil_of_isEndStream (isEndStream_advance hstream k) hrest
  rw [hnil, List.append_nil] at hrun
  rw [hrun]

/-- What is promised of a body, however often it was asked before. -/
structure Accounted (b : Body) : Prop where
  sized : b.isStreaming = false → ∀ k, ∃ n,
    SizeHint.exact? (b.advance k).sizeHint = some n ∧ (b.advance k).StillBrings n
  ended : b.isStreaming = false → ∀ k,
    (b.advance k).isEndStream = true ↔
      ∀ m, (b.advance k).answers m = List.replicate m .finished
  kept : b.isStreaming = false → ∃ bytes, b.Delivers bytes ∧ ∀ k, ∃ rest,
    (b.advance k).buffered = .ok rest ∧ (b.answers k).flatMap Poll.bytes ++ rest = bytes
  framed : ∀ bytes, b = full (some bytes) → ∀ k,
    b.answers (k + 1) = .data bytes :: List.replicate k .finished
  relayed : ∀ s, b = streaming s → ∀ k,
    b.answers k = (s.upcoming.take k).map StreamEvent.answer ++
        List.replicate (k - s.upcoming.length) .finished ∧
      b.advance k = streaming ⟨s.upcoming.drop k, s.polls + k⟩ ∧
      (b.advance k).isEndStream = false ∧ (b.advance k).buffered = .error (b.advance k)

/-- The frames, the size, the end and the bytes of a body agree with one another at
every moment of a run of polls. -/
theorem polls_conserve_content (b : Body) : b.Accounted where
  sized hstream k := by
    have hstream' := (isStreaming_advance b k).trans hstream
    obtain ⟨bytes, h⟩ := exists_delivers hstream'
    exact ⟨bytes.length, exact_sizeHint hstream' h, stillBrings_of_delivers hstream' h⟩
  ended hstream k := by
    have hstream' := (isStreaming_advance b k).trans hstream
    constructor
    · intro h m
      exact answers_of_isEndStream h m
    · intro h
      exact isEndStream_of_poll hstream' (List.cons.inj (h 1)).1
  kept hstream := by
    obtain ⟨bytes, h⟩ := exists_delivers hstream
    refine ⟨bytes, h, fun k => ?_⟩
    obtain ⟨rest, hrest, hrun⟩ := delivers_advance h k
    exact ⟨rest, buffered_of_delivers ((isStreaming_advance b k).trans hstream) hrest, hrun⟩
  framed bytes hb k := by
    subst hb
    exact answers_succ rfl k
  relayed s hb k := by
    subst hb
    rw [advance_streaming]
    exact ⟨answers_streaming s k, rfl, rfl, rfl⟩

example : (full (some [])).answers 3 = [.data [], .finished, .finished] ∧
    SizeHint.exact? ((full (some [1, 2])).advance 1).sizeHint = some 0 := by decide

/-! ## Reading to the end -/

/-- Asking until the body answered that it is finished has left `left`. -/
def ReadToEnd (b left : Body) : Prop :=
  ∃ k, .finished ∉ b.answers k ∧ (b.advance k).poll = (.finished, left)

theorem answer_ne_finished (event : StreamEvent) : event.answer ≠ .finished := by
  cases event <;> exact nofun

theorem readToEnd_collect (h : b.Delivers bytes) : b.ReadToEnd b.collect.2 := by
  cases h with
  | absent | taken => exact ⟨0, List.not_mem_nil, rfl⟩
  | buffered bytes => exact ⟨1, by simp [answers, poll], rfl⟩
  | @streamed events h polls =>
      refine ⟨events.length, ?_, ?_⟩
      · rw [answers_streaming]
        simp [answer_ne_finished]
      · rw [advance_streaming, List.drop_length]
        show (Poll.finished, streaming ⟨[], polls + events.length + 1⟩) =
          (.finished, streaming (ByteStream.drain events polls).2)
        rw [ByteStream.drain_of_unbroken h]

end Body

end ServiceCodec
