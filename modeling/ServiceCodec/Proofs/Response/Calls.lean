import ServiceCodec.Response.Handler

/-!
# In what order a builder is called

A handler takes any builder through a response in the same few calls. It starts
the builder from the head and gives it the head. Of the body there is at most one
part to give: nothing if the body is handed on or has nothing in it, and otherwise
its document or its bytes. Then it takes the output. A call that fails is the last
one, and so is the one before a body that cannot be read.

To see the calls, the builder is made to note each of them, in any monad
(`OutputBuilder.noted`). Nothing else is noted and nothing is taken back, so a
handler that started a builder twice, or threw away what it built, would leave the
notes of it. `Course` describes the calls and the outcome together, without the
handler's program; `handleM_of_course` says that a handler makes the notes of the
one course that there is for a builder and a response, and answers with its
outcome. Two monads are of interest: one in which a note is nothing, where the
builder is the given one, and one in which the notes are put in a list.
-/

namespace ServiceCodec

variable {m : Type → Type} [Monad m] {σ ρ α β : Type}

/-! ## Steps of a builder -/

/-- What a step answers and leaves, when it starts from `s`. -/
def BuildStepT.on (step : BuildStepT m σ α) (s : σ) : m (Except ResponseError α × σ) :=
  step.run.run s

namespace BuildStepT

theorem on_bind (step : BuildStepT m σ α) (next : α → BuildStepT m σ β) (s : σ) :
    (step >>= next).on s = step.on s >>= fun
      | (.ok a, s') => (next a).on s'
      | (.error e, s') => pure (.error e, s') := by
  simp only [on, ExceptT.run_bind, StateT.run_bind]
  congr 1
  funext p
  rcases p with ⟨_ | _, _⟩ <;> rfl

variable [LawfulMonad m]

theorem on_get (s : σ) : (get : BuildStepT m σ σ).on s = pure (.ok s, s) := by
  show (Except.ok <$> (StateT.get : StateT σ m σ)).run s = _
  rw [StateT.run_map]
  exact map_pure ..

theorem on_lift (x : m α) (s : σ) :
    (liftM x : BuildStepT m σ α).on s = x >>= fun a => pure (.ok a, s) := by
  show (Except.ok <$> (StateT.lift x : StateT σ m α)).run s = _
  rw [StateT.run_map, StateT.run_lift]
  simp

end BuildStepT

/-- The step, behind a note. -/
def BuildStep.noted (step : BuildStep σ α) (note : m Unit) : BuildStepT m σ α :=
  (fun s => do note; return step.on s : StateT σ m (Except ResponseError α))

namespace BuildStep

theorem on_noted (step : BuildStep σ α) (note : m Unit) (s : σ) :
    (step.noted note).on s = note >>= fun _ => pure (step.on s) :=
  rfl

variable [LawfulMonad m] {step : BuildStep σ α} {next : α → BuildStepT m σ β} {s s' : σ}

theorem on_noted_bind_ok {a : α} (h : step.on s = (.ok a, s')) (note : m Unit) :
    (step.noted note >>= next).on s = note >>= fun _ => (next a).on s' := by
  rw [BuildStepT.on_bind, on_noted, h]
  simp

theorem on_noted_bind_error {e : ResponseError} (h : step.on s = (.error e, s')) (note : m Unit) :
    (step.noted note >>= next).on s = note >>= fun _ => pure (.error e, s') := by
  rw [BuildStepT.on_bind, on_noted, h]
  simp

end BuildStep

/-! ## What of a body is due to a builder -/

section Read

variable {bytes : Bytes} {text : String} {v : Json} {e : JsonError}

theorem readDocument_of_blank (h : ∀ x ∈ bytes, Json.isBlankByte x = true) :
    readDocument bytes = .ok none := by
  rw [readDocument, Json.ofBody, if_pos (List.all_eq_true.mpr h)]
  rfl

theorem readDocument_of_malformed (h : Json.ofBody bytes = .error e) :
    readDocument bytes = .error (.json e) := by
  rw [readDocument, h]
  rfl

theorem readDocument_of_text (hblank : ¬ ∀ x ∈ bytes, Json.isBlankByte x = true)
    (htext : textOf? bytes = some text) (hv : Json.ofText text.toList = .ok v) :
    readDocument bytes = .ok (some v) := by
  rw [readDocument, Json.ofBody, if_neg (mt List.all_eq_true.mp hblank), htext]
  simp only [hv]
  rfl

end Read

/-- The parts of a response that a builder is given. -/
inductive Part where
  | head (head : Head)
  | document (v : Json)
  | payload (bytes : Bytes)

def OutputBuilderT.bind (b : OutputBuilderT m σ ρ) : Part → BuildStepT m σ Unit
  | .head head => b.bindHead head
  | .document v => b.bindDocument v
  | .payload bytes => b.bindPayload bytes

namespace ResponseHandler

/-- The part of the body that the builder is to be given, if there is one, or why the body
cannot be read. -/
inductive Due (h : ResponseHandler) (body : Body) : Except ResponseError (Option Part) → Prop where
  | streamed (hstreams : h.streamsOutput = true) : Due h body (.ok none)
  | unbuffered {stream : ByteStream} (hstreams : h.streamsOutput = false)
      (hbody : body = .streaming stream) : Due h body (.error .unbuffered)
  | blank {bytes : Bytes} (hstreams : h.streamsOutput = false) (hjson : h.jsonOutput = true)
      (hbody : body.buffered = .ok bytes) (hblank : ∀ x ∈ bytes, Json.isBlankByte x = true) :
      Due h body (.ok none)
  | malformed {bytes : Bytes} {e : JsonError} (hstreams : h.streamsOutput = false)
      (hjson : h.jsonOutput = true) (hbody : body.buffered = .ok bytes)
      (he : Json.ofBody bytes = .error e) : Due h body (.error (.json e))
  | document {bytes : Bytes} {text : String} {v : Json} (hstreams : h.streamsOutput = false)
      (hjson : h.jsonOutput = true) (hbody : body.buffered = .ok bytes)
      (hblank : ¬ ∀ x ∈ bytes, Json.isBlankByte x = true) (htext : textOf? bytes = some text)
      (hv : Json.ofText text.toList = .ok v) : Due h body (.ok (some (.document v)))
  | nothing (hstreams : h.streamsOutput = false) (hjson : h.jsonOutput = false)
      (hbody : body.buffered = .ok []) : Due h body (.ok none)
  | payload {bytes : Bytes} (hstreams : h.streamsOutput = false) (hjson : h.jsonOutput = false)
      (hbody : body.buffered = .ok bytes) (hbytes : bytes ≠ []) :
      Due h body (.ok (some (.payload bytes)))

/-- Of a body, what is handed on. -/
def handedOn (h : ResponseHandler) (body : Body) : Option Body :=
  if h.streamsOutput then some body else none

/-- What a handler does behind the head, when this is due of the body. -/
def finish (h : ResponseHandler) (b : OutputBuilderT m σ ρ) (r : Response) :
    Except ResponseError (Option Part) → BuildStepT m σ (Received ρ)
  | .error e => throw e
  | .ok none => do return ⟨← b.build (← get), r.toHead, h.handedOn r.body⟩
  | .ok (some part) => do
      b.bind part
      return ⟨← b.build (← get), r.toHead, h.handedOn r.body⟩

theorem finish_some (h : ResponseHandler) (b : OutputBuilderT m σ ρ) (r : Response) (part : Part) :
    h.finish b r (.ok (some part)) = b.bind part >>= fun _ => h.finish b r (.ok none) :=
  rfl

theorem exists_due (h : ResponseHandler) (body : Body) : ∃ part, h.Due body part := by
  by_cases hstreams : h.streamsOutput = true
  · exact ⟨_, .streamed hstreams⟩
  · rw [Bool.not_eq_true] at hstreams
    cases hbody : body.buffered with
    | error left =>
        cases body with
        | streaming stream => exact ⟨_, .unbuffered hstreams rfl⟩
        | empty | full data => cases hbody
    | ok bytes =>
        by_cases hjson : h.jsonOutput = true
        · by_cases hblank : ∀ x ∈ bytes, Json.isBlankByte x = true
          · exact ⟨_, .blank hstreams hjson hbody hblank⟩
          · have hall : ¬ bytes.all Json.isBlankByte = true := mt List.all_eq_true.mp hblank
            cases hread : Json.ofBody bytes with
            | error e => exact ⟨_, .malformed hstreams hjson hbody hread⟩
            | ok document =>
                rw [Json.ofBody, if_neg hall] at hread
                split at hread
                · cases hread
                · next text htext =>
                    split at hread
                    · next v hv => exact ⟨_, .document hstreams hjson hbody hblank htext hv⟩
                    · cases hread
        · rw [Bool.not_eq_true] at hjson
          by_cases hbytes : bytes = []
          · subst hbytes
            exact ⟨_, .nothing hstreams hjson hbody⟩
          · exact ⟨_, .payload hstreams hjson hbody hbytes⟩

theorem drive_of_due [LawfulMonad m] {h : ResponseHandler} {r : Response}
    {part : Except ResponseError (Option Part)} (hdue : h.Due r.body part)
    (b : OutputBuilderT m σ ρ) :
    h.drive b r = b.bind (.head r.toHead) >>= fun _ => h.finish b r part := by
  show h.drive b r = b.bindHead r.toHead >>= fun _ => h.finish b r part
  cases hdue with
  | streamed hstreams => simp [drive, finish, handedOn, hstreams]
  | unbuffered hstreams hbody => simp [drive, finish, hstreams, hbody, Body.buffered]
  | blank hstreams hjson hbody hblank =>
      simp [drive, finish, handedOn, bindBody, hstreams, hjson, hbody,
        readDocument_of_blank hblank]
  | malformed hstreams hjson hbody he =>
      simp [drive, finish, bindBody, hstreams, hjson, hbody, readDocument_of_malformed he]
  | document hstreams hjson hbody hblank htext hv =>
      simp [drive, finish, handedOn, bindBody, hstreams, hjson, hbody,
        readDocument_of_text hblank htext hv, OutputBuilderT.bind]
  | nothing hstreams hjson hbody =>
      simp [drive, finish, handedOn, bindBody, hstreams, hjson, hbody]
  | payload hstreams hjson hbody hbytes =>
      simp [drive, finish, handedOn, bindBody, hstreams, hjson, hbody, hbytes,
        OutputBuilderT.bind]

end ResponseHandler

/-! ## Builders that note their calls -/

/-- A call of a builder. -/
inductive BuilderCall where
  | start (head : Head)
  | bind (part : Part)
  | build

namespace OutputBuilder

/-- The builder, with a note before each of its calls. -/
def noted (b : OutputBuilder σ ρ) (note : BuilderCall → m Unit) : OutputBuilderT m σ ρ where
  start head := do note (.start head); return b.start head
  bindHead head := BuildStep.noted (b.bindHead head) (note (.bind (.head head)))
  bindDocument v := BuildStep.noted (b.bindDocument v) (note (.bind (.document v)))
  bindPayload bytes := BuildStep.noted (b.bindPayload bytes) (note (.bind (.payload bytes)))
  build s := do note .build; return b.build s

/-- The builder with a record of its calls. -/
def recorded (b : OutputBuilder σ ρ) : OutputBuilderT (StateM (List BuilderCall)) σ ρ :=
  b.noted fun call => modify (· ++ [call])

theorem bind_noted (b : OutputBuilder σ ρ) (note : BuilderCall → m Unit) (part : Part) :
    (b.noted note).bind part = BuildStep.noted (b.bind part) (note (.bind part)) := by
  cases part <;> rfl

theorem on_build_noted [LawfulMonad m] (b : OutputBuilder σ ρ) (note : BuilderCall → m Unit)
    (s : σ) : (liftM ((b.noted note).build s) : BuildStepT m σ ρ).on s =
      note .build >>= fun _ => pure (.ok (b.build s), s) := by
  rw [BuildStepT.on_lift]
  show (note .build >>= fun _ => pure (b.build s)) >>= _ = _
  rw [bind_assoc]
  simp only [pure_bind]

end OutputBuilder

namespace ResponseHandler

variable {h : ResponseHandler} {b : OutputBuilder σ ρ} {r : Response}

/-- What a handler makes of a response, and the calls of the builder by which it does. -/
def record (h : ResponseHandler) (b : OutputBuilder σ ρ) (r : Response) :
    Except ResponseError (Received ρ) × List BuilderCall :=
  (h.handleM b.recorded r).run []

/-- The calls by which a handler takes a builder through a response, and what comes of them. -/
inductive Course (h : ResponseHandler) (b : OutputBuilder σ ρ) (r : Response) :
    Except ResponseError (Received ρ) → List BuilderCall → Prop where
  | headRefused {e : ResponseError} {s : σ}
      (hhead : (b.bind (.head r.toHead)).on (b.start r.toHead) = (.error e, s)) :
      Course h b r (.error e) [.start r.toHead, .bind (.head r.toHead)]
  | unreadable {e : ResponseError} {s : σ}
      (hhead : (b.bind (.head r.toHead)).on (b.start r.toHead) = (.ok (), s))
      (hdue : h.Due r.body (.error e)) :
      Course h b r (.error e) [.start r.toHead, .bind (.head r.toHead)]
  | bodyRefused {part : Part} {e : ResponseError} {s s' : σ}
      (hhead : (b.bind (.head r.toHead)).on (b.start r.toHead) = (.ok (), s))
      (hdue : h.Due r.body (.ok (some part))) (hbody : (b.bind part).on s = (.error e, s')) :
      Course h b r (.error e) [.start r.toHead, .bind (.head r.toHead), .bind part]
  | builtFromHead {s : σ}
      (hhead : (b.bind (.head r.toHead)).on (b.start r.toHead) = (.ok (), s))
      (hdue : h.Due r.body (.ok none)) :
      Course h b r (.ok ⟨b.build s, r.toHead, h.handedOn r.body⟩)
        [.start r.toHead, .bind (.head r.toHead), .build]
  | builtFromBody {part : Part} {s s' : σ}
      (hhead : (b.bind (.head r.toHead)).on (b.start r.toHead) = (.ok (), s))
      (hdue : h.Due r.body (.ok (some part))) (hbody : (b.bind part).on s = (.ok (), s')) :
      Course h b r (.ok ⟨b.build s', r.toHead, h.handedOn r.body⟩)
        [.start r.toHead, .bind (.head r.toHead), .bind part, .build]

theorem exists_course (h : ResponseHandler) (b : OutputBuilder σ ρ) (r : Response) :
    ∃ outcome calls, h.Course b r outcome calls := by
  obtain ⟨due, hdue⟩ := h.exists_due r.body
  rcases hhead : (b.bind (.head r.toHead)).on (b.start r.toHead) with ⟨answer, s⟩
  cases answer with
  | error e => exact ⟨_, _, .headRefused hhead⟩
  | ok _ =>
      cases due with
      | error e => exact ⟨_, _, .unreadable hhead hdue⟩
      | ok part =>
          cases part with
          | none => exact ⟨_, _, .builtFromHead hhead hdue⟩
          | some part =>
              rcases hbody : (b.bind part).on s with ⟨answer, s'⟩
              cases answer with
              | error e => exact ⟨_, _, .bodyRefused hhead hdue hbody⟩
              | ok _ => exact ⟨_, _, .builtFromBody hhead hdue hbody⟩

variable {outcome : Except ResponseError (Received ρ)} {calls : List BuilderCall}

section Notes

variable [LawfulMonad m] (note : BuilderCall → m Unit)

/-- With no part to give, only the output is taken. -/
theorem on_finish_none (s : σ) :
    (h.finish (b.noted note) r (.ok none)).on s =
      note .build >>= fun _ => pure (.ok ⟨b.build s, r.toHead, h.handedOn r.body⟩, s) := by
  rw [finish, BuildStepT.on_bind, BuildStepT.on_get, pure_bind]
  simp only [BuildStepT.on_bind, OutputBuilder.on_build_noted, bind_assoc, pure_bind]
  rfl

theorem on_finish_some {part : Part} {s s' : σ} (hbody : (b.bind part).on s = (.ok (), s')) :
    (h.finish (b.noted note) r (.ok (some part))).on s =
      note (.bind part) >>= fun _ => (h.finish (b.noted note) r (.ok none)).on s' := by
  rw [finish_some, OutputBuilder.bind_noted, BuildStep.on_noted_bind_ok hbody]

theorem on_finish_refused {part : Part} {e : ResponseError} {s s' : σ}
    (hbody : (b.bind part).on s = (.error e, s')) :
    (h.finish (b.noted note) r (.ok (some part))).on s =
      note (.bind part) >>= fun _ => pure (.error e, s') := by
  rw [finish_some, OutputBuilder.bind_noted, BuildStep.on_noted_bind_error hbody]

theorem on_drive_noted {part : Except ResponseError (Option Part)} {s s' : σ}
    (hdue : h.Due r.body part) (hhead : (b.bind (.head r.toHead)).on s = (.ok (), s')) :
    (h.drive (b.noted note) r).on s =
      note (.bind (.head r.toHead)) >>= fun _ => (h.finish (b.noted note) r part).on s' := by
  rw [drive_of_due hdue, OutputBuilder.bind_noted, BuildStep.on_noted_bind_ok hhead]

theorem on_drive_noted_refused {e : ResponseError} {s s' : σ}
    (hhead : (b.bind (.head r.toHead)).on s = (.error e, s')) :
    (h.drive (b.noted note) r).on s =
      note (.bind (.head r.toHead)) >>= fun _ => pure (.error e, s') := by
  obtain ⟨part, hdue⟩ := h.exists_due r.body
  rw [drive_of_due hdue, OutputBuilder.bind_noted, BuildStep.on_noted_bind_error hhead]

/-- The notes are those of the course, whatever making a note does. -/
theorem handleM_of_course (hcourse : h.Course b r outcome calls) :
    h.handleM (b.noted note) r = calls.forM note >>= fun _ => pure outcome := by
  have hstart : h.handleM (b.noted note) r = note (.start r.toHead) >>= fun _ =>
      (h.drive (b.noted note) r).on (b.start r.toHead) >>= fun p => pure p.1 := by
    simp [handleM, OutputBuilder.noted, BuildStepT.on]
  rw [hstart]
  cases hcourse with
  | headRefused hhead =>
      rw [on_drive_noted_refused note hhead]
      simp
  | unreadable hhead hdue =>
      rw [on_drive_noted note hdue hhead]
      simp [finish, BuildStepT.on]
  | bodyRefused hhead hdue hbody =>
      rw [on_drive_noted note hdue hhead, on_finish_refused note hbody]
      simp
  | builtFromHead hhead hdue =>
      rw [on_drive_noted note hdue hhead, on_finish_none]
      simp
  | builtFromBody hhead hdue hbody =>
      rw [on_drive_noted note hdue hhead, on_finish_some note hbody, on_finish_none]
      simp

end Notes

theorem handle_of_course (hcourse : h.Course b r outcome calls) : h.handle b r = outcome :=
  handleM_of_course (fun _ => (pure () : Id Unit)) hcourse

/-- Notes put in a list stand behind what is there, in the order they are made in. -/
theorem forM_record (calls before : List BuilderCall) :
    (calls.forM fun call => (modify (· ++ [call]) : StateM (List BuilderCall) Unit)).run before =
      ((), before ++ calls) := by
  induction calls generalizing before with
  | nil => rw [List.append_nil]; rfl
  | cons call calls ih =>
      show StateT.run (calls.forM _) (before ++ [call]) = _
      rw [ih, List.append_assoc, List.singleton_append]

theorem record_of_course (hcourse : h.Course b r outcome calls) :
    h.record b r = (outcome, calls) := by
  rw [record, OutputBuilder.recorded, handleM_of_course _ hcourse, StateT.run_bind, forM_record]
  rfl

/-- A record changes nothing about the outcome, and the recorded calls are those of a course. -/
theorem builder_calls_follow_course (h : ResponseHandler) (b : OutputBuilder σ ρ)
    (r : Response) :
    (h.record b r).1 = h.handle b r ∧
      ∀ outcome calls, h.record b r = (outcome, calls) ↔ h.Course b r outcome calls := by
  obtain ⟨outcome, calls, hcourse⟩ := h.exists_course b r
  have hrecord := record_of_course hcourse
  refine ⟨?_, fun outcome' calls' => ⟨?_, record_of_course⟩⟩
  · rw [hrecord, handle_of_course hcourse]
  · intro hrecord'
    cases hrecord.symm.trans hrecord'
    exact hcourse

end ResponseHandler

end ServiceCodec
