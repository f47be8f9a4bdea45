import ServiceCodec.Operation.Basic
import ServiceCodec.Proofs.Last
import ServiceCodec.Proofs.Operation.Spelling

/-!
# Which descriptions are operations

An operation is built from the last setting for each field of its description,
and refused for the first of four reasons (`OperationDraft.described_iff`). Three of
them are plain. The fourth is about braces. The scan of a path remembers one thing,
the label that is open, and what it accepts is the concatenation of characters and
groups that `Template.Balanced` describes. It stops at the first brace that cannot
stand where it is, and `Template.Misbraced` tells the three ways in which that can
happen: a closing brace where no label is open, an opening brace where one is, and
an end where one is. In front of that brace all is well, so the one relation is
built on the other, and `scan_append` is what carries a scan over the part in
front.
-/

namespace ServiceCodec

namespace Template

/-! ## Braces -/

/-- Characters that are no braces, and groups of such characters in a pair of braces. -/
inductive Balanced : List Char → Prop where
  | nil : Balanced []
  | char {c : Char} {cs : List Char} (hc : Piece.isBrace c = false) (h : Balanced cs) :
      Balanced (c :: cs)
  | group {text cs : List Char} (htext : ∀ c ∈ text, Piece.isBrace c = false)
      (h : Balanced cs) : Balanced ('{' :: text ++ '}' :: cs)

/-- A text whose braces go wrong at some point, for the first time. -/
inductive Misbraced : List Char → Prop where
  | stray {front rest : List Char} (hfront : Balanced front) : Misbraced (front ++ '}' :: rest)
  | nested {front text rest : List Char} (hfront : Balanced front)
      (htext : ∀ c ∈ text, Piece.isBrace c = false) :
      Misbraced (front ++ '{' :: (text ++ '{' :: rest))
  | unclosed {front text : List Char} (hfront : Balanced front)
      (htext : ∀ c ∈ text, Piece.isBrace c = false) : Misbraced (front ++ '{' :: text)

variable {front cs text : List Char}

theorem Balanced.append (hfront : Balanced front) (h : Balanced cs) : Balanced (front ++ cs) := by
  induction hfront with
  | nil => exact h
  | char hc _ ih => exact .char hc ih
  | group htext _ ih =>
      rw [List.append_assoc, List.cons_append]
      exact .group htext ih

theorem Misbraced.append (hfront : Balanced front) (h : Misbraced cs) :
    Misbraced (front ++ cs) := by
  cases h with
  | stray hfront' =>
      rw [← List.append_assoc]
      exact .stray (hfront.append hfront')
  | nested hfront' htext =>
      rw [← List.append_assoc]
      exact .nested (hfront.append hfront') htext
  | unclosed hfront' htext =>
      rw [← List.append_assoc]
      exact .unclosed (hfront.append hfront') htext

/-- A scan takes in what is balanced, and goes on behind it as from the start. -/
theorem scan_append (h : Balanced front) :
    ∃ ps, ∀ rest, scan none (front ++ rest) = (scan none rest).map (ps ++ ·) := by
  induction h with
  | nil => exact ⟨[], fun rest => by cases hscan : scan none rest <;> simp [hscan]⟩
  | @char c cs hc _ ih =>
      obtain ⟨ps, hps⟩ := ih
      refine ⟨.char c :: ps, fun rest => ?_⟩
      have hone : ∀ x ∈ [c], Piece.isBrace x = false := by simpa using hc
      have hchar := scan_literal hone (cs ++ rest)
      rw [List.singleton_append] at hchar
      rw [List.cons_append, hchar, hps, Option.map_map]
      rfl
  | @group text cs htext _ ih =>
      obtain ⟨ps, hps⟩ := ih
      refine ⟨Piece.ofPlaceholder text :: ps, fun rest => ?_⟩
      have hlabel := scan_label htext (cs ++ rest)
      rw [hps, Option.map_map] at hlabel
      rw [List.append_assoc, List.cons_append]
      exact hlabel

theorem scan_open (htext : ∀ c ∈ text, Piece.isBrace c = false) (rest : List Char) :
    scan none ('{' :: (text ++ rest)) = scan (some text.reverse) rest := by
  show scan (some []) (text ++ rest) = _
  rw [scan_gather htext, List.append_nil]

theorem scan_of_misbraced (h : Misbraced cs) : scan none cs = none := by
  cases h with
  | stray hfront =>
      obtain ⟨ps, hps⟩ := scan_append hfront
      rw [hps]
      rfl
  | nested hfront htext =>
      obtain ⟨ps, hps⟩ := scan_append hfront
      rw [hps, scan_open htext]
      rfl
  | @unclosed front text hfront htext =>
      obtain ⟨ps, hps⟩ := scan_append hfront
      have hopen := scan_open htext []
      rw [List.append_nil] at hopen
      rw [hps, hopen]
      rfl

/-- With a label open, what is wrong is the text from its brace on. -/
theorem misbraced_of_scan {state : Option (List Char)} (h : scan state cs = none)
    (hstate : ∀ gathered ∈ state, ∀ c ∈ gathered, Piece.isBrace c = false) :
    Misbraced (taken state ++ cs) := by
  induction cs generalizing state with
  | nil =>
      cases state with
      | none => cases h
      | some gathered =>
          rw [List.append_nil]
          exact @Misbraced.unclosed [] _ .nil fun c hc =>
            hstate gathered rfl c (List.mem_reverse.mp hc)
  | cons c cs ih =>
      cases state with
      | none =>
          rw [scan] at h
          split at h
          · next hopen =>
              rw [hopen]
              exact ih h (by simp)
          · next hopen =>
              split at h
              · next hclose =>
                  rw [hclose]
                  exact @Misbraced.stray [] cs .nil
              · next hclose =>
                  have hc := Piece.isBrace_eq_false_iff.mpr ⟨hopen, hclose⟩
                  have hrest := ih (Option.map_eq_none_iff.mp h) (by simp)
                  show Misbraced ([c] ++ cs)
                  exact Misbraced.append (.char hc .nil) hrest
      | some gathered =>
          have htext : ∀ c ∈ gathered.reverse, Piece.isBrace c = false := fun c hc =>
            hstate gathered rfl c (List.mem_reverse.mp hc)
          rw [scan] at h
          split at h
          · next hopen =>
              rw [hopen]
              exact @Misbraced.nested [] _ cs .nil htext
          · next hopen =>
              split at h
              · next hclose =>
                  have hrest := ih (Option.map_eq_none_iff.mp h) (by simp)
                  have hall := Misbraced.append (.group htext .nil) hrest
                  rw [hclose]
                  simpa [taken] using hall
              · next hclose =>
                  have hc := Piece.isBrace_eq_false_iff.mpr ⟨hopen, hclose⟩
                  have hall := ih h (by
                    intro l hl x hx
                    cases hl
                    rcases List.mem_cons.mp hx with rfl | hx
                    · exact hc
                    · exact hstate gathered rfl x hx)
                  simpa [taken] using hall

theorem scan_eq_none_iff : scan none cs = none ↔ Misbraced cs :=
  ⟨fun h => misbraced_of_scan h (by simp), scan_of_misbraced⟩

/-- The pieces of a template spell balanced braces. -/
theorem balanced_render {ps : List Piece} (h : ∀ p ∈ ps, p.WellFormed) :
    Balanced (ps.flatMap Piece.render) := by
  induction ps with
  | nil => exact .nil
  | cons p ps ih =>
      have hp := h p List.mem_cons_self
      have hps := ih fun q hq => h q (List.mem_cons_of_mem p hq)
      rw [List.flatMap_cons]
      cases p with
      | char c => exact .char hp hps
      | label name greedy =>
          rw [Piece.render_label, List.append_assoc, List.singleton_append]
          exact .group (Piece.isBrace_placeholder hp) hps

theorem exists_scan_iff : (∃ ps, scan none cs = some ps) ↔ Balanced cs := by
  constructor
  · intro ⟨ps, hps⟩
    have hspelled : ps.flatMap Piece.render = cs := render_of_scan hps
    rw [← hspelled]
    exact balanced_render (wellFormed_of_scan hps (by simp))
  · intro h
    obtain ⟨ps, hps⟩ := scan_append h
    have hall := hps []
    rw [List.append_nil] at hall
    exact ⟨_, hall⟩

/-! ## Paths -/

theorem exists_ofPath_iff {path : String} :
    (∃ t, ofPath path = .ok t) ↔ ∃ cs, path.toList = '/' :: cs ∧ Balanced cs := by
  constructor
  · intro ⟨t, ht⟩
    obtain rfl := ofPath_eq_ok_iff.mp ht
    exact ⟨_, String.toList_ofList, balanced_render t.wellFormed⟩
  · intro ⟨cs, hpath, h⟩
    obtain ⟨ps, hps⟩ := exists_scan_iff.mpr h
    refine ⟨⟨ps, wellFormed_of_scan hps (by simp)⟩, ofPath_eq_ok_iff.mpr ?_⟩
    have hspelled : ps.flatMap Piece.render = cs := render_of_scan hps
    rw [Template.path, hspelled, ← hpath, String.ofList_toList]

theorem ofPath_eq_notAbsolute_iff {path : String} :
    ofPath path = .error .notAbsolute ↔ path.toList.head? ≠ some '/' := by
  rw [ofPath]
  split
  · next cs hpath =>
      rw [hpath]
      split
      · simp
      · simp
  · next hother =>
      have hhead : path.toList.head? ≠ some '/' := by
        intro hhead
        obtain ⟨cs, hcs⟩ := List.head?_eq_some_iff.mp hhead
        exact hother cs hcs
      exact ⟨fun _ => hhead, fun _ => rfl⟩

theorem ofPath_eq_unbalanced_iff {path : String} :
    ofPath path = .error .unbalanced ↔ ∃ cs, path.toList = '/' :: cs ∧ Misbraced cs := by
  rw [ofPath]
  split
  · next cs hpath =>
      have hmisbraced : (∃ cs', path.toList = '/' :: cs' ∧ Misbraced cs') ↔ Misbraced cs := by
        rw [hpath]
        simp
      rw [hmisbraced, ← scan_eq_none_iff]
      split
      · next ps hps => simp [hps]
      · next hnone => simp [hnone]
  · next hother =>
      constructor
      · intro h
        cases h
      · rintro ⟨cs, hpath, -⟩
        exact absurd hpath (hother cs)

end Template

namespace OperationDraft

/-! ## Settings -/

/-- What settings are about. -/
inductive Slot where
  | method
  | explicitPayload
  | payloadMembers
  | serviceName
  | identifier
  | streamingInput
  | streamingOutput
  | jsonOutput
  deriving DecidableEq

def Setting.slot : Setting → Slot
  | .method _ => .method
  | .explicitPayload _ => .explicitPayload
  | .payloadMembers _ => .payloadMembers
  | .serviceName _ => .serviceName
  | .identifier _ => .identifier
  | .streamingInput _ => .streamingInput
  | .streamingOutput _ => .streamingOutput
  | .jsonOutput _ => .jsonOutput

/-- The setting that describes what a field has. -/
def standing? (d : OperationDraft) : Slot → Option Setting
  | .method => some (.method d.method)
  | .explicitPayload => some (.explicitPayload d.explicitPayload)
  | .payloadMembers => some (.payloadMembers d.payloadMembers)
  | .serviceName => some (.serviceName d.serviceName)
  | .identifier => d.identifier.map .identifier
  | .streamingInput => some (.streamingInput d.streamingInput)
  | .streamingOutput => some (.streamingOutput d.streamingOutput)
  | .jsonOutput => some (.jsonOutput d.jsonOutput)

/-- The setting is the last one for its field, or there is none for it and the setting
is what a fresh draft has there. -/
def InForce (path : String) (settings : List Setting) (x : Setting) : Prop :=
  (lastFor Setting.slot settings x.slot).or (standing? { path } x.slot) = some x

theorem standing?_set (d : OperationDraft) (x : Setting) :
    (d.set x).standing? = Function.update d.standing? x.slot (some x) := by
  funext slot
  rw [Function.update_apply]
  cases x <;> cases slot <;> rfl

theorem path_set (d : OperationDraft) (x : Setting) : (d.set x).path = d.path := by
  cases x <;> rfl

theorem path_ofSettings (path : String) (settings : List Setting) :
    (ofSettings path settings).path = path := by
  have hfold : ∀ d : OperationDraft, (settings.foldl set d).path = d.path := by
    induction settings with
    | nil => exact fun _ => rfl
    | cons x settings ih => exact fun d => (ih (d.set x)).trans (path_set d x)
  exact hfold { path }

theorem inForce_iff {path : String} {settings : List Setting} {x : Setting} :
    InForce path settings x ↔ (ofSettings path settings).standing? x.slot = some x := by
  rw [ofSettings, view_foldl standing?_set, InForce]

/-! ## What is built, and what is refused -/

/-- The flags imply each other as they have to, and the path is a slash and then
characters and groups. -/
structure WellFormed (path : String) (settings : List Setting) : Prop where
  members : InForce path settings (.explicitPayload true) →
    InForce path settings (.payloadMembers true)
  payload : InForce path settings (.streamingInput true) →
    InForce path settings (.explicitPayload true)
  balanced : ∃ cs, path.toList = '/' :: cs ∧ Template.Balanced cs

/-- One member is to be the body, and there are no members for the body. -/
def LacksMembers (path : String) (settings : List Setting) : Prop :=
  InForce path settings (.explicitPayload true) ∧ InForce path settings (.payloadMembers false)

/-- The body is to be a stream, and no one member is the body. -/
def LacksPayload (path : String) (settings : List Setting) : Prop :=
  InForce path settings (.streamingInput true) ∧ InForce path settings (.explicitPayload false)

/-- Why the settings make no operation: the first of the four reasons that there is. -/
inductive Refused (path : String) (settings : List Setting) : OperationError → Prop where
  | payloadWithoutMembers (h : LacksMembers path settings) :
      Refused path settings .payloadWithoutMembers
  | streamWithoutPayload (hmembers : ¬ LacksMembers path settings)
      (h : LacksPayload path settings) : Refused path settings .streamWithoutPayload
  | pathNotAbsolute (hmembers : ¬ LacksMembers path settings)
      (hpayload : ¬ LacksPayload path settings) (h : path.toList.head? ≠ some '/') :
      Refused path settings (.pathNotAbsolute path)
  | unbalancedLabel {cs : List Char} (hmembers : ¬ LacksMembers path settings)
      (hpayload : ¬ LacksPayload path settings) (hpath : path.toList = '/' :: cs)
      (h : Template.Misbraced cs) : Refused path settings (.unbalancedLabel path)

end OperationDraft

/-- The operation has what the settings left in force. -/
@[mk_iff]
structure Operation.Holds (op : Operation) (path : String)
    (settings : List OperationDraft.Setting) : Prop where
  template : op.template.path = path
  method : OperationDraft.InForce path settings (.method op.method)
  explicitPayload : OperationDraft.InForce path settings (.explicitPayload op.content.hasPayload)
  payloadMembers : OperationDraft.InForce path settings (.payloadMembers op.content.hasMembers)
  streamingInput : OperationDraft.InForce path settings (.streamingInput op.content.isStream)
  serviceName : OperationDraft.InForce path settings (.serviceName op.serviceName)
  identifier : ∀ name, OperationDraft.InForce path settings (.identifier name) ↔
    op.identifier = some name
  streamingOutput : OperationDraft.InForce path settings (.streamingOutput op.streamsOutput)
  jsonOutput : OperationDraft.InForce path settings (.jsonOutput op.jsonOutput)

namespace OperationDraft


section Draft

variable {path : String} {settings : List Setting}

theorem lacksMembers_iff : LacksMembers path settings ↔
    (ofSettings path settings).explicitPayload = true ∧
      (ofSettings path settings).payloadMembers = false := by
  simp [LacksMembers, inForce_iff, standing?, Setting.slot]

theorem lacksPayload_iff : LacksPayload path settings ↔
    (ofSettings path settings).streamingInput = true ∧
      (ofSettings path settings).explicitPayload = false := by
  simp [LacksPayload, inForce_iff, standing?, Setting.slot]

theorem wellFormed_iff : WellFormed path settings ↔
    ¬ LacksMembers path settings ∧ ¬ LacksPayload path settings ∧
      ∃ cs, path.toList = '/' :: cs ∧ Template.Balanced cs := by
  constructor
  · intro h
    have hmembers := h.members
    have hpayload := h.payload
    simp only [inForce_iff, standing?, Setting.slot, Option.some_inj, Setting.explicitPayload.injEq,
      Setting.payloadMembers.injEq, Setting.streamingInput.injEq] at hmembers hpayload
    rw [lacksMembers_iff, lacksPayload_iff]
    exact ⟨by simpa using hmembers, by simpa using hpayload, h.balanced⟩
  · intro ⟨hmembers, hpayload, hbalanced⟩
    rw [lacksMembers_iff] at hmembers
    rw [lacksPayload_iff] at hpayload
    refine ⟨?_, ?_, hbalanced⟩
    · simpa [inForce_iff, standing?, Setting.slot] using hmembers
    · simpa [inForce_iff, standing?, Setting.slot] using hpayload

end Draft

theorem content_eq_ok_iff {d : OperationDraft} {c : RequestContent} :
    d.content = .ok c ↔ d.explicitPayload = c.hasPayload ∧ d.payloadMembers = c.hasMembers ∧
      d.streamingInput = c.isStream := by
  rw [content]
  cases d.explicitPayload <;> cases d.payloadMembers <;> cases d.streamingInput <;>
    cases c <;> decide

theorem exists_content_iff {d : OperationDraft} : (∃ c, d.content = .ok c) ↔
    ¬ (d.explicitPayload = true ∧ d.payloadMembers = false) ∧
      ¬ (d.streamingInput = true ∧ d.explicitPayload = false) := by
  rw [content]
  cases d.explicitPayload <;> cases d.payloadMembers <;> cases d.streamingInput <;> simp

theorem content_eq_error_iff {d : OperationDraft} {e : OperationError} :
    d.content = .error e ↔
      d.explicitPayload = true ∧ d.payloadMembers = false ∧ e = .payloadWithoutMembers ∨
        ¬ (d.explicitPayload = true ∧ d.payloadMembers = false) ∧
          d.streamingInput = true ∧ d.explicitPayload = false ∧ e = .streamWithoutPayload := by
  rw [content]
  cases d.explicitPayload <;> cases d.payloadMembers <;> cases d.streamingInput <;>
    simp [eq_comm]

theorem template_eq_ok_iff {d : OperationDraft} {t : Template} :
    d.template = .ok t ↔ t.path = d.path := by
  rw [← Template.ofPath_eq_ok_iff, template]
  split
  · next h => rw [h, Except.ok.injEq, Except.ok.injEq]
  · next h => rw [h]; simp
  · next h => rw [h]; simp

theorem template_eq_error_iff {d : OperationDraft} {e : OperationError} :
    d.template = .error e ↔
      Template.ofPath d.path = .error .notAbsolute ∧ e = .pathNotAbsolute d.path ∨
        Template.ofPath d.path = .error .unbalanced ∧ e = .unbalancedLabel d.path := by
  rw [template]
  split
  · next h => simp [h]
  · next h => simp [h, eq_comm]
  · next h => simp [h, eq_comm]

theorem build_eq_ok_iff {d : OperationDraft} {op : Operation} :
    d.build = .ok op ↔ d.template = .ok op.template ∧ d.method = op.method ∧
      d.content = .ok op.content ∧ d.serviceName = op.serviceName ∧
      d.identifier = op.identifier ∧ d.streamingOutput = op.streamsOutput ∧
      d.jsonOutput = op.jsonOutput := by
  rw [build]
  cases hcontent : d.content with
  | error e => simp [bind, Except.bind]
  | ok content =>
      cases htemplate : d.template with
      | error e => simp [bind, Except.bind]
      | ok template =>
          cases op
          simp [bind, Except.bind, pure, Except.pure]

theorem build_eq_error_iff {d : OperationDraft} {e : OperationError} :
    d.build = .error e ↔
      d.content = .error e ∨ (∃ c, d.content = .ok c) ∧ d.template = .error e := by
  rw [build]
  cases hcontent : d.content with
  | error e => simp [bind, Except.bind]
  | ok content =>
      cases htemplate : d.template with
      | error e => simp [bind, Except.bind]
      | ok template => simp [bind, Except.bind, pure, Except.pure]

theorem build_ofSettings_eq_ok_iff {path : String} {settings : List Setting} {op : Operation} :
    (ofSettings path settings).build = .ok op ↔ op.Holds path settings := by
  rw [build_eq_ok_iff, template_eq_ok_iff, content_eq_ok_iff, path_ofSettings]
  have hidentifier : (∀ name, InForce path settings (.identifier name) ↔
      op.identifier = some name) ↔ (ofSettings path settings).identifier = op.identifier := by
    rw [Option.ext_iff]
    simp [inForce_iff, standing?, Setting.slot]
  rw [Operation.holds_iff, hidentifier]
  simp [inForce_iff, standing?, Setting.slot, and_assoc]

theorem build_ofSettings_eq_error_iff {path : String} {settings : List Setting}
    {e : OperationError} :
    (ofSettings path settings).build = .error e ↔ Refused path settings e := by
  rw [build_eq_error_iff, content_eq_error_iff, exists_content_iff, template_eq_error_iff,
    path_ofSettings, ← lacksMembers_iff, ← lacksPayload_iff, Template.ofPath_eq_notAbsolute_iff,
    Template.ofPath_eq_unbalanced_iff]
  constructor
  · rintro ((⟨hexplicit, hnone, rfl⟩ | ⟨hmembers, hstream, hnone, rfl⟩) |
      ⟨⟨hmembers, hpayload⟩, ⟨hpath, rfl⟩ | ⟨⟨cs, hpath, h⟩, rfl⟩⟩)
    · exact .payloadWithoutMembers (lacksMembers_iff.mpr ⟨hexplicit, hnone⟩)
    · exact .streamWithoutPayload hmembers (lacksPayload_iff.mpr ⟨hstream, hnone⟩)
    · exact .pathNotAbsolute hmembers hpayload hpath
    · exact .unbalancedLabel hmembers hpayload hpath h
  · intro h
    cases h with
    | payloadWithoutMembers h =>
        obtain ⟨hexplicit, hnone⟩ := lacksMembers_iff.mp h
        exact .inl (.inl ⟨hexplicit, hnone, rfl⟩)
    | streamWithoutPayload hmembers h =>
        obtain ⟨hstream, hnone⟩ := lacksPayload_iff.mp h
        exact .inl (.inr ⟨hmembers, hstream, hnone, rfl⟩)
    | pathNotAbsolute hmembers hpayload h =>
        exact .inr ⟨⟨hmembers, hpayload⟩, .inl ⟨h, rfl⟩⟩
    | unbalancedLabel hmembers hpayload hpath h =>
        exact .inr ⟨⟨hmembers, hpayload⟩, .inr ⟨⟨_, hpath, h⟩, rfl⟩⟩

theorem exists_build_iff {path : String} {settings : List Setting} :
    (∃ op, (ofSettings path settings).build = .ok op) ↔ WellFormed path settings := by
  rw [wellFormed_iff, ← and_assoc, lacksMembers_iff, lacksPayload_iff, ← exists_content_iff,
    ← Template.exists_ofPath_iff]
  simp only [Template.ofPath_eq_ok_iff]
  constructor
  · intro ⟨op, hop⟩
    obtain ⟨htemplate, -, hcontent, -⟩ := build_eq_ok_iff.mp hop
    rw [template_eq_ok_iff, path_ofSettings] at htemplate
    exact ⟨⟨_, hcontent⟩, _, htemplate⟩
  · intro ⟨⟨c, hcontent⟩, t, ht⟩
    rw [← path_ofSettings path settings, ← template_eq_ok_iff] at ht
    rw [build, hcontent, ht]
    exact ⟨_, rfl⟩

/-- Settings describe an operation just in case they are well formed. The operation then
has what is in force, and is the only one that does, and otherwise they are refused for
the first reason there is. -/
theorem described_iff (path : String) (settings : List Setting) :
    ((∃ op, (ofSettings path settings).build = .ok op) ↔ WellFormed path settings) ∧
      (∀ op, (ofSettings path settings).build = .ok op ↔ op.Holds path settings) ∧
      ∀ e, (ofSettings path settings).build = .error e ↔ Refused path settings e :=
  ⟨exists_build_iff, fun _ => build_ofSettings_eq_ok_iff, fun _ => build_ofSettings_eq_error_iff⟩

end OperationDraft

end ServiceCodec
