import Mathlib.Data.Finset.Card
import Mathlib.Data.List.TakeWhile
import ServiceCodec.Conformance.Failures
import ServiceCodec.Proofs.Failure.Registration
import ServiceCodec.Proofs.Last

/-!
# Of the settings of a codec, the last one for each slot counts

A setting is about one slot of the draft, and each code has a slot of its own.
`CodecDraft.standing?` reads a draft slot by slot: it answers with the setting
that would leave the slot as it is. In this view a setting overwrites one slot
and touches no other (`standing?_set`), so after a list of settings every slot
has the last one made for it, or what a fresh draft has there
(`standing?_ofSettings`). A draft is no more than what it has in its slots, and
two lists with the same last settings make the same draft, in whatever order
they are and whatever they overwrite.

What is left is to say what a draft becomes in terms of its slots:
`CodecDraft.Refused` for the errors, each of which excludes the ones that are
looked for before it, and `Codec.Follows` for the codec.
-/

namespace ServiceCodec

variable {ε : Type}

theorem Text.allBlank_iff {text : String} :
    allBlank text = true ↔ ∀ c ∈ text.toList, isBlank c = true := by
  rw [allBlank, trim, List.isEmpty_iff, List.reverse_eq_nil_iff, List.dropWhile_eq_nil_iff]
  constructor
  · intro h c hc
    rw [← List.takeWhile_append_dropWhile (p := isBlank) (l := text.toList),
      List.mem_append] at hc
    rcases hc with hc | hc
    · exact List.mem_takeWhile_imp hc
    · exact h c (List.mem_reverse.mpr hc)
  · intro h c hc
    exact h c (List.dropWhile_subset _ (List.mem_reverse.mp hc))

namespace CodecDraft

/-- What settings are about. -/
inductive Slot where
  | protocol
  | version
  | resolver
  | modeled (code : String)
  | fallback
  | codeField
  | messages
  | threshold
  deriving DecidableEq

namespace Setting

def slot : Setting ε → Slot
  | .protocol _ => .protocol
  | .version _ => .version
  | .resolver _ => .resolver
  | .modeled code _ => .modeled code
  | .fallback _ => .fallback
  | .codeField _ => .codeField
  | .messages _ => .messages
  | .threshold _ => .threshold

/-- The code that the setting registers something under. -/
def code? : Setting ε → Option String
  | .modeled code _ => some code
  | _ => none

end Setting

/-- The setting that describes what a slot has. -/
def standing? (d : CodecDraft ε) : Slot → Option (Setting ε)
  | .protocol => some (.protocol d.protocol)
  | .version => some (.version d.version)
  | .resolver => some (.resolver d.resolver)
  | .modeled code => (d.modeled.find? code).map (.modeled code)
  | .fallback => d.fallback.map .fallback
  | .codeField => d.codeField.map .codeField
  | .messages => some (.messages d.messages)
  | .threshold => some (.threshold d.threshold)

/-- What a slot has after the settings: the last one for it, or what it has in a
fresh draft. -/
def inForce? (settings : List (Setting ε)) (slot : Slot) : Option (Setting ε) :=
  (lastFor Setting.slot settings slot).or (standing? {} slot)

/-! ## One setting, and many -/

theorem standing?_set (d : CodecDraft ε) (x : Setting ε) :
    (d.set x).standing? = Function.update d.standing? x.slot (some x) := by
  funext slot
  rw [Function.update_apply]
  cases x with
  | modeled code builder =>
      cases slot with
      | modeled code' =>
          by_cases h : code' = code
          · subst h
            simp [set, standing?, Setting.slot]
          · simp [set, standing?, Setting.slot, h]
      | protocol | version | resolver | fallback | codeField | messages | threshold => rfl
  | protocol _ | version _ | resolver _ | fallback _ | codeField _ | messages _ | threshold _ =>
      cases slot <;> rfl

theorem standing?_ofSettings (settings : List (Setting ε)) :
    (ofSettings settings).standing? = inForce? settings :=
  view_foldl standing?_set settings _

/-- A draft is what it has in its slots. -/
theorem ext_standing? {d d' : CodecDraft ε} (h : d.standing? = d'.standing?) : d = d' := by
  have hprotocol := congrFun h .protocol
  have hversion := congrFun h .version
  have hresolver := congrFun h .resolver
  have hfallback := congrFun h .fallback
  have hcodeField := congrFun h .codeField
  have hmessages := congrFun h .messages
  have hthreshold := congrFun h .threshold
  have hmodeled : d.modeled = d'.modeled := by
    apply Dictionary.ext_find?
    intro code
    have hcode := congrFun h (.modeled code)
    simp only [standing?] at hcode
    exact Option.map_injective (fun _ _ hb => by cases hb; rfl) hcode
  have hfallback : d.fallback = d'.fallback :=
    Option.map_injective (fun _ _ hb => by cases hb; rfl) hfallback
  have hcodeField : d.codeField = d'.codeField :=
    Option.map_injective (fun _ _ hf => by cases hf; rfl) hcodeField
  simp only [standing?, Option.some.injEq, Setting.protocol.injEq, Setting.version.injEq,
    Setting.resolver.injEq, Setting.messages.injEq, Setting.threshold.injEq]
    at hprotocol hversion hresolver hmessages hthreshold
  cases d
  cases d'
  simp_all

theorem ofSettings_congr {settings settings' : List (Setting ε)}
    (h : ∀ slot, lastFor Setting.slot settings slot = lastFor Setting.slot settings' slot) :
    ofSettings settings = ofSettings settings' := by
  apply ext_standing?
  rw [standing?_ofSettings, standing?_ofSettings]
  funext slot
  rw [inForce?, inForce?, h slot]

/-! ## What is refused, and why -/

/-- The version in force has no character but blanks. -/
def BlankVersion (settings : List (Setting ε)) : Prop :=
  ∃ version, inForce? settings .version = some (.version version) ∧
    ∀ c ∈ version.toList, Text.isBlank c = true

/-- A field was named for the code, and its name has no character but blanks. -/
def BlankCodeField (settings : List (Setting ε)) : Prop :=
  ∃ name, inForce? settings .codeField = some (.codeField name) ∧
    ∀ c ∈ name.toList, Text.isBlank c = true

/-- Why the settings make no codec: the first of the four reasons that there is. -/
inductive Refused (settings : List (Setting ε)) : CodecError → Prop where
  | noFallback (h : inForce? settings .fallback = none) : Refused settings .noFallback
  | blankVersion (hfallback : inForce? settings .fallback ≠ none)
      (h : BlankVersion settings) : Refused settings .blankVersion
  | blankCodeField (hfallback : inForce? settings .fallback ≠ none)
      (hversion : ¬ BlankVersion settings) (h : BlankCodeField settings) :
      Refused settings .blankCodeField
  | badThreshold {status : Nat} (hfallback : inForce? settings .fallback ≠ none)
      (hversion : ¬ BlankVersion settings) (hfield : ¬ BlankCodeField settings)
      (hstatus : inForce? settings .threshold = some (.threshold status))
      (h : ¬ (300 ≤ status ∧ status ≤ 999)) : Refused settings (.badThreshold status)

section Draft

variable (settings : List (Setting ε))

theorem inForce?_fallback :
    inForce? settings .fallback = (ofSettings settings).fallback.map .fallback := by
  rw [← standing?_ofSettings]
  rfl

theorem inForce?_threshold :
    inForce? settings .threshold = some (.threshold (ofSettings settings).threshold) := by
  rw [← standing?_ofSettings]
  rfl

theorem blankVersion_iff :
    BlankVersion settings ↔ Text.allBlank (ofSettings settings).version = true := by
  rw [BlankVersion, ← standing?_ofSettings, Text.allBlank_iff]
  simp [standing?]

theorem blankCodeField_iff :
    BlankCodeField settings ↔ (ofSettings settings).codeField.any Text.allBlank = true := by
  rw [BlankCodeField, ← standing?_ofSettings]
  cases h : (ofSettings settings).codeField with
  | none => simp [standing?, h]
  | some name => simp [standing?, h, Text.allBlank_iff]

end Draft

theorem threshold?_eq_none_iff {d : CodecDraft ε} :
    d.threshold? = none ↔ ¬ (300 ≤ d.threshold ∧ d.threshold ≤ 999) := by
  rw [threshold?, StatusCode.ofNat?]
  split
  · next h => simp [Option.filter]; omega
  · next h => simp [Option.filter]; omega

theorem mem_codes_iff {settings : List (Setting ε)} {code : String} :
    inForce? settings (.modeled code) ≠ none ↔ code ∈ settings.filterMap Setting.code? := by
  have hfresh : standing? ({} : CodecDraft ε) (.modeled code) = none := rfl
  rw [inForce?, hfresh, Option.or_none, lastFor, ne_eq, List.getLast?_eq_none_iff,
    List.filter_eq_nil_iff, List.mem_filterMap]
  constructor
  · intro h
    by_contra hnone
    apply h
    intro x hx hslot
    cases x with
    | modeled code' builder =>
        obtain rfl : code' = code := Slot.modeled.inj (of_decide_eq_true hslot)
        exact hnone ⟨_, hx, rfl⟩
    | protocol _ | version _ | resolver _ | fallback _ | codeField _ | messages _
    | threshold _ => cases of_decide_eq_true hslot
  · rintro ⟨x, hx, hcode⟩ h
    cases x with
    | modeled code' builder =>
        obtain rfl := Option.some_inj.mp hcode
        exact h _ hx (decide_eq_true rfl)
    | protocol _ | version _ | resolver _ | fallback _ | codeField _ | messages _
    | threshold _ => cases hcode

theorem build_eq_error_iff {settings : List (Setting ε)} {e : CodecError} :
    (ofSettings settings).build = .error e ↔ Refused settings e := by
  have hfallback := inForce?_fallback settings
  have hthreshold := inForce?_threshold settings
  have hversion := blankVersion_iff settings
  have hfield := blankCodeField_iff settings
  generalize ofSettings settings = d at *
  constructor
  · intro h
    rw [build] at h
    split at h
    · next hnone =>
        cases h
        exact .noFallback (by rw [hfallback, hnone]; rfl)
    · next fallback hsome =>
        have hset : inForce? settings .fallback ≠ none := by
          rw [hfallback, hsome]
          exact Option.some_ne_none _
        split at h
        · next hblank =>
            cases h
            exact .blankVersion hset (hversion.mpr hblank)
        · next hblank =>
            have hversion' := mt hversion.mp hblank
            split at h
            · next hname =>
                cases h
                exact .blankCodeField hset hversion' (hfield.mpr hname)
            · next hname =>
                split at h
                · next hstatus =>
                    cases h
                    exact .badThreshold hset hversion' (mt hfield.mp hname) hthreshold
                      (threshold?_eq_none_iff.mp hstatus)
                · cases h
  · intro h
    have hsome : inForce? settings .fallback ≠ none → ∃ b, d.fallback = some b := by
      intro hset
      apply Option.ne_none_iff_exists'.mp
      intro hnone
      rw [hfallback, hnone] at hset
      exact hset rfl
    cases h with
    | noFallback h =>
        rw [hfallback, Option.map_eq_none_iff] at h
        simp [build, h]
    | blankVersion hset h =>
        obtain ⟨b, hb⟩ := hsome hset
        simp [build, hb, hversion.mp h]
    | blankCodeField hset hversion' h =>
        obtain ⟨b, hb⟩ := hsome hset
        simp [build, hb, mt hversion.mpr hversion', hfield.mp h]
    | badThreshold hset hversion' hfield' hstatus h =>
        obtain ⟨b, hb⟩ := hsome hset
        rw [hthreshold, Option.some_inj, Setting.threshold.injEq] at hstatus
        subst hstatus
        simp [build, hb, mt hversion.mpr hversion', mt hfield.mpr hfield',
          threshold?_eq_none_iff.mpr h]

end CodecDraft

/-! ## What a codec has from its settings -/

/-- The codec has what the settings left in force. -/
structure Codec.Follows (c : Codec ε) (settings : List (CodecDraft.Setting ε)) : Prop where
  contentType : ∃ resolver,
    CodecDraft.inForce? settings .resolver = some (.resolver resolver) ∧
      CodecDraft.inForce? settings .protocol = some (.protocol c.metadata.protocol) ∧
      CodecDraft.inForce? settings .version = some (.version c.metadata.version) ∧
      c.contentType = resolver c.metadata
  failures : ∃ least, CodecDraft.inForce? settings .threshold = some (.threshold least) ∧
    ∀ status, c.isFailure status = true ↔ least ≤ status.code
  modeled : ∀ code, CodecDraft.inForce? settings (.modeled code) =
    (c.catalog.find? code).map (.modeled code)
  fallback : CodecDraft.inForce? settings .fallback = some (.fallback c.catalog.fallback)
  codeField : CodecDraft.inForce? settings .codeField = some (.codeField c.codes.field) ∨
    CodecDraft.inForce? settings .codeField = none ∧ c.codes.field = "__type"
  messages : CodecDraft.inForce? settings .messages = some (.messages c.messages)

theorem CodecDraft.follows_of_build {settings : List (Setting ε)} {c : Codec ε}
    (h : (ofSettings settings).build = .ok c) : c.Follows settings := by
  obtain ⟨fallback, threshold, hfallback, -, -, hthreshold, rfl⟩ := build_eq_ok_iff.mp h
  obtain ⟨hstatus, -⟩ := Option.filter_eq_some_iff.mp hthreshold
  rw [StatusCode.ofNat?] at hstatus
  split at hstatus
  · obtain rfl := Option.some_inj.mp hstatus
    constructor
    · rw [← standing?_ofSettings]
      exact ⟨_, rfl, rfl, rfl, rfl⟩
    · rw [← standing?_ofSettings]
      exact ⟨_, rfl, fun status => decide_eq_true_iff⟩
    · intro code
      rw [← standing?_ofSettings]
      rfl
    · rw [← standing?_ofSettings, standing?, hfallback]
      rfl
    · rw [← standing?_ofSettings, standing?]
      cases (ofSettings settings).codeField with
      | none => exact .inr ⟨rfl, rfl⟩
      | some name => exact .inl rfl
    · rw [← standing?_ofSettings]
      rfl
  · cases hstatus

/-- As many codes are registered as settings name different ones. -/
theorem CodecDraft.length_codes_of_build {settings : List (Setting ε)} {c : Codec ε}
    (h : (ofSettings settings).build = .ok c) :
    c.catalog.codes.length = (settings.filterMap Setting.code?).toFinset.card := by
  have hcodes : c.catalog.codes.toFinset = (settings.filterMap Setting.code?).toFinset := by
    ext code
    have hmodeled := (follows_of_build h).modeled code
    rw [List.mem_toFinset, List.mem_toFinset, FailureCatalog.codes, Dictionary.mem_keys_iff,
      ← mem_codes_iff, hmodeled]
    exact (not_congr Option.map_eq_none_iff).symm
  have hnodup : c.catalog.codes.Nodup := c.catalog.modeled.nodup_keys
  rw [← hcodes, List.toFinset_card_of_nodup hnodup]

/-- Nobody who uses the codecs can tell one from the other. -/
structure Codec.Alike (c c' : Codec ε) : Prop where
  contentType : c.contentType = c'.contentType
  isFailure : ∀ status, c.isFailure status = c'.isFailure status
  codes : c.catalog.codes = c'.catalog.codes
  dispatch : ∀ label r, FailureDispatch.dispatch { c.dispatcher with serviceName := label } r =
    FailureDispatch.dispatch { c'.dispatcher with serviceName := label } r

/-- What settings make is decided by the last one for each slot. If they are refused, it
is for the first reason there is, and otherwise the codec has what is in force. Others
with the same last settings are refused for the same reason or make a codec like it. -/
theorem Codec.last_settings_decide (settings : List (CodecDraft.Setting ε)) :
    (∀ e, (CodecDraft.ofSettings settings).build = .error e ↔ CodecDraft.Refused settings e) ∧
      (∀ c, (CodecDraft.ofSettings settings).build = .ok c → c.Follows settings ∧
        c.catalog.codes.length =
          (settings.filterMap CodecDraft.Setting.code?).toFinset.card) ∧
      ∀ settings', (∀ slot, lastFor CodecDraft.Setting.slot settings slot =
          lastFor CodecDraft.Setting.slot settings' slot) →
        (∃ e, (CodecDraft.ofSettings settings).build = .error e ∧
          (CodecDraft.ofSettings settings').build = .error e) ∨
        ∃ c c', (CodecDraft.ofSettings settings).build = .ok c ∧
          (CodecDraft.ofSettings settings').build = .ok c' ∧ c.Alike c' := by
  refine ⟨fun e => CodecDraft.build_eq_error_iff, fun c h => ?_, fun settings' h => ?_⟩
  · exact ⟨CodecDraft.follows_of_build h, CodecDraft.length_codes_of_build h⟩
  · rw [← CodecDraft.ofSettings_congr h]
    cases hbuild : (CodecDraft.ofSettings settings).build with
    | error e => exact .inl ⟨e, rfl, rfl⟩
    | ok c => exact .inr ⟨c, c, rfl, rfl, rfl, fun _ => rfl, rfl, fun _ _ => rfl⟩

theorem Codec.last_settings_decide_reordered :
    let settings : List (CodecDraft.Setting Conformance.Failure) :=
      [.version " ", .modeled "Bad" (.plain (.plain "old")), .threshold 99,
        .fallback (Conformance.rawBuilder "old"), .modeled "Bad" (Conformance.rawBuilder "raw"),
        .version "1.1", .threshold 400, .fallback (Conformance.fallbackBuilder "base")]
    let settings' : List (CodecDraft.Setting Conformance.Failure) :=
      [.fallback (Conformance.fallbackBuilder "base"), .threshold 400,
        .modeled "Bad" (Conformance.rawBuilder "raw"), .version "1.1"]
    (∀ slot, lastFor CodecDraft.Setting.slot settings slot =
        lastFor CodecDraft.Setting.slot settings' slot) ∧
      ∃ c c', (CodecDraft.ofSettings settings).build = .ok c ∧
        (CodecDraft.ofSettings settings').build = .ok c' ∧ c.Alike c' ∧
        c.contentType = "application/x-amz-json-1.1" ∧ c.catalog.codes = ["Bad"] := by
  intro settings settings'
  have hlast : ∀ slot, lastFor CodecDraft.Setting.slot settings slot =
      lastFor CodecDraft.Setting.slot settings' slot := by
    intro slot
    cases slot with
    | modeled code => by_cases h : "Bad" = code <;>
        simp [settings, settings', lastFor, CodecDraft.Setting.slot, h]
    | protocol | version | resolver | fallback | codeField | messages | threshold => rfl
  obtain ⟨made, hmade, htype, hcodes⟩ : ∃ made,
      (CodecDraft.ofSettings settings).build = .ok made ∧
        made.contentType = "application/x-amz-json-1.1" ∧ made.catalog.codes = ["Bad"] := by
    exact ⟨_, CodecDraft.build_eq_ok_iff.mpr
      ⟨_, ⟨400, by decide⟩, rfl, (by decide : Text.allBlank "1.1" = false), rfl, rfl, rfl⟩,
      rfl, rfl⟩
  refine ⟨hlast, ?_⟩
  rcases (Codec.last_settings_decide settings).2.2 settings' hlast with
    ⟨e, hrefused, -⟩ | ⟨c, c', hbuild, hbuild', halike⟩
  · rw [hmade] at hrefused
    cases hrefused
  · obtain rfl := Except.ok.inj (hmade.symm.trans hbuild)
    exact ⟨made, c', hbuild, hbuild', halike, htype, hcodes⟩

end ServiceCodec
