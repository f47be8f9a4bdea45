import ServiceCodec.Conformance.Failures
import ServiceCodec.Proofs.Failure.Registration

/-!
# What stands around a code does not matter

A code can be sent with a namespace before it, and in a header with a URI behind
it and blanks around. None of this selects anything: whatever is put around a
code, the report holds the code alone. In the body only what stands behind the
last number sign is looked at. In a header the value is first cut at its first
colon, then trimmed, and then cut behind the number sign. The order matters for
what the parts may hold. A URI may hold anything, because it is gone before
anything else is looked for, while a namespace with a colon in it would be taken
for the code. Blanks are trimmed at the ends of what is left, so those before the
namespace and those between the code and the colon both go.

A code that holds a number sign can be registered, but no response ever carries it
(`Codec.qualifiers_select_nothing`).
-/

namespace ServiceCodec

/-! ## Trimming -/

namespace Text

variable {cs front back : List Char}

theorem dropWhile_isBlank_of_head? (h : ∀ c ∈ cs.head?, isBlank c = false) :
    cs.dropWhile isBlank = cs := by
  cases cs with
  | nil => rfl
  | cons c cs => rw [List.dropWhile_cons, h c rfl]; rfl

/-- Of a text that does not end in a blank, only the front is trimmed. -/
theorem trim_eq_dropWhile (hlast : ∀ c ∈ cs.getLast?, isBlank c = false) :
    trim cs = cs.dropWhile isBlank := by
  have hends : ∀ c ∈ (cs.dropWhile isBlank).reverse.head?, isBlank c = false := by
    intro c hc
    rw [List.head?_reverse] at hc
    have hne : cs.dropWhile isBlank ≠ [] := by
      intro hnil
      rw [hnil] at hc
      cases hc
    apply hlast
    rw [← List.takeWhile_append_dropWhile (p := isBlank) (l := cs),
      List.getLast?_append_of_ne_nil _ hne]
    exact hc
  rw [trim, dropWhile_isBlank_of_head? hends, List.reverse_reverse]

theorem trim_append_of_blank (hfront : ∀ c ∈ front, isBlank c = true)
    (hback : ∀ c ∈ back, isBlank c = true) : trim (front ++ (cs ++ back)) = trim cs := by
  have hback' : ∀ c ∈ back.reverse, isBlank c = true := fun c hc =>
    hback c (List.mem_reverse.mp hc)
  rw [trim, trim, List.dropWhile_append_of_pos hfront, List.dropWhile_append]
  split
  · next hempty =>
      rw [List.isEmpty_iff.mp hempty, List.dropWhile_eq_nil_iff.mpr hback]
  · rw [List.reverse_append, List.dropWhile_append_of_pos hback']

end Text

/-! ## Codes and what is put around them -/

/-- A code that a header value can hold as it is. -/
structure PlainCode (code : String) : Prop where
  nonempty : code ≠ ""
  noMark : '#' ∉ code.toList
  noColon : ':' ∉ code.toList
  head : ∀ c ∈ code.toList.head?, Text.isBlank c = false
  last : ∀ c ∈ code.toList.getLast?, Text.isBlank c = false

/-- A namespace with its number sign, or nothing. -/
def IsNamespace (text : List Char) : Prop := text = [] ∨ ∃ name, text = name ++ ['#'] ∧ ':' ∉ name

/-- A URI with the colon before it, or nothing. -/
def IsUriSuffix (text : List Char) : Prop := text = [] ∨ ∃ uri, text = ':' :: uri

/-- The code in a header value, perhaps behind a namespace and before a URI, with spaces and
tabs at the ends and before the colon. -/
inductive Dressed (code : String) : String → Prop where
  | mk {front ns gap uri back : List Char} (hns : IsNamespace ns) (huri : IsUriSuffix uri)
      (hfront : ∀ c ∈ front, c = ' ' ∨ c = '\t') (hgap : ∀ c ∈ gap, c = ' ' ∨ c = '\t')
      (hback : ∀ c ∈ back, c = ' ' ∨ c = '\t') :
      Dressed code (String.ofList (front ++ (ns ++ code.toList ++ (gap ++ (uri ++ back)))))

theorem Dressed.self (code : String) : Dressed code code := by
  have hmk := @Dressed.mk code [] [] [] [] [] (.inl rfl) (.inl rfl) (by simp) (by simp) (by simp)
  simpa using hmk

section Dressed

variable {code : String} {blanks ns cs gap uri back : List Char}

theorem isBlank_of_space (h : ∀ c ∈ blanks, c = ' ' ∨ c = '\t') :
    ∀ c ∈ blanks, Text.isBlank c = true := by
  intro c hc
  rcases h c hc with rfl | rfl <;> decide

theorem notMem_of_space (h : ∀ c ∈ blanks, c = ' ' ∨ c = '\t') : ':' ∉ blanks := by
  intro hmem
  rcases h _ hmem with heq | heq <;> exact absurd heq (by decide)

theorem IsNamespace.notMem (h : IsNamespace ns) : ':' ∉ ns := by
  rcases h with rfl | ⟨name, rfl, hname⟩
  · exact List.not_mem_nil
  · simpa using hname

/-- Up to the first colon there is the text, and blanks at most. -/
theorem takeWhile_ne_colon (hcs : ':' ∉ cs) (huri : IsUriSuffix uri)
    (hgap : ∀ c ∈ gap, c = ' ' ∨ c = '\t') (hback : ∀ c ∈ back, c = ' ' ∨ c = '\t') :
    ∃ blanks, (∀ c ∈ blanks, c = ' ' ∨ c = '\t') ∧
      (cs ++ (gap ++ (uri ++ back))).takeWhile (· ≠ ':') = cs ++ blanks := by
  have hcolon := notMem_of_space hgap
  rcases huri with rfl | ⟨uri, rfl⟩
  · refine ⟨gap ++ back, ?_, ?_⟩
    · intro c hc
      rcases List.mem_append.mp hc with hc | hc
      · exact hgap c hc
      · exact hback c hc
    · apply takeWhile_of_notMem
      simp [hcs, hcolon, notMem_of_space hback]
  · refine ⟨gap, hgap, ?_⟩
    rw [← List.append_assoc]
    exact takeWhile_append_cons_of_notMem (by simp [hcs, hcolon])

/-- Trimming may shorten the namespace at its front, and that is all. -/
theorem trim_namespace_append (hcode : PlainCode code) (hns : IsNamespace ns) :
    ∃ ns', Text.trim (ns ++ code.toList) = ns' ++ code.toList ∧
      (ns' = [] ∨ ∃ name, ns' = name ++ ['#']) := by
  have hlast : ∀ c ∈ (ns ++ code.toList).getLast?, Text.isBlank c = false := by
    rw [List.getLast?_append_of_ne_nil _ (by simpa using hcode.nonempty)]
    exact hcode.last
  rw [Text.trim_eq_dropWhile hlast]
  rcases hns with rfl | ⟨name, rfl, -⟩
  · exact ⟨[], Text.dropWhile_isBlank_of_head? hcode.head, .inl rfl⟩
  · refine ⟨name.dropWhile Text.isBlank ++ ['#'], ?_, .inr ⟨_, rfl⟩⟩
    have hmark : ('#' :: code.toList).dropWhile Text.isBlank = '#' :: code.toList := rfl
    rw [List.append_assoc, List.singleton_append, List.dropWhile_append]
    split
    · next hempty => rw [hmark, List.isEmpty_iff.mp hempty]; rfl
    · rw [List.append_assoc, List.singleton_append]

theorem CodeReader.inHeader_of_dressed {headers : Headers} {value : String}
    (hvalue : headers.firstText? .errorType = some value) (hdressed : Dressed code value)
    (hcode : PlainCode code) : ∃ raw, InHeader headers raw ∧ WithoutNamespace raw code := by
  obtain @⟨front, ns, gap, uri, back, hns, huri, hfront, hgap, hback⟩ := hdressed
  have hcs : ':' ∉ front ++ (ns ++ code.toList) := by
    simp [notMem_of_space hfront, hns.notMem, hcode.noColon]
  obtain ⟨blanks, hblanks, hcut⟩ := takeWhile_ne_colon hcs huri hgap hback
  obtain ⟨ns', htrim, hns'⟩ := trim_namespace_append hcode hns
  refine ⟨String.ofList (ns' ++ code.toList), ⟨_, hvalue, ?_, ?_⟩, hcode.noMark, ?_⟩
  · rw [String.toList_ofList, String.toList_ofList, ← List.append_assoc, hcut, List.append_assoc,
      Text.trim_append_of_blank (isBlank_of_space hfront) (isBlank_of_space hblanks), htrim]
  · intro hempty
    rw [← String.toList_inj, String.toList_ofList] at hempty
    have hnil : code.toList = [] := (List.append_eq_nil_iff.mp hempty).2
    exact hcode.nonempty (String.toList_inj.mp hnil)
  · rcases hns' with rfl | ⟨name, rfl⟩
    · exact .inl (by simp)
    · exact .inr ⟨String.ofList name, by simp [← String.toList_inj]⟩

end Dressed

/-! ## What is selected -/

/-- The text in a field of the body. -/
def FailedResponse.bodyText? (r : FailedResponse) (field : String) : Option String :=
  (r.object?.bind fun object => object.find? field).bind (·.text?)

namespace FailureReport

variable {codes : CodeReader} {messages : MessageReader} {r : FailedResponse} {raw : String}

theorem code_of_header (hobject : r.object? ≠ none)
    (hheader : CodeReader.InHeader r.headers raw) :
    (ofResponse codes messages r).1.code = some (normalizeCode raw) := by
  obtain ⟨object, hobject⟩ := Option.ne_none_iff_exists'.mp hobject
  exact code_ofResponse_eq_some_iff.mpr
    ⟨object, raw, hobject, .header hheader, withoutNamespace_normalizeCode raw⟩

theorem code_of_body (hnone : ∀ c, ¬ CodeReader.InHeader r.headers c)
    (hbody : r.bodyText? codes.field = some raw) (hne : raw ≠ "") :
    (ofResponse codes messages r).1.code = some (normalizeCode raw) := by
  simp only [FailedResponse.bodyText?, Option.bind_eq_some_iff, Json.text?_eq_some_iff] at hbody
  obtain ⟨v, ⟨object, hobject, hfind⟩, rfl⟩ := hbody
  exact code_ofResponse_eq_some_iff.mpr
    ⟨object, raw, hobject, .body hnone hfind hne, withoutNamespace_normalizeCode raw⟩

theorem object?_ne_none_of_bodyText? {field : String} (h : r.bodyText? field = some raw) :
    r.object? ≠ none := by
  intro hnone
  rw [FailedResponse.bodyText?, hnone] at h
  cases h

theorem notMem_code {code : String} (h : (ofResponse codes messages r).1.code = some code) :
    '#' ∉ code.toList := by
  obtain ⟨_, _, -, -, hcode⟩ := code_ofResponse_eq_some_iff.mp h
  exact hcode.bare

end FailureReport

variable {ε : Type}

namespace FailureDispatch

/-- What the dispatch can read from a response. -/
def report (d : FailureDispatch ε) (r : FailedResponse) : FailureReport :=
  (FailureReport.ofResponse d.codes d.messages r).1

/-- The registration that the dispatch finds for a response. -/
def consulted (d : FailureDispatch ε) (r : FailedResponse) : Option (FailureBuilder ε) :=
  (d.report r).code.bind d.catalog.find?

variable {d : FailureDispatch ε} {r r' : FailedResponse} {code value : String}

theorem code_of_dressed (hobject : r.object? ≠ none)
    (hvalue : r.headers.firstText? .errorType = some value) (hdressed : Dressed code value)
    (hcode : PlainCode code) : (d.report r).code = some code := by
  obtain ⟨raw, hheader, hraw⟩ := CodeReader.inHeader_of_dressed hvalue hdressed hcode
  rw [report, FailureReport.code_of_header hobject hheader, normalizeCode_eq_iff.mpr hraw]

theorem code_of_namespaced {ns : String} (hheaders : r'.headers = r.headers)
    (hbody : r.bodyText? d.codes.field = some code)
    (hbody' : r'.bodyText? d.codes.field = some (ns ++ "#" ++ code)) (hne : code ≠ "")
    (hmark : '#' ∉ code.toList) : (d.report r').code = (d.report r).code := by
  by_cases hheader : ∃ raw, CodeReader.InHeader r.headers raw
  · -- A code in the header counts for both.
    obtain ⟨raw, hraw⟩ := hheader
    have hraw' : CodeReader.InHeader r'.headers raw := by rwa [hheaders]
    rw [report, report,
      FailureReport.code_of_header (FailureReport.object?_ne_none_of_bodyText? hbody) hraw,
      FailureReport.code_of_header (FailureReport.object?_ne_none_of_bodyText? hbody') hraw']
  · have hne' : ns ++ "#" ++ code ≠ "" := by
      intro hempty
      rw [← String.toList_inj] at hempty
      simp at hempty
    rw [not_exists] at hheader
    have hheader' : ∀ raw, ¬ CodeReader.InHeader r'.headers raw := by rwa [hheaders]
    rw [report, report, FailureReport.code_of_body hheader hbody hne,
      FailureReport.code_of_body hheader' hbody' hne',
      normalizeCode_append hmark, normalizeCode_of_bare hmark]

theorem consulted_congr (h : (d.report r').code = (d.report r).code) :
    d.consulted r' = d.consulted r := by
  rw [consulted, consulted, h]

/-- What a response selects is the registration that is consulted for it, if its object binds. -/
theorem selects_iff_consulted {b : FailureBuilder ε} {s : b.State} :
    d.Selects r code b s ↔ (d.report r).code = some code ∧ d.consulted r = some b ∧
      bindObject b r.object? = (.ok (), s) := by
  rw [selects_iff]
  refine and_congr_right fun hcode => ?_
  rw [consulted, report, hcode, Option.bind_some]

/-- Of a response only the code and the object count for what it selects. -/
theorem selects_congr (h : (d.report r').code = (d.report r).code) {b : FailureBuilder ε}
    (hbind : bindObject b r'.object? = bindObject b r.object?) (s : b.State) :
    d.Selects r' code b s ↔ d.Selects r code b s := by
  rw [selects_iff_consulted, selects_iff_consulted, h, consulted_congr h, hbind]

section Congruence

variable {d' : FailureDispatch ε}

theorem modeled_congr {read : FailureReport} (hlabel : d'.serviceName = d.serviceName)
    (hfind : ∀ code, read.code = some code → d'.catalog.find? code = d.catalog.find? code) :
    d'.modeled read = d.modeled read := by
  rw [modeled, modeled]
  cases hcode : read.code with
  | none => rfl
  | some code => simp only [hfind code hcode, hlabel]

theorem dispatch_eq (d : FailureDispatch ε) (r : FailedResponse) :
    d.dispatch r = ((d.dispatchReport (d.report r)).1,
      (FailureReport.ofResponse d.codes d.messages r).2 ++
        (d.dispatchReport (d.report r)).2) := rfl

/-- Dispatches that find the same under the code of a response make the same of it. -/
theorem dispatch_congr (hcodes : d'.codes = d.codes) (hmessages : d'.messages = d.messages)
    (hlabel : d'.serviceName = d.serviceName)
    (hfallback : d'.catalog.fallback = d.catalog.fallback)
    (hfind : ∀ code, (d.report r).code = some code →
      d'.catalog.find? code = d.catalog.find? code) : d'.dispatch r = d.dispatch r := by
  have hreport : d'.report r = d.report r := by rw [report, report, hcodes, hmessages]
  have hmade : d'.dispatchReport (d.report r) = d.dispatchReport (d.report r) := by
    rw [dispatchReport, dispatchReport, modeled_congr hlabel hfind, hlabel, hfallback]
  rw [dispatch_eq, dispatch_eq, hreport, hmade, hcodes, hmessages]

end Congruence

end FailureDispatch

/-- Namespaces, URIs and blanks around a code change neither the code that is reported nor the
registration that is consulted, so if that binds the same of both objects, the same failure is
selected. No code that is reported has a number sign, so what is registered under a code with one
is never selected, and might as well not be registered. -/
theorem Codec.qualifiers_select_nothing (c : Codec ε) (label : Option String) :
    let d : FailureDispatch ε := { c.dispatcher with serviceName := label }
    (∀ (r r' : FailedResponse) (ns code : String), r'.headers = r.headers →
      r.bodyText? c.codes.field = some code →
      r'.bodyText? c.codes.field = some (ns ++ "#" ++ code) → code ≠ "" → '#' ∉ code.toList →
        (d.report r').code = (d.report r).code ∧ d.consulted r' = d.consulted r ∧
          ∀ code' b s, FailureDispatch.bindObject b r'.object? =
              FailureDispatch.bindObject b r.object? →
            (d.Selects r' code' b s ↔ d.Selects r code' b s)) ∧
    (∀ (r r' : FailedResponse) (code value : String), r.object? ≠ none → r'.object? ≠ none →
      r.headers.firstText? .errorType = some code → r'.headers.firstText? .errorType = some value →
      PlainCode code → Dressed code value →
        (d.report r).code = some code ∧ (d.report r').code = (d.report r).code ∧
          d.consulted r' = d.consulted r ∧
          ∀ code' b s, FailureDispatch.bindObject b r'.object? =
              FailureDispatch.bindObject b r.object? →
            (d.Selects r' code' b s ↔ d.Selects r code' b s)) ∧
    (∀ raw, normalizeCode (normalizeCode raw) = normalizeCode raw) ∧
    (∀ r code, (d.report r).code = some code → '#' ∉ code.toList) ∧
    ∀ r code, '#' ∈ code.toList → (∀ b s, ¬ d.Selects r code b s) ∧
      FailureDispatch.dispatch { (c.without code).dispatcher with serviceName := label } r =
        d.dispatch r := by
  intro d
  refine ⟨?_, ?_, ?_, ?_, ?_⟩
  · intro r r' ns code hheaders hbody hbody' hne hmark
    have hcode : (d.report r').code = (d.report r).code :=
      FailureDispatch.code_of_namespaced hheaders hbody hbody' hne hmark
    exact ⟨hcode, FailureDispatch.consulted_congr hcode,
      fun _ _ s hbind => FailureDispatch.selects_congr hcode hbind s⟩
  · intro r r' code value hobject hobject' hheader hheader' hcode hdressed
    have hplain : (d.report r).code = some code :=
      FailureDispatch.code_of_dressed hobject hheader (.self code) hcode
    have hsame : (d.report r').code = (d.report r).code :=
      (FailureDispatch.code_of_dressed hobject' hheader' hdressed hcode).trans hplain.symm
    exact ⟨hplain, hsame, FailureDispatch.consulted_congr hsame,
      fun _ _ s hbind => FailureDispatch.selects_congr hsame hbind s⟩
  · exact fun raw => normalizeCode_of_bare (withoutNamespace_normalizeCode raw).bare
  · exact fun r code => FailureReport.notMem_code
  · intro r code hmark
    constructor
    · intro b s hselects
      have hcode := (FailureDispatch.selects_iff.mp hselects).1
      exact FailureReport.notMem_code hcode hmark
    · apply FailureDispatch.dispatch_congr
      case hfind =>
        intro code' hcode'
        have hne : code' ≠ code := by
          intro heq
          rw [heq] at hcode'
          exact FailureReport.notMem_code hcode' hmark
        show (c.catalog.modeled.erase code).find? code' = c.catalog.modeled.find? code'
        rw [Dictionary.find?_erase, if_neg hne]
      all_goals rfl

theorem Codec.qualifiers_select_nothing_between_blanks :
    ∃ (c : Codec Conformance.Failure) (r r' : FailedResponse),
      (CodecDraft.ofSettings [.fallback (Conformance.fallbackBuilder "base"),
          .modeled "Foo" (Conformance.rawBuilder "raw"),
          .modeled "ns#Foo" (Conformance.rawBuilder "lost")]).build = .ok c ∧
        r.headers.firstText? .errorType = some "Foo" ∧
        r'.headers.firstText? .errorType = some "\ta b#ns#Foo :http://x/#y: " ∧
        (c.dispatcher.report r').code = some "Foo" ∧
        c.dispatcher.consulted r' = c.dispatcher.consulted r ∧
        (c.without "ns#Foo").dispatcher.dispatch r' = c.dispatcher.dispatch r' ∧
        ∃ s s' : FailedResponse, s.body = bytesOf "\x7b\"__type\":\"Bar\"\x7d" ∧
          s'.body = bytesOf "\x7b\"__type\":\"a:b#c#Bar\"\x7d" ∧
          (c.dispatcher.report s').code = (c.dispatcher.report s).code := by
  obtain ⟨c, hbuild, hfield⟩ : ∃ c : Codec Conformance.Failure,
      (CodecDraft.ofSettings [.fallback (Conformance.fallbackBuilder "base"),
          .modeled "Foo" (Conformance.rawBuilder "raw"),
          .modeled "ns#Foo" (Conformance.rawBuilder "lost")]).build = .ok c ∧
        c.codes.field = "__type" := ⟨_, rfl, rfl⟩
  let r : FailedResponse := ⟨⟨⟨400, by decide⟩,
    .ofList [("x-amzn-errortype", [⟨bytesOf "Foo", by decide +kernel⟩])]⟩, bytesOf "\x7b\x7d"⟩
  let r' : FailedResponse := ⟨⟨⟨400, by decide⟩, .ofList [("x-amzn-errortype",
    [⟨bytesOf "\ta b#ns#Foo :http://x/#y: ", by decide +kernel⟩])]⟩, bytesOf "\x7b\x7d"⟩
  let s : FailedResponse := ⟨⟨⟨400, by decide⟩, ∅⟩, bytesOf "\x7b\"__type\":\"Bar\"\x7d"⟩
  let s' : FailedResponse :=
    ⟨⟨⟨400, by decide⟩, ∅⟩, bytesOf "\x7b\"__type\":\"a:b#c#Bar\"\x7d"⟩
  have hobject : r.object? ≠ none := Option.isSome_iff_ne_none.mp (by decide +kernel)
  have hheader : r.headers.firstText? .errorType = some "Foo" := by decide +kernel
  have hheader' : r'.headers.firstText? .errorType = some "\ta b#ns#Foo :http://x/#y: " := by
    decide +kernel
  have hbody : s.bodyText? c.codes.field = some "Bar" := by
    rw [hfield]
    decide +kernel
  have hbody' : s'.bodyText? c.codes.field = some ("a:b#c" ++ "#" ++ "Bar") := by
    rw [hfield]
    decide +kernel
  have hplain : PlainCode "Foo" :=
    ⟨by decide, by decide, by decide, fun _ hc => by cases hc; rfl, fun _ hc => by cases hc; rfl⟩
  have hdressed : Dressed "Foo" "\ta b#ns#Foo :http://x/#y: " := by
    have hmk := @Dressed.mk "Foo" ['\t'] "a b#ns#".toList [' '] ":http://x/#y:".toList [' ']
      (.inr ⟨"a b#ns".toList, by decide, by decide⟩) (.inr ⟨"http://x/#y:".toList, by decide⟩)
      (by simp) (by simp) (by simp)
    exact hmk
  obtain ⟨hnamespace, hdress, -, -, hlost⟩ := Codec.qualifiers_select_nothing c none
  obtain ⟨hcode, hsame, hconsulted, -⟩ :=
    hdress r r' "Foo" _ hobject hobject hheader hheader' hplain hdressed
  exact ⟨c, r, r', hbuild, hheader, hheader', hsame.trans hcode, hconsulted,
    (hlost r' "ns#Foo" (by decide)).2, s, s', rfl, rfl,
    (hnamespace s s' "a:b#c" "Bar" rfl hbody hbody' (by decide) (by decide)).1⟩

end ServiceCodec
