import ServiceCodec.Failure.Reading
import ServiceCodec.Proofs.Text.Split

/-!
# Which code a failed response carries

`CodeReader.read` and `normalizeCode` are programs: they try one place after
the other and cut from the back. Here the same is said without an order of
steps. `WithoutNamespace` describes what stands behind the last number sign,
`CodeReader.Sent` what a response calls its failure, and each of the two
programs answers exactly what its description allows.

Neither description leaves a choice. A text has one part behind its last number
sign, and a code in the body counts only while no header value holds one, so
the programs could not answer anything else and still be described this way.
-/

namespace ServiceCodec

/-- `code` is what `raw` has behind its last number sign, or all of `raw` if it
has none. -/
structure WithoutNamespace (raw code : String) : Prop where
  bare : '#' ∉ code.toList
  behind : raw = code ∨ ∃ ns, raw = ns ++ "#" ++ code

theorem normalizeCode_of_bare {code : String} (h : '#' ∉ code.toList) :
    normalizeCode code = code := by
  have hrev : '#' ∉ code.toList.reverse := fun hmem => h (List.mem_reverse.mp hmem)
  rw [normalizeCode, takeWhile_of_notMem hrev, List.reverse_reverse, String.ofList_toList]

theorem normalizeCode_append {ns code : String} (h : '#' ∉ code.toList) :
    normalizeCode (ns ++ "#" ++ code) = code := by
  have hrev : '#' ∉ code.toList.reverse := fun hmem => h (List.mem_reverse.mp hmem)
  have hraw : (ns ++ "#" ++ code).toList.reverse
      = code.toList.reverse ++ '#' :: ns.toList.reverse := by simp
  rw [normalizeCode, hraw, takeWhile_append_cons_of_notMem hrev, List.reverse_reverse,
    String.ofList_toList]

theorem withoutNamespace_normalizeCode (raw : String) :
    WithoutNamespace raw (normalizeCode raw) := by
  by_cases hmem : '#' ∈ raw.toList.reverse
  · obtain ⟨code, ns, hraw, hbare⟩ := List.eq_append_cons_of_mem hmem
    have hparts : raw = String.ofList ns.reverse ++ "#" ++ String.ofList code.reverse := by
      rw [← String.toList_inj, ← List.reverse_inj, hraw]
      simp
    have hcode : '#' ∉ (String.ofList code.reverse).toList := by
      rwa [String.toList_ofList, List.mem_reverse]
    rw [hparts, normalizeCode_append hcode]
    exact ⟨hcode, .inr ⟨_, rfl⟩⟩
  · have hbare : '#' ∉ raw.toList := fun h => hmem (List.mem_reverse.mpr h)
    rw [normalizeCode_of_bare hbare]
    exact ⟨hbare, .inl rfl⟩

theorem normalizeCode_eq_iff {raw code : String} :
    normalizeCode raw = code ↔ WithoutNamespace raw code := by
  constructor
  · rintro rfl
    exact withoutNamespace_normalizeCode raw
  · rintro ⟨hbare, rfl | ⟨ns, rfl⟩⟩
    · exact normalizeCode_of_bare hbare
    · exact normalizeCode_append hbare

theorem Json.text?_eq_some_iff {v : Json} {text : String} :
    v.text? = some text ↔ v = .string text := by
  constructor
  · intro h
    cases v with
    | string s => cases h; rfl
    | null | bool _ | number _ | array _ | object _ => cases h
  · intro h
    rw [h]
    rfl

namespace CodeReader

/-- The first value of the error type header is text that holds `code`, before
its first colon and between blanks. -/
def InHeader (headers : Headers) (code : String) : Prop :=
  ∃ value, headers.firstText? .errorType = some value ∧
    code.toList = Text.trim (value.toList.takeWhile (· ≠ ':')) ∧ code ≠ ""

/-- What a response with an object for a body calls its failure. -/
inductive Sent (field : String) (headers : Headers) (body : JsonObject) : String → Prop where
  | header {code : String} (h : InHeader headers code) : Sent field headers body code
  | body {code : String} (hnone : ∀ c, ¬ InHeader headers c)
      (h : body.find? field = some (.string code)) (hne : code ≠ "") :
      Sent field headers body code

theorem ofHeader?_eq_some_iff {value code : String} :
    ofHeader? value = some code ↔
      code.toList = Text.trim (value.toList.takeWhile (· ≠ ':')) ∧ code ≠ "" := by
  simp only [ofHeader?]
  constructor
  · intro h
    split at h
    · cases h
    · next hne =>
        cases h
        refine ⟨String.toList_ofList, fun hempty => hne ?_⟩
        rw [← String.toList_inj, String.toList_ofList] at hempty
        rw [hempty]
        rfl
  · rintro ⟨htrim, hne⟩
    rw [← htrim, if_neg (by simpa using hne), String.ofList_toList]

theorem headerCode?_eq_some_iff {headers : Headers} {code : String} :
    headerCode? headers = some code ↔ InHeader headers code := by
  simp only [headerCode?, InHeader, Option.bind_eq_some_iff, ofHeader?_eq_some_iff]

theorem bodyCode?_eq_some_iff {r : CodeReader} {body : JsonObject} {code : String} :
    r.bodyCode? body = some code ↔ body.find? r.field = some (.string code) ∧ code ≠ "" := by
  simp only [bodyCode?, Option.filter_eq_some_iff, Option.bind_eq_some_iff,
    Json.text?_eq_some_iff, exists_eq_right, decide_eq_true_eq]

theorem read_eq_some_iff {r : CodeReader} {headers : Headers} {body : JsonObject}
    {code : String} :
    r.read headers (some body) = some code ↔ Sent r.field headers body code := by
  rw [read]
  split
  · next c hc =>
      have hin := headerCode?_eq_some_iff.mp hc
      constructor
      · intro h
        cases h
        exact .header hin
      · rintro (h | ⟨hnone, _, _⟩)
        · rw [← hc]
          exact headerCode?_eq_some_iff.mpr h
        · exact absurd hin (hnone c)
  · next hc =>
      have hnone : ∀ c, ¬ InHeader headers c := fun c h => by
        rw [headerCode?_eq_some_iff.mpr h] at hc
        cases hc
      rw [Option.bind_some, bodyCode?_eq_some_iff]
      constructor
      · rintro ⟨hv, hne⟩
        exact .body hnone hv hne
      · rintro (h | ⟨_, hv, hne⟩)
        · exact absurd h (hnone code)
        · exact ⟨hv, hne⟩

end CodeReader

end ServiceCodec
