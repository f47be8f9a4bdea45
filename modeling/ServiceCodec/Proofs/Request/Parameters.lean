import ServiceCodec.Operation.Basic
import ServiceCodec.Proofs.Request.Query
import ServiceCodec.Proofs.Request.Target

/-!
# Which query parameters arrive

Parameters that an input binds to the query are put behind the expanded path,
with a separator that is chosen by looking at the path as text. Two kinds of
template are accepted and not served by this.

* A number sign outside of the labels makes a fragment of all that follows it.
  The parameters are not sent.
* A question mark at the end is taken for the beginning of the query. If there
  is one before it, the query has begun earlier, and the first parameter is
  joined to the piece in front of it.

For every other template the parameters are the last ones of the query, in the
order in which they were bound, and for the second kind they never are:
`Codec.parameters_arrive_iff`. Both conditions are about templates, and they
carry over to the expanded path because labels expand to neither character.
-/

namespace ServiceCodec

/-- The query parameter that a member binds. -/
def Location.parameter? : Location → Option (String × String)
  | .query name value => some (name, value)
  | _ => none

def Location.parameters (members : List Location) : List (String × String) :=
  members.filterMap parameter?

namespace Locations

theorem query_bind {ls ls' : Locations} {m : Location} (h : ls.bind m = .ok ls') :
    ls'.query = ls.query ++ m.parameter?.toList := by
  cases m with
  | label name value => cases h; exact (List.append_nil _).symm
  | query name value => cases h; rfl
  | header name value =>
      obtain ⟨n, v, _, _, rfl⟩ := bindHeader_eq_ok_iff.mp h
      exact (List.append_nil _).symm

theorem query_bindAll {ls ls' : Locations} {members : List Location}
    (h : ls.bindAll members = .ok ls') :
    ls'.query = ls.query ++ Location.parameters members := by
  induction members generalizing ls with
  | nil => cases h; exact (List.append_nil _).symm
  | cons m rest ih =>
      rw [bindAll, List.foldlM_cons] at h
      obtain ⟨ls₁, hm, hrest⟩ := Except.bind_eq_ok_iff.mp h
      rw [ih hrest, query_bind hm, List.append_assoc, Location.parameters, Location.parameters,
        List.filterMap_cons]
      cases m.parameter? <;> rfl

theorem query_ofList {ls : Locations} {members : List Location} (h : ofList members = .ok ls) :
    ls.query = Location.parameters members := query_bindAll h

end Locations

/-- A question mark at the end that is not the first. -/
def EndsInLaterMark (path : List Char) : Prop :=
  path.getLast? = some '?' ∧ '?' ∈ path.dropLast

theorem endsInLaterMark_concat {path : List Char} {c : Char} :
    EndsInLaterMark (path ++ [c]) ↔ c = '?' ∧ '?' ∈ path := by
  rw [EndsInLaterMark, List.getLast?_concat, List.dropLast_concat, Option.some_inj]

namespace Template

/-- A number sign outside of the labels: what stands behind it, the parameters too,
is a fragment. -/
def CutsOff (t : Template) : Prop := .char '#' ∈ t.pieces

/-- A question mark at the end that is not the first: the parameters are put behind
it, but the query has begun before. -/
def Fuses (t : Template) : Prop :=
  t.pieces.getLast? = some (.char '?') ∧ .char '?' ∈ t.pieces.dropLast

instance (t : Template) : Decidable t.CutsOff :=
  inferInstanceAs (Decidable (.char '#' ∈ t.pieces))

instance (t : Template) : Decidable t.Fuses :=
  inferInstanceAs (Decidable (_ ∧ _))

variable {t : Template} {labels : Dictionary String} {path : List Char}

theorem cutsOff_iff (h : t.expand labels = .ok path) : t.CutsOff ↔ '#' ∈ path :=
  (mem_expand_iff (by decide) h).symm

theorem fuses_iff (h : t.expand labels = .ok path) :
    t.Fuses ↔ EndsInLaterMark path := by
  rw [Fuses, EndsInLaterMark, getLast?_expand_iff (by decide) h]
  obtain ⟨cs, hcs, rfl⟩ := expand_eq_ok_iff.mp h
  refine and_congr_right fun hpiece => ?_
  obtain ⟨ps, hps⟩ := List.getLast?_eq_some_iff.mp hpiece
  rw [hps] at hcs ⊢
  obtain ⟨xs, ys, hxs, hys, rfl⟩ := expandPieces_append_eq_ok_iff.mp hcs
  obtain rfl := Except.ok.inj (expandPieces_singleton_eq_ok_iff.mp hys)
  rw [List.dropLast_concat, ← List.cons_append, List.dropLast_concat, List.mem_cons,
    mem_expandPieces_iff (by decide) hxs]
  exact (or_iff_right (by decide)).symm

end Template

/-! ## The target -/

/-- The query begins in the path or with the separator. A piece of it is left begun
only by a question mark at the end of the path that is not the first. -/
theorem exists_query (path : List Char) :
    ∃ front query, path ++ querySeparator path = front ++ '?' :: query ∧ '?' ∉ front ∧
      (begunPiece query = [] ∧ ¬ EndsInLaterMark path ∨
        (∃ xs, begunPiece query = xs ++ ['?']) ∧ EndsInLaterMark path) := by
  by_cases hmark : '?' ∈ path
  · have hseparator : querySeparator path =
        if path.getLast? = some '?' ∨ path.getLast? = some '&' then [] else ['&'] := by
      simp [querySeparator, hmark]
    obtain ⟨front, query, rfl, hfront⟩ := List.eq_append_cons_of_mem hmark
    rcases List.eq_nil_or_concat' query with rfl | ⟨query, c, rfl⟩
    · -- The path ends in its first question mark, and the query begins behind it.
      refine ⟨front, [], ?_, hfront, .inl ⟨rfl, ?_⟩⟩
      · rw [hseparator, List.getLast?_concat, if_pos (.inl rfl), List.append_nil]
      · rw [endsInLaterMark_concat]
        exact fun h => hfront h.2
    · rw [← List.cons_append, ← List.append_assoc] at hseparator ⊢
      rw [List.getLast?_concat] at hseparator
      rw [endsInLaterMark_concat]
      by_cases hend : c = '?'
      · -- No separator here, although the query has begun: its last piece goes on.
        subst hend
        refine ⟨front, query ++ ['?'], ?_, hfront, .inr ⟨⟨begunPiece query, ?_⟩, rfl, ?_⟩⟩
        · rw [hseparator, if_pos (.inl rfl), List.append_nil, List.append_assoc]
          rfl
        · exact begunPiece_concat_mark query
        · exact List.mem_append_right front List.mem_cons_self
      · have hnot : ¬ (c = '?' ∧ '?' ∈ front ++ '?' :: query) := fun h => hend h.1
        by_cases hamp : c = '&'
        · subst hamp
          refine ⟨front, query ++ ['&'], ?_, hfront,
            .inl ⟨begunPiece_concat_ampersand query, hnot⟩⟩
          rw [hseparator, if_pos (.inr rfl), List.append_nil, List.append_assoc]
          rfl
        · refine ⟨front, query ++ [c] ++ ['&'], ?_, hfront,
            .inl ⟨begunPiece_concat_ampersand (query ++ [c]), hnot⟩⟩
          rw [hseparator, if_neg (by simp [hend, hamp]), List.append_assoc, List.append_assoc,
            List.append_assoc]
          rfl
  · refine ⟨path, [], ?_, hmark, .inl ⟨rfl, fun h => hmark (List.mem_of_getLast? h.1)⟩⟩
    simp [querySeparator, hmark]

namespace Uri

variable {uri : Uri}

theorem query_ofText {front query : List Char} (hfront : '?' ∉ front)
    (hcut : '#' ∉ front ++ '?' :: query)
    (h : ofText (String.ofList (front ++ '?' :: query)) = .ok uri) : uri.query = some query := by
  rw [ofText] at h
  split at h
  · cases h
  · simp only [String.toList_ofList, takeWhile_of_notMem hcut,
      dropWhile_append_cons_of_notMem hfront] at h
    split at h
    · exact Except.ok.inj h ▸ rfl
    · cases h

/-- Nothing behind a number sign is looked at. -/
theorem ofText_of_cut {path rest : List Char} (hcut : '#' ∈ path)
    (h : ofText (String.ofList (path ++ rest)) = .ok uri) :
    ofText (String.ofList path) = .ok uri := by
  obtain ⟨front, fragment, rfl, hfront⟩ := List.eq_append_cons_of_mem hcut
  rw [ofText] at h ⊢
  split at h
  · cases h
  · next hsize =>
      rw [String.ofList_append, String.utf8ByteSize_append] at hsize
      rw [if_neg (by omega)]
      rw [String.toList_ofList, List.append_assoc, List.cons_append,
        takeWhile_append_cons_of_notMem hfront] at h
      rw [String.toList_ofList, takeWhile_append_cons_of_notMem hfront]
      exact h

end Uri

/-! ## The requests of a codec -/

/-- The codec makes the request, with a body of the input or with a given one. -/
def Codec.Makes {ε : Type} (c : Codec ε) (op : Operation) (input : Input) (rq : Request) : Prop :=
  c.marshal op input = .ok rq ∨ ∃ body, c.marshalBody op input body = .ok rq

theorem Codec.Makes.uri {ε : Type} {c : Codec ε} {op : Operation} {input : Input} {rq : Request}
    (h : c.Makes op input rq) :
    ∃ ls target, input.locations = .ok ls ∧ targetText op.template ls = .ok target ∧
      Uri.ofText target = .ok rq.uri := by
  have hfinish : ∀ {target headers body}, RequestStyle.finish op target headers body = .ok rq →
      Uri.ofText target = .ok rq.uri := by
    intro target headers body hmade
    obtain ⟨uri, huri, rfl⟩ := RequestStyle.finish_eq_ok_iff.mp hmade
    exact huri
  rcases h with h | ⟨body, h⟩
  · obtain ⟨_, target, headers, hstart, hmade⟩ := RequestStyle.marshal_eq_ok_iff.mp h
    obtain ⟨ls, hls, htarget, _⟩ := RequestStyle.start_eq_ok_iff.mp hstart
    refine ⟨ls, target, hls, htarget, ?_⟩
    rcases hmade with ⟨_, hmade⟩ | ⟨_, _, _, _, _, hmade⟩
    · exact hfinish hmade
    · exact hfinish hmade
  · obtain ⟨_, target, headers, hstart, hmade⟩ := RequestStyle.marshalBody_eq_ok_iff.mp h
    obtain ⟨ls, hls, htarget, _⟩ := RequestStyle.start_eq_ok_iff.mp hstart
    exact ⟨ls, target, hls, htarget, hfinish hmade⟩

theorem notMem_querySeparator (path : List Char) : '#' ∉ querySeparator path := by
  rw [querySeparator]
  split
  · decide
  · split
    · decide
    · decide

/-- Unless the path is cut off, its query begins in it or with the separator, and
goes on to the last parameter. -/
theorem lastParameters?_ofText {path : List Char} {uri : Uri} {p : String × String}
    {rest : List (String × String)} (hcut : '#' ∉ path)
    (h : Uri.ofText (String.ofList (appendQuery path (p :: rest))) = .ok uri) :
    uri.lastParameters? (p :: rest).length = some (p :: rest) ↔ ¬ EndsInLaterMark path := by
  obtain ⟨front, query, htarget, hfront, hbegun⟩ := exists_query path
  have hkept : '#' ∉ path ++ querySeparator path ++
      ("&".intercalate ((p :: rest).map encodeParameter)).toList := by
    rw [List.mem_append, List.mem_append]
    rintro ((hmem | hmem) | hmem)
    · exact hcut hmem
    · exact notMem_querySeparator path hmem
    · exact notMem_parameters rfl (by decide) (by decide) hmem
  rw [appendQuery, if_neg (by simp)] at h
  rw [htarget, List.append_assoc, List.cons_append] at h hkept
  rw [Uri.lastParameters?_eq_some_iff (Uri.query_ofText hfront hkept h)]
  rcases hbegun with ⟨hnil, hnot⟩ | ⟨⟨xs, hxs⟩, hfused⟩
  · rw [hnil, List.nil_append]
    exact iff_of_true (decodeParameter_encodeParameter p) hnot
  · rw [hxs, List.append_assoc, List.singleton_append]
    exact iff_of_false (decodeParameter_fused xs p) (fun hnot => hnot hfused)

/-- The parameters that members bind to the query arrive as they were bound, unless
the template fuses the first of them; if the template is cut off, the URI is the one
without parameters. -/
theorem Codec.parameters_arrive_iff {ε : Type} (c : Codec ε) (op : Operation) (input : Input)
    (members : List Location) (rq : Request)
    (hmembers : input.locations = Locations.ofList members)
    (hbound : Location.parameters members ≠ []) (hmade : c.Makes op input rq) :
    (¬ op.template.CutsOff →
      (rq.uri.lastParameters? (Location.parameters members).length =
          some (Location.parameters members) ↔ ¬ op.template.Fuses)) ∧
      (op.template.CutsOff → ∃ ls target, input.locations = .ok ls ∧
        targetText op.template { ls with query := [] } = .ok target ∧
          Uri.ofText target = .ok rq.uri) := by
  obtain ⟨ls, target, hls, htarget, huri⟩ := hmade.uri
  obtain ⟨path, hpath, rfl⟩ := targetText_eq_ok_iff.mp htarget
  refine ⟨fun hkept => ?_, fun hcut => ?_⟩
  · have hquery := Locations.query_ofList (hmembers.symm.trans hls)
    rw [← hquery] at hbound ⊢
    obtain ⟨p, rest, hcons⟩ := List.exists_cons_of_ne_nil hbound
    rw [hcons] at huri ⊢
    rw [Template.fuses_iff hpath]
    have hmark : '#' ∉ path := fun hmem => hkept ((Template.cutsOff_iff hpath).mpr hmem)
    exact lastParameters?_ofText hmark huri
  · refine ⟨ls, _, hls, targetText_eq_ok_iff.mpr ⟨path, hpath, rfl⟩, ?_⟩
    have hmark := (Template.cutsOff_iff hpath).mp hcut
    rw [appendQuery] at huri
    split at huri
    · exact huri
    · rw [List.append_assoc] at huri
      exact Uri.ofText_of_cut hmark huri

theorem Codec.parameters_arrive_behind_query :
    ∃ op rq, ({ path := "/?Action=X" } : OperationDraft).build = .ok op ∧
      (Codec.bare .restJson).marshal op
        { locations := Locations.ofList [.query "k" "v&w", .query "k" "?"] } = .ok rq ∧
      rq.uri.toText = "/?Action=X&k=v%26w&k=%3F" ∧
      rq.uri.lastParameters? 2 = some [("k", "v&w"), ("k", "?")] := by
  obtain ⟨op, rq, hop, hrq, htext, hcut, hfuses⟩ : ∃ op rq,
      ({ path := "/?Action=X" } : OperationDraft).build = .ok op ∧
        (Codec.bare .restJson).marshal op
          { locations := Locations.ofList [.query "k" "v&w", .query "k" "?"] } = .ok rq ∧
        rq.uri.toText = "/?Action=X&k=v%26w&k=%3F" ∧
        ¬ op.template.CutsOff ∧ ¬ op.template.Fuses :=
    ⟨_, _, rfl, rfl, rfl, by decide, by decide⟩
  have harrive := Codec.parameters_arrive_iff (Codec.bare .restJson) op _
    [.query "k" "v&w", .query "k" "?"] rq rfl (by decide) (.inl hrq)
  exact ⟨op, rq, hop, hrq, htext, (harrive.1 hcut).mpr hfuses⟩

/-- Two templates that are accepted, and a parameter that does not arrive. -/
theorem Codec.parameters_lost :
    (∃ op rq, ({ path := "/a?b?" } : OperationDraft).build = .ok op ∧
      (Codec.bare .restJson).marshal op
        { locations := Locations.ofList [.query "k" "v"] } = .ok rq ∧
      rq.uri.toText = "/a?b?k=v" ∧ rq.uri.lastParameters? 1 = some [("b?k", "v")]) ∧
      ∃ op rq, ({ path := "/a#b" } : OperationDraft).build = .ok op ∧
        (Codec.bare .restJson).marshal op
          { locations := Locations.ofList [.query "k" "v"] } = .ok rq ∧
        rq.uri.toText = "/a" ∧ rq.uri.lastParameters? 1 = none := by
  refine ⟨⟨_, _, rfl, rfl, rfl, ?_⟩, _, _, rfl, rfl, rfl, rfl⟩
  decide +kernel

end ServiceCodec
