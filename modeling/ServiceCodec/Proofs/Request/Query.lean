import ServiceCodec.Proofs.Text.Percent
import ServiceCodec.Request.Target

/-!
# Reading parameters off a query

A query is read by splitting it at ampersands, each piece at its first `=`, and
decoding both sides. Encoded names and values have neither character, so what
was joined comes apart again (`decodeParameter_encodeParameter`), and the only
question is what the query held before the first parameter.

That is answered by the piece which the query has begun, the text behind its
last ampersand. The finished pieces in front of it take part in nothing. If no
piece has been begun, all parameters are read back; if one has been, the first
parameter becomes a part of it, and when it ends in a question mark there is no
parameter that survives this (`decodeParameter_fused`), wherever the piece has
its first `=`.
-/

namespace ServiceCodec

/-! ## One parameter -/

/-- The parameter that a piece of a query spells, up to and from its first `=`. -/
def decodeParameter (cs : List Char) : Option (String × String) := do
  return (← Percent.decodeText (cs.takeWhile (· ≠ '=')),
    ← Percent.decodeText ((cs.dropWhile (· ≠ '=')).drop 1))

theorem decodeParameter_eq_some_iff {xs ys : List Char} {p : String × String} (h : '=' ∉ xs) :
    decodeParameter (xs ++ '=' :: ys) = some p ↔
      Percent.decodeText xs = some p.1 ∧ Percent.decodeText ys = some p.2 := by
  rw [decodeParameter, takeWhile_append_cons_of_notMem h, dropWhile_append_cons_of_notMem h,
    List.drop_one, List.tail_cons]
  obtain ⟨name, value⟩ := p
  cases Percent.decodeText xs <;> cases Percent.decodeText ys <;> simp

theorem toList_encodeParameter (p : String × String) :
    (encodeParameter p).toList =
      (Percent.encode p.1).toList ++ '=' :: (Percent.encode p.2).toList := by
  rw [encodeParameter, String.toList_append, String.toList_append, List.append_assoc]
  rfl

theorem notMem_encodeParameter {p : String × String} {c : Char}
    (hc : Percent.isEncodedChar c = false) (hne : c ≠ '=') :
    c ∉ (encodeParameter p).toList := by
  rw [toList_encodeParameter, List.mem_append, List.mem_cons]
  rintro (h | rfl | h)
  · exact Percent.notMem_encode hc h
  · exact hne rfl
  · exact Percent.notMem_encode hc h

theorem decodeParameter_encodeParameter (p : String × String) :
    decodeParameter (encodeParameter p).toList = some p := by
  rw [toList_encodeParameter, decodeParameter_eq_some_iff (Percent.notMem_encode rfl)]
  exact ⟨Percent.decodeText_encode p.1, Percent.decodeText_encode p.2⟩

/-- A question mark before a parameter becomes a part of its name, or of its value if
the name has ended before. -/
theorem decodeParameter_fused (xs : List Char) (p : String × String) :
    decodeParameter (xs ++ '?' :: (encodeParameter p).toList) ≠ some p := by
  intro h
  rw [toList_encodeParameter] at h
  by_cases hmem : '=' ∈ xs
  · obtain ⟨name, value, rfl, hname⟩ := List.eq_append_cons_of_mem hmem
    rw [List.append_assoc, List.cons_append, decodeParameter_eq_some_iff hname,
      ← List.cons_append, ← List.append_assoc] at h
    exact Percent.decodeText_append_cons_encode_ne (by decide) rfl p.2 h.2
  · rw [← List.cons_append, ← List.append_assoc, decodeParameter_eq_some_iff] at h
    · exact Percent.decodeText_append_cons_encode_ne (by decide) rfl p.1 h.1
    · rw [List.mem_append, List.mem_cons]
      rintro (h | h | h)
      · exact hmem h
      · cases h
      · exact Percent.notMem_encode rfl h

/-! ## Many parameters -/

/-- The last `n` parameters of the query. -/
def Uri.lastParameters? (u : Uri) (n : Nat) : Option (List (String × String)) :=
  u.query.bind fun q => ((q.splitOn '&').rtake n).mapM decodeParameter

theorem mapM_decodeParameter (query : List (String × String)) :
    (query.map fun p => (encodeParameter p).toList).mapM decodeParameter = some query := by
  induction query with
  | nil => rfl
  | cons p rest ih =>
      rw [List.map_cons, List.mapM_cons, decodeParameter_encodeParameter, ih]
      rfl

/-- The piece of a query that has been begun, behind the last ampersand. -/
def begunPiece (query : List Char) : List Char := query.rtakeWhile (· ≠ '&')

theorem begunPiece_concat_ampersand (query : List Char) : begunPiece (query ++ ['&']) = [] :=
  List.rtakeWhile_concat_neg _ _ _ (by decide)

theorem begunPiece_concat_mark (query : List Char) :
    begunPiece (query ++ ['?']) = begunPiece query ++ ['?'] :=
  List.rtakeWhile_concat_pos _ _ _ (by decide)

theorem notMem_begunPiece (query : List Char) : '&' ∉ begunPiece query := by
  intro h
  have hne := List.mem_rtakeWhile_imp (p := (· ≠ '&')) h
  exact absurd hne (by decide)

/-- Every ampersand is behind a finished piece. -/
theorem exists_splitOn_append (query cs : List Char) :
    ∃ finished, (query ++ cs).splitOn '&' = finished ++ (begunPiece query ++ cs).splitOn '&' := by
  have hquery : query = query.rdropWhile (· ≠ '&') ++ begunPiece query :=
    List.rdropWhile_append_rtakeWhile.symm
  rcases List.eq_nil_or_concat' (query.rdropWhile (· ≠ '&')) with hnil | ⟨init, c, hconcat⟩
  · rw [hnil, List.nil_append] at hquery
    exact ⟨[], by rw [← hquery, List.nil_append]⟩
  · have hlast : ∀ hne, (query.rdropWhile (· ≠ '&')).getLast hne = '&' := fun hne => by
      simpa using List.rdropWhile_last_not (· ≠ '&') query hne
    rw [hconcat] at hlast
    obtain rfl : c = '&' := by
      rw [← hlast (by simp), List.getLast_append_singleton]
    rw [hconcat] at hquery
    refine ⟨init.splitOn '&', ?_⟩
    conv_lhs => rw [hquery]
    rw [List.append_assoc, List.append_assoc, List.singleton_append,
      List.splitOn_append_cons_self]

theorem toList_parameters (query : List (String × String)) :
    ("&".intercalate (query.map encodeParameter)).toList =
      ['&'].intercalate (query.map fun p => (encodeParameter p).toList) := by
  rw [String.toList_intercalate, List.map_map]
  rfl

/-- The parameters are the last pieces, and the first of them has what was begun. -/
theorem rtake_splitOn (query : List Char) (p : String × String) (rest : List (String × String)) :
    ((query ++ ("&".intercalate ((p :: rest).map encodeParameter)).toList).splitOn '&').rtake
        (p :: rest).length =
      (begunPiece query ++ (encodeParameter p).toList) ::
        rest.map fun p => (encodeParameter p).toList := by
  have hpieces : ∀ piece ∈ (begunPiece query ++ (encodeParameter p).toList) ::
      rest.map (fun p => (encodeParameter p).toList), '&' ∉ piece := by
    intro piece hpiece
    rcases List.mem_cons.mp hpiece with rfl | hpiece
    · rw [List.mem_append]
      rintro (h | h)
      · exact notMem_begunPiece query h
      · exact notMem_encodeParameter rfl (by decide) h
    · obtain ⟨q, _, rfl⟩ := List.mem_map.mp hpiece
      exact notMem_encodeParameter rfl (by decide)
  obtain ⟨finished, hfinished⟩ := exists_splitOn_append query
    ("&".intercalate ((p :: rest).map encodeParameter)).toList
  rw [hfinished, toList_parameters, List.map_cons, append_intercalate_cons,
    List.splitOn_intercalate '&' hpieces (List.cons_ne_nil _ _)]
  have hlength : (p :: rest).length =
      ((begunPiece query ++ (encodeParameter p).toList) ::
        rest.map fun p => (encodeParameter p).toList).length := by simp
  rw [hlength]
  exact rtake_append_length _ _

/-- All depends on the first parameter: the others have an ampersand before them. -/
theorem Uri.lastParameters?_eq_some_iff {uri : Uri} {query : List Char} {p : String × String}
    {rest : List (String × String)}
    (h : uri.query = some (query ++ ("&".intercalate ((p :: rest).map encodeParameter)).toList)) :
    uri.lastParameters? (p :: rest).length = some (p :: rest) ↔
      decodeParameter (begunPiece query ++ (encodeParameter p).toList) = some p := by
  rw [lastParameters?, h, Option.bind_some, rtake_splitOn, List.mapM_cons, mapM_decodeParameter]
  cases decodeParameter (begunPiece query ++ (encodeParameter p).toList) <;> simp

theorem notMem_parameters {query : List (String × String)} {c : Char}
    (hc : Percent.isEncodedChar c = false) (heq : c ≠ '=') (hamp : c ≠ '&') :
    c ∉ ("&".intercalate (query.map encodeParameter)).toList := by
  rw [toList_parameters]
  induction query with
  | nil => exact List.not_mem_nil
  | cons p rest ih =>
      cases rest with
      | nil =>
          rw [List.map_singleton, List.intercalate_singleton]
          exact notMem_encodeParameter hc heq
      | cons q rest =>
          rw [List.map_cons] at ih
          rw [List.map_cons, List.map_cons, List.intercalate_cons_cons, List.mem_append,
            List.mem_append, List.mem_singleton]
          rintro ((h | h) | h)
          · exact notMem_encodeParameter hc heq h
          · exact hamp h
          · exact ih h

end ServiceCodec
