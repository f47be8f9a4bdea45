import ServiceCodec.Proofs.Request.Marshal
import ServiceCodec.Proofs.Text.Percent

/-!
# The characters of an expanded path

What a label expands to is never empty and is made of encoded characters and
slashes. So every other character of an expanded path (a question mark, an
ampersand, a number sign) was put there by the template, at the place where the
template has it. This holds for having such a character at all
(`mem_expandPieces_iff`) and for having it at the end
(`getLast?_expandPieces_iff`), which is all that the separator of the query and
the reading of a URI look at.

Pieces are expanded one by one, so both follow from what a single piece expands
to, by induction on the pieces from the left and by taking off the last.
-/

namespace ServiceCodec

/-- A character that no label expands to. -/
def isDelimiter (c : Char) : Bool := c ≠ '/' && !Percent.isEncodedChar c

theorem ne_slash_of_isDelimiter {c : Char} (h : isDelimiter c = true) : c ≠ '/' := by
  intro heq
  rw [heq] at h
  cases h

theorem Percent.isDelimiter_eq_false {c : Char} (h : c = '/' ∨ isEncodedChar c = true) :
    isDelimiter c = false := by
  rcases h with rfl | h
  · rfl
  · rw [isDelimiter, h]
    exact Bool.and_false _

variable {labels : Dictionary String} {c : Char} {cs : List Char}

namespace Piece

/-- A character of the template stands for itself; a label stands for encoded text. -/
theorem expand_eq_ok {p : Piece} (h : p.expand labels = .ok cs) :
    (∃ x, p = char x ∧ cs = [x]) ∨
      ((∀ x, p ≠ char x) ∧ cs ≠ [] ∧ ∀ x ∈ cs, isDelimiter x = false) := by
  cases p with
  | char x =>
      rw [expand] at h
      exact .inl ⟨x, rfl, (Except.ok.inj h).symm⟩
  | label name greedy =>
      refine .inr ⟨fun x => nofun, ?_⟩
      simp only [expand] at h
      split at h
      · cases h
      · next value hvalue =>
          have hne : value ≠ "" := by
            have hkept := (Option.filter_eq_some_iff.mp hvalue).2
            exact of_decide_eq_true hkept
          obtain rfl := Except.ok.inj h
          cases greedy with
          | true =>
              exact ⟨Percent.encodeSegments_ne_nil hne, fun x hx =>
                Percent.isDelimiter_eq_false (Percent.eq_slash_or_isEncodedChar_of_mem hx)⟩
          | false =>
              exact ⟨Percent.encode_ne_nil hne, fun x hx =>
                Percent.isDelimiter_eq_false (.inr (Percent.isEncodedChar_of_mem hx))⟩

theorem mem_expand_iff {p : Piece} (hc : isDelimiter c = true) (h : p.expand labels = .ok cs) :
    c ∈ cs ↔ p = char c := by
  rcases expand_eq_ok h with ⟨x, rfl, rfl⟩ | ⟨hlabel, _, hcs⟩
  · rw [List.mem_singleton, char.injEq, eq_comm]
  · refine iff_of_false (fun hmem => ?_) (hlabel c)
    rw [hcs c hmem] at hc
    cases hc

theorem getLast?_expand_iff {p : Piece} (hc : isDelimiter c = true)
    (h : p.expand labels = .ok cs) : cs.getLast? = some c ↔ p = char c := by
  rcases expand_eq_ok h with ⟨x, rfl, rfl⟩ | ⟨hlabel, _, hcs⟩
  · rw [List.getLast?_singleton, Option.some_inj, char.injEq, eq_comm]
  · refine iff_of_false (fun hlast => ?_) (hlabel c)
    rw [hcs c (List.mem_of_getLast? hlast)] at hc
    cases hc

theorem ne_nil_of_expand {p : Piece} (h : p.expand labels = .ok cs) : cs ≠ [] := by
  rcases expand_eq_ok h with ⟨x, rfl, rfl⟩ | ⟨_, hne, _⟩
  · exact List.cons_ne_nil x []
  · exact hne

end Piece

namespace Template

theorem expandPieces_cons_eq_ok_iff {p : Piece} {ps : List Piece} :
    expandPieces labels (p :: ps) = .ok cs ↔
      ∃ xs ys, p.expand labels = .ok xs ∧ expandPieces labels ps = .ok ys ∧ cs = xs ++ ys := by
  rw [expandPieces, Except.bind_eq_ok_iff]
  constructor
  · rintro ⟨xs, hxs, h⟩
    obtain ⟨ys, hys, rfl⟩ := Except.bind_pure_eq_ok_iff.mp h
    exact ⟨xs, ys, hxs, hys, rfl⟩
  · rintro ⟨xs, ys, hxs, hys, rfl⟩
    exact ⟨xs, hxs, Except.bind_pure_eq_ok_iff.mpr ⟨ys, hys, rfl⟩⟩

theorem expandPieces_append_eq_ok_iff {ps qs : List Piece} :
    expandPieces labels (ps ++ qs) = .ok cs ↔
      ∃ xs ys, expandPieces labels ps = .ok xs ∧ expandPieces labels qs = .ok ys ∧
        cs = xs ++ ys := by
  induction ps generalizing cs with
  | nil =>
      rw [List.nil_append]
      constructor
      · intro h
        exact ⟨[], cs, rfl, h, rfl⟩
      · rintro ⟨xs, ys, hxs, hys, rfl⟩
        obtain rfl := Except.ok.inj hxs
        exact hys
  | cons p ps ih =>
      simp only [List.cons_append, expandPieces_cons_eq_ok_iff, ih]
      constructor
      · rintro ⟨xs, _, hxs, ⟨ys, zs, hys, hzs, rfl⟩, rfl⟩
        exact ⟨xs ++ ys, zs, ⟨xs, ys, hxs, hys, rfl⟩, hzs, (List.append_assoc xs ys zs).symm⟩
      · rintro ⟨_, zs, ⟨xs, ys, hxs, hys, rfl⟩, hzs, rfl⟩
        exact ⟨xs, ys ++ zs, hxs, ⟨ys, zs, hys, hzs, rfl⟩, List.append_assoc xs ys zs⟩

theorem expandPieces_singleton_eq_ok_iff {p : Piece} :
    expandPieces labels [p] = .ok cs ↔ p.expand labels = .ok cs := by
  rw [expandPieces_cons_eq_ok_iff]
  constructor
  · rintro ⟨xs, ys, hxs, hys, rfl⟩
    obtain rfl := Except.ok.inj hys
    rw [List.append_nil]
    exact hxs
  · intro h
    exact ⟨cs, [], h, rfl, (List.append_nil cs).symm⟩

theorem mem_expandPieces_iff {ps : List Piece} (hc : isDelimiter c = true)
    (h : expandPieces labels ps = .ok cs) : c ∈ cs ↔ Piece.char c ∈ ps := by
  induction ps generalizing cs with
  | nil =>
      obtain rfl := Except.ok.inj h
      exact iff_of_false List.not_mem_nil List.not_mem_nil
  | cons p ps ih =>
      obtain ⟨xs, ys, hxs, hys, rfl⟩ := expandPieces_cons_eq_ok_iff.mp h
      rw [List.mem_append, List.mem_cons, Piece.mem_expand_iff hc hxs, ih hys, eq_comm]

theorem getLast?_expandPieces_iff {ps : List Piece} (hc : isDelimiter c = true)
    (h : expandPieces labels ps = .ok cs) :
    cs.getLast? = some c ↔ ps.getLast? = some (.char c) := by
  rcases List.eq_nil_or_concat' ps with rfl | ⟨qs, p, rfl⟩
  · obtain rfl := Except.ok.inj h
    exact iff_of_false nofun nofun
  · obtain ⟨xs, ys, hxs, hys, rfl⟩ := expandPieces_append_eq_ok_iff.mp h
    rw [expandPieces_singleton_eq_ok_iff] at hys
    rw [List.getLast?_append_of_ne_nil xs (Piece.ne_nil_of_expand hys),
      Piece.getLast?_expand_iff hc hys, List.getLast?_concat, Option.some_inj]

section Path

variable {t : Template} {path : List Char}

theorem expand_eq_ok_iff :
    t.expand labels = .ok path ↔
      ∃ cs, expandPieces labels t.pieces = .ok cs ∧ path = '/' :: cs := by
  rw [expand, Except.bind_pure_eq_ok_iff]

theorem mem_expand_iff (hc : isDelimiter c = true) (h : t.expand labels = .ok path) :
    c ∈ path ↔ Piece.char c ∈ t.pieces := by
  obtain ⟨cs, hcs, rfl⟩ := expand_eq_ok_iff.mp h
  rw [List.mem_cons, mem_expandPieces_iff hc hcs]
  exact or_iff_right (ne_slash_of_isDelimiter hc)

theorem getLast?_expand_iff (hc : isDelimiter c = true) (h : t.expand labels = .ok path) :
    path.getLast? = some c ↔ t.pieces.getLast? = some (.char c) := by
  obtain ⟨cs, hcs, rfl⟩ := expand_eq_ok_iff.mp h
  rw [← getLast?_expandPieces_iff hc hcs, List.getLast?_cons]
  cases cs.getLast? <;> simp [(ne_slash_of_isDelimiter hc).symm]

end Path

end Template

theorem targetText_eq_ok_iff {t : Template} {ls : Locations} {target : String} :
    targetText t ls = .ok target ↔
      ∃ path, t.expand ls.labels = .ok path ∧
        target = String.ofList (appendQuery path ls.query) := by
  rw [targetText, Except.bind_pure_eq_ok_iff]

end ServiceCodec
