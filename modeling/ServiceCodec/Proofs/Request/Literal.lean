import ServiceCodec.Proofs.Request.Skeleton

/-!
# The template alone decides whether a target is a URI

A text is read as a URI if its characters up to the first question mark are those
of a path and the ones behind it those of a query (`Uri.Admits`). Which of the
two a character has to be depends on what stands before it, so the text is read
from the left with a flag (`Uri.admits`), and what is put into a text is looked
at for both values of the flag.

There are two such things. A label expands to characters that may stand on either
side of the question mark and are none themselves, so they can be left out
(`admits_append_of_plain`). Parameters are put behind the path with characters
that may stand in a query, and before them at most the question mark that begins
it (`admits_append_of_query`). What remains is the text of the template without
its labels: `Template.admits_targetText`.
-/

namespace ServiceCodec

namespace Uri

/-- The characters of the text may stand in a URI: up to the first question mark those
of a path, and behind it those of a query. What follows a number sign is not looked
at. -/
def Admits (cs : List Char) : Prop :=
  (∀ c ∈ (cs.takeWhile (· ≠ '#')).takeWhile (· ≠ '?'), isPathChar c = true) ∧
    ∀ c ∈ ((cs.takeWhile (· ≠ '#')).dropWhile (· ≠ '?')).drop 1, isQueryChar c = true

/-- The same, read character by character. -/
def admits (inQuery : Bool) : List Char → Bool
  | [] => true
  | c :: cs =>
      if c = '#' then true
      else if c = '?' ∧ inQuery = false then admits true cs
      else (if inQuery then isQueryChar c else isPathChar c) && admits inQuery cs

theorem admits_query (cs : List Char) :
    admits true cs = (cs.takeWhile (· ≠ '#')).all isQueryChar := by
  induction cs with
  | nil => rfl
  | cons c cs ih =>
      rw [admits]
      by_cases hcut : c = '#'
      · simp [hcut]
      · simp [hcut, ih]

theorem admits_iff {cs : List Char} : admits false cs = true ↔ Admits cs := by
  induction cs with
  | nil => simp [admits, Admits]
  | cons c cs ih =>
      rw [admits]
      by_cases hcut : c = '#'
      · simp [Admits, hcut]
      · by_cases hmark : c = '?'
        · simp [Admits, hmark, admits_query]
        · rw [if_neg hcut, if_neg (by simp [hmark])]
          simp [Admits, hcut, hmark, ih, and_assoc]

theorem ofText_cases {text : String} (hsize : text.utf8ByteSize ≤ sizeLimit) :
    (Admits text.toList ∧ ∃ uri, ofText text = .ok uri) ∨
      ¬ Admits text.toList ∧ ofText text = .error .badCharacter := by
  have hadmits : Admits text.toList ↔
      (((text.toList.takeWhile (· ≠ '#')).takeWhile (· ≠ '?')).all isPathChar &&
        (((text.toList.takeWhile (· ≠ '#')).dropWhile (· ≠ '?')).drop 1).all isQueryChar)
        = true := by
    rw [Bool.and_eq_true, List.all_eq_true, List.all_eq_true, Admits]
  simp only [ofText, if_neg (Nat.not_lt.mpr hsize)]
  -- With and without a query, the two conditions are the same by evaluation.
  by_cases h : Admits text.toList
  · have hall := hadmits.mp h
    cases hrest : (text.toList.takeWhile (· ≠ '#')).dropWhile (· ≠ '?') <;>
      rw [hrest] at hall <;> exact .inl ⟨h, _, if_pos hall⟩
  · have hall := mt hadmits.mpr h
    cases hrest : (text.toList.takeWhile (· ≠ '#')).dropWhile (· ≠ '?') <;>
      rw [hrest] at hall <;> exact .inr ⟨h, if_neg hall⟩

/-- A character that may stand in a path and in a query alike. -/
def isPlain (c : Char) : Bool := isPathChar c && isQueryChar c

theorem isPlain_of_isAlphanum {c : Char} (h : c.isAlphanum = true) : isPlain c = true := by
  have hval : c.toNat = c.val.toNat := rfl
  change (decide ('A'.val ≤ c.val ∧ c.val ≤ 'Z'.val) ||
    (decide ('a'.val ≤ c.val) && decide (c.val ≤ 'z'.val)) || c.isDigit) = true at h
  simp only [Char.isDigit, ge_iff_le, Bool.or_eq_true, Bool.and_eq_true, decide_eq_true_eq,
    UInt32.le_iff_toNat_le] at h
  simp only [isPlain, isPathChar, isQueryChar, hval, Bool.or_eq_true, Bool.and_eq_true,
    decide_eq_true_eq]
  simp at h
  omega

theorem isPlain_of_isEncodedChar {c : Char} (h : Percent.isEncodedChar c = true) :
    isPlain c = true := by
  simp only [Percent.isEncodedChar, Bool.or_eq_true, decide_eq_true_eq] at h
  rcases h with ((((h | rfl) | rfl) | rfl) | rfl) | rfl
  · exact isPlain_of_isAlphanum h
  all_goals decide

theorem isPlain_of_not_isDelimiter {c : Char} (h : isDelimiter c = false) : isPlain c = true := by
  rw [isDelimiter, Bool.and_eq_false_iff] at h
  rcases h with h | h
  · obtain rfl : c = '/' := by simpa using h
    decide
  · exact isPlain_of_isEncodedChar (by simpa using h)

/-- Plain characters neither spoil a text nor end its path. -/
theorem admits_append_of_plain {xs : List Char} (h : ∀ c ∈ xs, isPlain c = true)
    (inQuery : Bool) (ys : List Char) : admits inQuery (xs ++ ys) = admits inQuery ys := by
  induction xs with
  | nil => rfl
  | cons c xs ih =>
      have hc := h c List.mem_cons_self
      have hcut : c ≠ '#' := by rintro rfl; cases hc
      have hmark : c ≠ '?' := by rintro rfl; cases hc
      rw [isPlain, Bool.and_eq_true] at hc
      rw [List.cons_append, admits, if_neg hcut, if_neg (fun hq => hmark hq.1), hc.1, hc.2,
        ite_self, Bool.true_and]
      exact ih fun x hx => h x (List.mem_cons_of_mem c hx)

theorem ne_cut_of_isQueryChar {c : Char} (h : isQueryChar c = true) : c ≠ '#' := by
  rintro rfl
  cases h

/-- What may stand in a query, and in a path if it does not begin the query, can be put
behind any text. -/
theorem admits_append_of_query {ys : List Char}
    (h : ∀ c ∈ ys, isQueryChar c = true ∧ (c = '?' ∨ isPathChar c = true)) (inQuery : Bool)
    (xs : List Char) : admits inQuery (xs ++ ys) = admits inQuery xs := by
  induction xs generalizing inQuery with
  | nil =>
      rw [List.nil_append, admits]
      induction ys generalizing inQuery with
      | nil => rfl
      | cons c ys ih =>
          have hrest := ih fun x hx => h x (List.mem_cons_of_mem c hx)
          obtain ⟨hquery, hpath⟩ := h c List.mem_cons_self
          rw [admits, if_neg (ne_cut_of_isQueryChar hquery), hrest, hrest]
          rcases hpath with rfl | hpath
          · cases inQuery with
            | true => simp [hquery]
            | false => simp
          · simp [hquery, hpath]
  | cons c xs ih => rw [List.cons_append, admits, admits, ih, ih]

end Uri

/-- The character that stands for itself. -/
def Piece.char? : Piece → Option Char
  | char c => some c
  | label _ _ => none

namespace Template

/-- The path without its labels. -/
def literal (t : Template) : List Char := '/' :: t.pieces.filterMap Piece.char?

theorem admits_expandPieces {labels : Dictionary String} {ps : List Piece} {cs : List Char}
    (h : expandPieces labels ps = .ok cs) (inQuery : Bool) :
    Uri.admits inQuery cs = Uri.admits inQuery (ps.filterMap Piece.char?) := by
  induction ps generalizing cs inQuery with
  | nil =>
      obtain rfl := Except.ok.inj h
      rfl
  | cons p ps ih =>
      obtain ⟨xs, ys, hxs, hys, rfl⟩ := expandPieces_cons_eq_ok_iff.mp h
      rcases Piece.expand_eq_ok hxs with ⟨x, rfl, rfl⟩ | ⟨hlabel, -, hplain⟩
      · rw [List.singleton_append, List.filterMap_cons_some (f := Piece.char?) rfl, Uri.admits,
          Uri.admits, ih hys, ih hys]
      · rw [Uri.admits_append_of_plain fun c hc => Uri.isPlain_of_not_isDelimiter (hplain c hc)]
        cases p with
        | char x => exact absurd rfl (hlabel x)
        | label name greedy => rw [ih hys, List.filterMap_cons_none (f := Piece.char?) rfl]

theorem mem_querySeparator {path : List Char} {c : Char} (h : c ∈ querySeparator path) :
    c = '?' ∨ c = '&' := by
  rw [querySeparator] at h
  split at h
  · exact .inl (List.mem_singleton.mp h)
  · split at h
    · cases h
    · exact .inr (List.mem_singleton.mp h)

/-- Neither the values of labels nor parameters decide whether a target is a URI. -/
theorem admits_targetText {t : Template} {ls : Locations} {target : String}
    (h : targetText t ls = .ok target) : Uri.Admits target.toList ↔ Uri.Admits t.literal := by
  obtain ⟨path, hpath, rfl⟩ := targetText_eq_ok_iff.mp h
  obtain ⟨cs, hcs, rfl⟩ := expand_eq_ok_iff.mp hpath
  have hexpanded : Uri.admits false ('/' :: cs) = Uri.admits false t.literal := by
    rw [literal, Uri.admits, Uri.admits, admits_expandPieces hcs, admits_expandPieces hcs]
  have htarget : Uri.admits false (appendQuery ('/' :: cs) ls.query) =
      Uri.admits false ('/' :: cs) := by
    rw [appendQuery]
    split
    · rfl
    · rw [List.append_assoc]
      apply Uri.admits_append_of_query
      intro c hc
      rcases List.mem_append.mp hc with hc | hc
      · rcases mem_querySeparator hc with rfl | rfl
        · exact ⟨rfl, .inl rfl⟩
        · exact ⟨rfl, .inr rfl⟩
      · have hplain : Uri.isPlain c = true := by
          by_contra hplain
          have hencoded : Percent.isEncodedChar c = false :=
            eq_false_of_ne_true fun h => hplain (Uri.isPlain_of_isEncodedChar h)
          refine notMem_parameters hencoded ?_ ?_ hc
          · rintro rfl
            exact hplain rfl
          · rintro rfl
            exact hplain rfl
        rw [Uri.isPlain, Bool.and_eq_true] at hplain
        exact ⟨hplain.2, .inr hplain.1⟩
  rw [String.toList_ofList, ← Uri.admits_iff, ← Uri.admits_iff, htarget, hexpanded]

end Template

end ServiceCodec
