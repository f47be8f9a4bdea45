import Mathlib.Data.List.Basic
import ServiceCodec.Operation.Template

/-!
# A path has one reading

`Template.path` spells a template and `Template.ofPath` reads a path, character
by character, with one bit of memory: whether a label is open. The two are
inverse to each other (`ofPath_eq_ok_iff`), so a path is read as the template
that spells it and no other template spells it too.

The scan is described by what it does with a whole run of characters that are no
braces: outside of a label each of them is a piece (`scan_literal`), inside they
are gathered until the closing brace (`scan_label`). The pieces of a template
are such runs.
-/

namespace ServiceCodec

namespace Piece

theorem render_ofPlaceholder (text : List Char) :
    (ofPlaceholder text).render = '{' :: text ++ ['}'] := by
  rw [ofPlaceholder]
  split
  · next hlast =>
      have hsplit := List.dropLast_append_getLast? '+' hlast
      simp [render, hsplit]
  · simp [render]

/-- What stands between the braces of a label. -/
def placeholder (name : List Char) (greedy : Bool) : List Char :=
  name ++ if greedy then ['+'] else []

theorem render_label (name : List Char) (greedy : Bool) :
    (label name greedy).render = '{' :: placeholder name greedy ++ ['}'] := rfl

theorem ofPlaceholder_placeholder {name : List Char} {greedy : Bool}
    (h : (label name greedy).WellFormed) : ofPlaceholder (placeholder name greedy) =
      label name greedy := by
  cases greedy with
  | true => simp [placeholder, ofPlaceholder]
  | false =>
      have hlast := h.2 rfl
      simp [placeholder, ofPlaceholder, hlast]

theorem isBrace_placeholder {name : List Char} {greedy : Bool}
    (h : (label name greedy).WellFormed) : ∀ c ∈ placeholder name greedy, isBrace c = false := by
  intro c hc
  rcases List.mem_append.mp hc with hname | hmark
  · exact h.1 c hname
  · cases greedy with
    | true => rw [List.mem_singleton.mp hmark]; decide
    | false => cases hmark

theorem isBrace_eq_false_iff {c : Char} : isBrace c = false ↔ c ≠ '{' ∧ c ≠ '}' := by
  simp [isBrace]

end Piece

namespace Template

/-! ## Runs of characters -/

theorem scan_literal {text : List Char} (h : ∀ c ∈ text, Piece.isBrace c = false)
    (rest : List Char) :
    scan none (text ++ rest) = (scan none rest).map (text.map Piece.char ++ ·) := by
  induction text with
  | nil => cases hscan : scan none rest <;> simp [hscan]
  | cons c cs ih =>
      obtain ⟨hopen, hclose⟩ := Piece.isBrace_eq_false_iff.mp (h c List.mem_cons_self)
      rw [List.cons_append, scan, if_neg hopen, if_neg hclose,
        ih fun x hx => h x (List.mem_cons_of_mem c hx)]
      cases scan none rest <;> rfl

theorem scan_gather {text : List Char} (h : ∀ c ∈ text, Piece.isBrace c = false)
    (gathered rest : List Char) :
    scan (some gathered) (text ++ rest) = scan (some (text.reverse ++ gathered)) rest := by
  induction text generalizing gathered with
  | nil => rfl
  | cons c cs ih =>
      obtain ⟨hopen, hclose⟩ := Piece.isBrace_eq_false_iff.mp (h c List.mem_cons_self)
      rw [List.cons_append, scan, if_neg hopen, if_neg hclose,
        ih (fun x hx => h x (List.mem_cons_of_mem c hx)), List.reverse_cons,
        List.append_assoc]
      rfl

theorem scan_label {text : List Char} (h : ∀ c ∈ text, Piece.isBrace c = false)
    (rest : List Char) :
    scan none ('{' :: text ++ '}' :: rest) =
      (scan none rest).map (Piece.ofPlaceholder text :: ·) := by
  show scan (some []) (text ++ '}' :: rest) = _
  rw [scan_gather h, List.append_nil]
  show (scan none rest).map (Piece.ofPlaceholder text.reverse.reverse :: ·) = _
  rw [List.reverse_reverse]

/-! ## Spelling and reading -/

theorem scan_render {ps : List Piece} (h : ∀ p ∈ ps, p.WellFormed) :
    scan none (ps.flatMap Piece.render) = some ps := by
  induction ps with
  | nil => rfl
  | cons p ps ih =>
      have hp := h p List.mem_cons_self
      have hps := ih fun q hq => h q (List.mem_cons_of_mem p hq)
      rw [List.flatMap_cons]
      cases p with
      | char c =>
          have hc : ∀ x ∈ [c], Piece.isBrace x = false := fun x hx => by
            rw [List.mem_singleton.mp hx]; exact hp
          rw [Piece.render, scan_literal hc, hps]
          rfl
      | label name greedy =>
          rw [Piece.render_label, List.append_assoc, List.singleton_append,
            scan_label (Piece.isBrace_placeholder hp), hps,
            Piece.ofPlaceholder_placeholder hp]
          rfl

/-- What the scan has taken in without making a piece of it. -/
def taken : Option (List Char) → List Char
  | none => []
  | some gathered => '{' :: gathered.reverse

theorem render_of_scan {state : Option (List Char)} {cs : List Char} {ps : List Piece}
    (h : scan state cs = some ps) : ps.flatMap Piece.render = taken state ++ cs := by
  induction cs generalizing state ps with
  | nil =>
      cases state with
      | none => obtain rfl := Option.some.inj h; rfl
      | some gathered => cases h
  | cons c cs ih =>
      cases state with
      | none =>
          rw [scan] at h
          split at h
          · next hopen => rw [ih h, hopen]; rfl
          · split at h
            · cases h
            · obtain ⟨qs, hqs, rfl⟩ := Option.map_eq_some_iff.mp h
              rw [List.flatMap_cons, ih hqs]
              rfl
      | some gathered =>
          rw [scan] at h
          split at h
          · cases h
          · split at h
            · next hclose =>
                obtain ⟨qs, hqs, rfl⟩ := Option.map_eq_some_iff.mp h
                rw [List.flatMap_cons, ih hqs, Piece.render_ofPlaceholder, hclose]
                simp [taken]
            · rw [ih h]
              simp [taken]

theorem ofPath_eq_ok_iff {path : String} {t : Template} : ofPath path = .ok t ↔ t.path = path := by
  constructor
  · intro h
    rw [ofPath] at h
    split at h
    · next cs hcs =>
        split at h
        · next ps hps =>
            obtain rfl := Except.ok.inj h
            have htext : ps.flatMap Piece.render = cs := render_of_scan hps
            rw [Template.path, htext, ← hcs, String.ofList_toList]
        · cases h
    · cases h
  · intro h
    have hcs : path.toList = '/' :: t.pieces.flatMap Piece.render := by
      rw [← h, Template.path, String.toList_ofList]
    have hscan := scan_render t.wellFormed
    rw [ofPath]
    split
    · next cs hcs' =>
        obtain rfl := (List.cons.inj (hcs'.symm.trans hcs)).2
        split
        · next ps hps =>
            obtain rfl := Option.some.inj (hps.symm.trans hscan)
            rfl
        · next hnone => rw [hscan] at hnone; cases hnone
    · next hother => exact absurd hcs (hother _)

end Template

end ServiceCodec
