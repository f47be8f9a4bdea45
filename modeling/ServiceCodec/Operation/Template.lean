import ServiceCodec.Text.Quoted

/-!
# Path templates

The path of an operation is a slash and then characters that stand for
themselves and labels in braces, whose values are filled in per request. A plus
sign at the end of a label makes it greedy; it is not part of the name.

A template is kept as its pieces. Text is read into pieces exactly when its
braces are balanced and not nested, and the pieces of a template spell the text
it was read from, so whoever expands a template never meets a brace.
-/

namespace ServiceCodec

/-- A part of a template. -/
inductive Piece where
  | char (c : Char)
  | label (name : List Char) (greedy : Bool)
  deriving DecidableEq

namespace Piece

def isBrace (c : Char) : Bool := c = '{' || c = '}'

/-- The pieces that text can be read into: braces only delimit, and a plus sign
at the end of a label is its mark. -/
def WellFormed : Piece → Prop
  | char c => isBrace c = false
  | label name greedy =>
      (∀ c ∈ name, isBrace c = false) ∧ (greedy = false → name.getLast? ≠ some '+')

/-- The label that stands between a pair of braces. -/
def ofPlaceholder (text : List Char) : Piece :=
  if text.getLast? = some '+' then label text.dropLast true else label text false

def render : Piece → List Char
  | char c => [c]
  | label name greedy => '{' :: name ++ (if greedy then ['+'] else []) ++ ['}']

theorem wellFormed_ofPlaceholder {text : List Char} (h : ∀ c ∈ text, isBrace c = false) :
    (ofPlaceholder text).WellFormed := by
  unfold ofPlaceholder
  split
  · exact ⟨fun c hc => h c (List.dropLast_subset _ hc), by simp⟩
  · next hlast => exact ⟨h, fun _ => hlast⟩

end Piece

namespace Template

/-- The pieces that a text spells, or none if a brace is nested or unmatched.
Inside a label the state holds its characters so far, the latest first. -/
def scan : Option (List Char) → List Char → Option (List Piece)
  | none, [] => some []
  | some _, [] => none
  | none, c :: cs =>
      if c = '{' then scan (some []) cs
      else if c = '}' then none
      else (scan none cs).map (.char c :: ·)
  | some label, c :: cs =>
      if c = '{' then none
      else if c = '}' then (scan none cs).map (Piece.ofPlaceholder label.reverse :: ·)
      else scan (some (c :: label)) cs

theorem wellFormed_of_scan {state : Option (List Char)} {cs : List Char} {ps : List Piece}
    (h : scan state cs = some ps) (hstate : ∀ l ∈ state, ∀ c ∈ l, Piece.isBrace c = false) :
    ∀ p ∈ ps, p.WellFormed := by
  induction cs generalizing state ps with
  | nil => cases state <;> simp_all [scan]
  | cons c cs ih =>
      cases state with
      | none =>
          rw [scan] at h
          split at h
          · exact ih h (by simp)
          · next h1 =>
              split at h
              · simp at h
              · next h2 =>
                  obtain ⟨qs, hqs, rfl⟩ := Option.map_eq_some_iff.mp h
                  intro p hp
                  rcases List.mem_cons.mp hp with rfl | hp
                  · simp [Piece.WellFormed, Piece.isBrace, h1, h2]
                  · exact ih hqs (by simp) p hp
      | some label =>
          rw [scan] at h
          split at h
          · simp at h
          · next h1 =>
              split at h
              · obtain ⟨qs, hqs, rfl⟩ := Option.map_eq_some_iff.mp h
                intro p hp
                rcases List.mem_cons.mp hp with rfl | hp
                · exact Piece.wellFormed_ofPlaceholder fun c hc =>
                    hstate label rfl c (List.mem_reverse.mp hc)
                · exact ih hqs (by simp) p hp
              · next h2 =>
                  refine ih h fun l hl x hx => ?_
                  cases hl
                  rcases List.mem_cons.mp hx with rfl | hx
                  · simp [Piece.isBrace, h1, h2]
                  · exact hstate label rfl x hx

end Template

/-- The pieces of a path behind its leading slash. -/
structure Template where
  pieces : List Piece
  wellFormed : ∀ p ∈ pieces, p.WellFormed

namespace Template

/-- The text of the path. -/
def path (t : Template) : String := String.ofList ('/' :: t.pieces.flatMap Piece.render)

/-- Why a text is no path template. -/
inductive Fault where
  | notAbsolute
  | unbalanced
  deriving DecidableEq

/-- The template that a path spells. -/
def ofPath (path : String) : Except Fault Template :=
  match path.toList with
  | '/' :: cs =>
      match h : scan none cs with
      | some ps => .ok ⟨ps, wellFormed_of_scan h (by simp)⟩
      | none => .error .unbalanced
  | _ => .error .notAbsolute

/-- The names of the labels, from left to right. -/
def labels (t : Template) : List String :=
  t.pieces.filterMap fun
    | .char _ => none
    | .label name _ => some (String.ofList name)

end Template

end ServiceCodec
