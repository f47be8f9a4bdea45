import ServiceCodec.Proofs.Request.Query
import ServiceCodec.Proofs.Request.Target

/-!
# The target that a request fills a template to

`Template.target` says what the target of a request is, from the template and
the values alone: characters stand for themselves, labels for their encoded
values, and behind the path stand the parameters. `targetText` makes just this
if every label has a value, and otherwise reports the first label that has none
(`targetText_eq`); both are found in one induction on the pieces
(`expandPieces_eq`).

The separator before the parameters is chosen by a look at the expanded path,
but it looks for characters that no label expands to, so it is the template's
(`querySeparator_eq`).
-/

namespace ServiceCodec

namespace Locations

/-- The value of a label; empty if nothing is bound to it. -/
def value (ls : Locations) (name : String) : String := (ls.label? name).getD ""

theorem value_congr {ls ls' : Locations} {name : String} (h : ls.label? name = ls'.label? name) :
    ls.value name = ls'.value name := by
  rw [value, value, h]

theorem find?_labels_eq_some {ls : Locations} {name : String} (h : ls.value name ≠ "") :
    ls.labels.find? name = some (ls.value name) := by
  rw [value, label?] at h ⊢
  cases hfind : ls.labels.find? name with
  | none => rw [hfind] at h; exact absurd rfl h
  | some value => rfl

end Locations

namespace Piece

/-- The name of a label. -/
def name? : Piece → Option String
  | char _ => none
  | label name _ => some (String.ofList name)

/-- What a piece stands for, if the labels have these values. -/
def filling (value : String → String) : Piece → List Char
  | char c => [c]
  | label name false => (Percent.encode (value (String.ofList name))).toList
  | label name true => ['/'].intercalate (((value (String.ofList name)).toList.splitOn '/').map
      fun segment => (Percent.encode (String.ofList segment)).toList)

variable {ls : Locations} {name : List Char}

theorem expand_filled (h : ls.value (String.ofList name) ≠ "") (greedy : Bool) :
    (label name greedy).expand ls.labels = .ok ((label name greedy).filling ls.value) := by
  have hkept : (ls.labels.find? (String.ofList name)).filter (· ≠ "") =
      some (ls.value (String.ofList name)) := by
    rw [Locations.find?_labels_eq_some h]
    exact Option.filter_some_pos (decide_eq_true h)
  simp only [expand, hkept]
  cases greedy with
  | false => rfl
  | true => exact congrArg Except.ok (Percent.toList_encodeSegments_eq_intercalate _)

theorem expand_unfilled (h : ls.value (String.ofList name) = "") (greedy : Bool) :
    (label name greedy).expand ls.labels = .error (.unboundLabel (String.ofList name)) := by
  have hnone : (ls.labels.find? (String.ofList name)).filter (· ≠ "") = none := by
    rw [Locations.value, Locations.label?] at h
    cases hfind : ls.labels.find? (String.ofList name) with
    | none => rfl
    | some value =>
        rw [hfind] at h
        exact Option.filter_some_neg (by simpa using h)
  simp only [expand, hnone]

end Piece

namespace Template

/-- Every label has a value that is not empty. -/
def FilledBy (t : Template) (ls : Locations) : Prop := ∀ name ∈ t.labels, ls.value name ≠ ""

instance (t : Template) (ls : Locations) : Decidable (t.FilledBy ls) :=
  inferInstanceAs (Decidable (∀ name ∈ t.labels, ls.value name ≠ ""))

/-- What separates parameters from the path that the template expands to. -/
def separator (t : Template) : List Char :=
  if Piece.char '?' ∉ t.pieces then ['?']
  else if t.pieces.getLast? = some (.char '?') ∨ t.pieces.getLast? = some (.char '&') then []
  else ['&']

theorem length_separator_le (t : Template) : t.separator.length ≤ 1 := by
  rw [separator]
  split
  · decide
  · split <;> decide

/-- Parameters as a query has them. -/
def parameters (query : List (String × String)) : List Char :=
  ['&'].intercalate
    (query.map fun p => (Percent.encode p.1).toList ++ '=' :: (Percent.encode p.2).toList)

/-- The target of a request that fills the labels. -/
def target (t : Template) (ls : Locations) : String :=
  String.ofList ('/' :: t.pieces.flatMap (Piece.filling ls.value) ++
    if ls.query = [] then [] else t.separator ++ parameters ls.query)

/-- The first label without a value. -/
def unfilled? (t : Template) (ls : Locations) : Option String :=
  t.labels.find? fun name => ls.value name = ""

theorem labels_eq (t : Template) : t.labels = t.pieces.filterMap Piece.name? :=
  List.filterMap_congr fun p _ => by cases p <;> rfl

theorem unfilled?_eq_none_iff {t : Template} {ls : Locations} :
    t.unfilled? ls = none ↔ t.FilledBy ls := by
  simp [unfilled?, FilledBy]

theorem expandPieces_eq (ls : Locations) (ps : List Piece) :
    expandPieces ls.labels ps =
      match (ps.filterMap Piece.name?).find? fun name => ls.value name = "" with
      | none => .ok (ps.flatMap (Piece.filling ls.value))
      | some name => .error (.unboundLabel name) := by
  induction ps with
  | nil => rfl
  | cons p ps ih =>
      rw [expandPieces, ih]
      cases p with
      | char c =>
          show _ = match (ps.filterMap Piece.name?).find? _ with | none => _ | some name => _
          cases (ps.filterMap Piece.name?).find? fun name => ls.value name = "" <;> rfl
      | label name greedy =>
          have hnames : (Piece.label name greedy :: ps).filterMap Piece.name? =
              String.ofList name :: ps.filterMap Piece.name? := rfl
          by_cases hvalue : ls.value (String.ofList name) = ""
          · rw [Piece.expand_unfilled hvalue, hnames,
              List.find?_cons_of_pos (by simpa using hvalue)]
            rfl
          · rw [Piece.expand_filled hvalue, hnames,
              List.find?_cons_of_neg (by simpa using hvalue)]
            cases (ps.filterMap Piece.name?).find? fun name => ls.value name = "" <;> rfl

theorem expand_eq (t : Template) (ls : Locations) :
    t.expand ls.labels =
      match t.unfilled? ls with
      | none => .ok ('/' :: t.pieces.flatMap (Piece.filling ls.value))
      | some name => .error (.unboundLabel name) := by
  rw [expand, expandPieces_eq, unfilled?, labels_eq]
  cases (t.pieces.filterMap Piece.name?).find? fun name => ls.value name = "" <;> rfl

theorem querySeparator_eq {t : Template} {labels : Dictionary String} {path : List Char}
    (h : t.expand labels = .ok path) : querySeparator path = t.separator := by
  -- No label expands to a mark or an ampersand, so the path has them where the template does.
  have hmark := mem_expand_iff (c := '?') (by decide) h
  have hendMark := getLast?_expand_iff (c := '?') (by decide) h
  have hendAmpersand := getLast?_expand_iff (c := '&') (by decide) h
  simp [querySeparator, separator, hmark, hendMark, hendAmpersand]

theorem parameters_eq (query : List (String × String)) :
    ("&".intercalate (query.map encodeParameter)).toList = parameters query := by
  rw [toList_parameters, parameters]
  simp only [toList_encodeParameter]

theorem targetText_eq (t : Template) (ls : Locations) :
    targetText t ls =
      match t.unfilled? ls with
      | none => .ok (t.target ls)
      | some name => .error (.unboundLabel name) := by
  have hexpand := t.expand_eq ls
  rw [targetText, hexpand]
  cases hunfilled : t.unfilled? ls with
  | some name => rfl
  | none =>
      rw [hunfilled] at hexpand
      have htext : appendQuery ('/' :: t.pieces.flatMap (Piece.filling ls.value)) ls.query =
          '/' :: t.pieces.flatMap (Piece.filling ls.value) ++
            if ls.query = [] then [] else t.separator ++ parameters ls.query := by
        rw [appendQuery, querySeparator_eq hexpand, parameters_eq]
        cases ls.query with
        | nil => simp
        | cons p rest => simp
      exact congrArg (fun cs => Except.ok (String.ofList cs)) htext

theorem targetText_eq_ok_iff_filledBy {t : Template} {ls : Locations} {target : String} :
    targetText t ls = .ok target ↔ t.FilledBy ls ∧ target = t.target ls := by
  rw [targetText_eq, ← unfilled?_eq_none_iff]
  cases t.unfilled? ls with
  | none => simp [eq_comm]
  | some name => simp

end Template

end ServiceCodec
