import Mathlib.Data.List.Infix
import ServiceCodec.Proofs.Request.Filling

/-!
# Different values have different targets

Two requests with the same template and the same parameters, whose values
differ in one label only, have different targets (`label_values_distinguish`).

One occurrence of the label would not be enough to read its value off the
target: where the value ends is not marked, and what the template has behind it
may look like more of the value, even like the rest of an escape. What can be
read are the bytes of the value one by one, up to the end of the shorter value,
and so one value begins with the other (`prefix_or_prefix_of_spelled`). The rest
is counting. Whether a label keeps its slashes or escapes them, more bytes take
more room, wherever the label stands, and all other pieces take the same room in
both targets. So if one value were longer its target would be longer too.
-/

namespace ServiceCodec

namespace Locations

theorem label?_bindLabel_of_ne {name other : String} (h : other ≠ name) (ls : Locations)
    (value : String) : (ls.bindLabel name value).label? other = ls.label? other := by
  rw [label?, bindLabel, Dictionary.find?_insert, if_neg h, label?]

end Locations

namespace Piece

theorem filling_label (value : String → String) (name : List Char) (greedy : Bool) :
    (label name greedy).filling value =
      (bytesOf (value (String.ofList name))).flatMap (Percent.spelling greedy) := by
  cases greedy with
  | false => exact Percent.toList_encode _
  | true =>
      rw [filling, ← Percent.toList_encodeSegments_eq_intercalate, Percent.toList_encodeSegments]
      rfl

section OneValue

variable {value value' : String → String} {name : String} {p : Piece} {ps : List Piece}

theorem filling_of_name?_ne (hother : ∀ other, other ≠ name → value other = value' other)
    (hp : p.name? ≠ some name) : p.filling value = p.filling value' := by
  cases p with
  | char c => rfl
  | label text greedy =>
      have htext : String.ofList text ≠ name := fun h => hp (congrArg some h)
      rw [filling_label, filling_label, hother _ htext]

theorem length_filling_le (hother : ∀ other, other ≠ name → value other = value' other)
    (hfront : bytesOf (value name) <+: bytesOf (value' name)) (p : Piece) :
    (p.filling value).length ≤ (p.filling value').length := by
  by_cases hp : p.name? = some name
  · cases p with
    | char c => cases hp
    | label text greedy =>
        obtain rfl := Option.some.inj hp
        rw [filling_label, filling_label]
        exact (hfront.flatMap _).length_le
  · rw [filling_of_name?_ne hother hp]

theorem length_flatMap_filling_le (hother : ∀ other, other ≠ name → value other = value' other)
    (hfront : bytesOf (value name) <+: bytesOf (value' name)) (ps : List Piece) :
    (ps.flatMap (filling value)).length ≤ (ps.flatMap (filling value')).length := by
  induction ps with
  | nil => exact Nat.le_refl 0
  | cons p ps ih =>
      have hp := length_filling_le hother hfront p
      rw [List.flatMap_cons, List.flatMap_cons, List.length_append, List.length_append]
      omega

/-- Of two fillings of equal length neither value can be the longer one. -/
theorem eq_of_length_filling {greedy : Bool} {text : List Char}
    (hother : ∀ other, other ≠ String.ofList text → value other = value' other)
    (hfront : bytesOf (value (String.ofList text)) <+: bytesOf (value' (String.ofList text)))
    (h : ((label text greedy :: ps).flatMap (filling value')).length ≤
      ((label text greedy :: ps).flatMap (filling value)).length) :
    value (String.ofList text) = value' (String.ofList text) := by
  have hrest := length_flatMap_filling_le hother hfront ps
  rw [List.flatMap_cons, List.flatMap_cons, List.length_append, List.length_append] at h
  have hlabel : ((label text greedy).filling value').length ≤
      ((label text greedy).filling value).length := by omega
  rw [filling_label, filling_label] at hlabel
  exact Percent.bytesOf_inj.mp (Percent.eq_of_length_spelled hfront hlabel)

theorem eq_of_flatMap_filling (hother : ∀ other, other ≠ name → value other = value' other)
    (hname : name ∈ ps.filterMap name?)
    (h : ps.flatMap (filling value) = ps.flatMap (filling value')) : value name = value' name := by
  induction ps with
  | nil => cases hname
  | cons p ps ih =>
      have hlength := congrArg List.length h
      by_cases hp : p.name? = some name
      · cases p with
        | char c => cases hp
        | label text greedy =>
            obtain rfl := Option.some.inj hp
            rw [List.flatMap_cons, List.flatMap_cons, filling_label, filling_label] at h
            -- Only here are bytes compared; all places behind this one are counted.
            rcases Percent.prefix_or_prefix_of_spelled h with hfront | hfront
            · exact eq_of_length_filling hother hfront hlength.ge
            · have hother' := fun other hne => (hother other hne).symm
              exact (eq_of_length_filling hother' hfront hlength.le).symm
      · -- What stands before the first place of the label is the same in both.
        rw [List.flatMap_cons, List.flatMap_cons, filling_of_name?_ne hother hp] at h
        refine ih ?_ (List.append_cancel_left h)
        rcases List.mem_filterMap.mp hname with ⟨q, hq, hqname⟩
        rcases List.mem_cons.mp hq with rfl | hq
        · exact absurd hqname hp
        · exact List.mem_filterMap.mpr ⟨q, hq, hqname⟩

end OneValue

end Piece

namespace Template

variable {t : Template} {ls ls' : Locations}

theorem target_eq_iff (hquery : ls.query = ls'.query) :
    t.target ls = t.target ls' ↔
      t.pieces.flatMap (Piece.filling ls.value) = t.pieces.flatMap (Piece.filling ls'.value) := by
  rw [target, target, hquery, String.ofList_inj, List.append_cancel_right_eq, List.cons.injEq]
  exact and_iff_right rfl

/-- Two requests fill a template and differ in the value of one of its labels, if in
anything. Their targets are the same if and only if the values are. -/
theorem label_values_distinguish (t : Template) (ls ls' : Locations) (name : String)
    (hname : name ∈ t.labels) (hquery : ls.query = ls'.query)
    (hother : ∀ other, other ≠ name → ls.label? other = ls'.label? other)
    (target target' : String) (h : targetText t ls = .ok target)
    (h' : targetText t ls' = .ok target') :
    target = target' ↔ ls.label? name = ls'.label? name := by
  obtain ⟨hfilled, rfl⟩ := targetText_eq_ok_iff_filledBy.mp h
  obtain ⟨-, rfl⟩ := targetText_eq_ok_iff_filledBy.mp h'
  rw [target_eq_iff hquery]
  constructor
  · intro htarget
    have hvalue : ls.value name = ls'.value name :=
      Piece.eq_of_flatMap_filling (fun other hne => Locations.value_congr (hother other hne))
        (t.labels_eq ▸ hname) htarget
    have hbound := Locations.find?_labels_eq_some (hfilled name hname)
    have hbound' := Locations.find?_labels_eq_some (hvalue ▸ hfilled name hname)
    rw [Locations.label?, Locations.label?, hbound, hbound', hvalue]
  · intro hsame
    have hvalue : ls.value = ls'.value := by
      funext other
      by_cases hne : other = name
      · exact Locations.value_congr (hne ▸ hsame)
      · exact Locations.value_congr (hother other hne)
    rw [hvalue]

theorem label_values_distinguish_before_hex :
    ∃ op ls ls' target target',
      ({ path := "/%{k}{k+}2F?x={k}" } : OperationDraft).build = .ok op ∧
        Locations.ofList [.query "q" "v", .label "k" "/"] = .ok ls ∧
        Locations.ofList [.query "q" "v", .label "k" "/2F"] = .ok ls' ∧
        targetText op.template ls = .ok target ∧ targetText op.template ls' = .ok target' ∧
        target ≠ target' := by
  let ls := (({} : Locations).bindQuery "q" "v").bindLabel "k" "/"
  let ls' := (({} : Locations).bindQuery "q" "v").bindLabel "k" "/2F"
  have hother : ∀ other, other ≠ "k" → ls.label? other = ls'.label? other := by
    intro other hne
    rw [Locations.label?_bindLabel_of_ne hne, Locations.label?_bindLabel_of_ne hne]
  obtain ⟨op, hop, hname, hfilled, hfilled'⟩ :
      ∃ op, ({ path := "/%{k}{k+}2F?x={k}" } : OperationDraft).build = .ok op ∧
        "k" ∈ op.template.labels ∧ op.template.FilledBy ls ∧ op.template.FilledBy ls' :=
    ⟨_, rfl, by decide +kernel, by decide +kernel, by decide +kernel⟩
  have h := targetText_eq_ok_iff_filledBy.mpr ⟨hfilled, rfl⟩
  have h' := targetText_eq_ok_iff_filledBy.mpr ⟨hfilled', rfl⟩
  have hiff := label_values_distinguish op.template ls ls' "k" hname rfl hother _ _ h h'
  exact ⟨op, ls, ls', _, _, hop, rfl, rfl, h, h', fun heq => absurd (hiff.mp heq) (by decide)⟩

end Template

end ServiceCodec
