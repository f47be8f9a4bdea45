import ServiceCodec.Proofs.Request.Filling

/-!
# Values cannot change the structure of a target

Take from a target all characters that values are encoded with. What is left,
its skeleton, is what a reader of the target cuts it by: slashes, the question
mark, ampersands, equals signs, and whatever other punctuation the template has.

`Template.skeletonOf_target` computes the skeleton without the values. A
character of the template leaves itself, an encoded value leaves nothing, and a
greedy label leaves the slashes of its value and no more; each parameter leaves
its equals sign, and the separator before the parameters is the template's.

So of the values a skeleton knows how many slashes the greedy ones have and how
many parameters there are, and two requests that agree on these have the same:
`Template.values_keep_skeleton`.
-/

namespace ServiceCodec

/-- A character that no value is encoded with. -/
def isStructural (c : Char) : Bool := !Percent.isEncodedChar c

/-- The characters that structure a text, in their order. -/
def skeletonOf (cs : List Char) : List Char := cs.filter isStructural

theorem skeletonOf_append (xs ys : List Char) :
    skeletonOf (xs ++ ys) = skeletonOf xs ++ skeletonOf ys := List.filter_append xs ys

theorem skeletonOf_intercalate {c : Char} (hc : isStructural c = true)
    (parts : List (List Char)) :
    skeletonOf ([c].intercalate parts) = [c].intercalate (parts.map skeletonOf) :=
  filter_intercalate hc parts

/-! ## Encoded values -/

theorem skeletonOf_encode (value : String) : skeletonOf (Percent.encode value).toList = [] := by
  apply List.filter_eq_nil_iff.mpr
  intro c hc
  simp [isStructural, Percent.isEncodedChar_of_mem hc]

theorem skeletonOf_segments (value : String) :
    skeletonOf (['/'].intercalate ((value.toList.splitOn '/').map
      fun segment => (Percent.encode (String.ofList segment)).toList)) =
      List.replicate (value.toList.count '/') '/' := by
  rw [skeletonOf_intercalate (by decide), List.map_map, ← intercalate_splitOn_nil]
  refine congrArg (List.intercalate ['/']) (List.map_congr_left fun part _ => ?_)
  rw [Function.comp_apply, skeletonOf_encode]

theorem skeletonOf_parameters (query : List (String × String)) :
    skeletonOf (Template.parameters query) =
      ['&'].intercalate (List.replicate query.length ['=']) := by
  rw [Template.parameters, skeletonOf_intercalate (by decide), List.map_map, ← List.map_const']
  refine congrArg (List.intercalate ['&']) (List.map_congr_left fun p _ => ?_)
  have hequals : skeletonOf ['='] = ['='] := by decide
  rw [Function.comp_apply, ← List.singleton_append, skeletonOf_append, skeletonOf_append,
    skeletonOf_encode, skeletonOf_encode, hequals]
  rfl

/-! ## Skeletons of templates -/

namespace Locations

/-- How many slashes the value of a label has. -/
def slashes (ls : Locations) (name : String) : Nat := (ls.value name).toList.count '/'

end Locations

namespace Piece

/-- What a piece leaves of its expansion, if the values of the greedy labels have
so many slashes. -/
def skeleton (slashes : String → Nat) : Piece → List Char
  | char c => skeletonOf [c]
  | label name greedy =>
      if greedy then List.replicate (slashes (String.ofList name)) '/' else []

theorem skeletonOf_filling (ls : Locations) (p : Piece) :
    skeletonOf (p.filling ls.value) = p.skeleton ls.slashes := by
  cases p with
  | char c => rfl
  | label name greedy =>
      cases greedy with
      | false => exact skeletonOf_encode _
      | true => exact skeletonOf_segments _

end Piece

namespace Template

/-- The names of the labels that keep the slashes of their values. -/
def greedyLabels (t : Template) : List String :=
  t.pieces.filterMap fun
    | .label name true => some (String.ofList name)
    | _ => none

/-- The skeleton of every target with so many slashes in the values of greedy
labels and so many parameters. -/
def skeleton (t : Template) (slashes : String → Nat) (parameters : Nat) : List Char :=
  '/' :: t.pieces.flatMap (Piece.skeleton slashes) ++
    if parameters = 0 then []
    else t.separator ++ ['&'].intercalate (List.replicate parameters ['='])

theorem skeleton_congr {t : Template} {slashes slashes' : String → Nat}
    (h : ∀ name ∈ t.greedyLabels, slashes name = slashes' name) (parameters : Nat) :
    t.skeleton slashes parameters = t.skeleton slashes' parameters := by
  have hpieces : t.pieces.flatMap (Piece.skeleton slashes) =
      t.pieces.flatMap (Piece.skeleton slashes') := by
    apply List.flatMap_congr
    intro p hp
    cases p with
    | char c => rfl
    | label name greedy =>
        cases greedy with
        | false => rfl
        | true =>
            have hname : String.ofList name ∈ t.greedyLabels :=
              List.mem_filterMap.mpr ⟨_, hp, rfl⟩
            rw [Piece.skeleton, Piece.skeleton, h _ hname]
  rw [skeleton, skeleton, hpieces]

theorem skeletonOf_separator (t : Template) : skeletonOf t.separator = t.separator := by
  rw [separator]
  split
  · decide
  · split <;> decide

theorem skeletonOf_target (t : Template) (ls : Locations) :
    skeletonOf (t.target ls).toList = t.skeleton ls.slashes ls.query.length := by
  have hslash : skeletonOf ['/'] = ['/'] := by decide
  have hpieces : skeletonOf (t.pieces.flatMap (Piece.filling ls.value)) =
      t.pieces.flatMap (Piece.skeleton ls.slashes) := by
    rw [skeletonOf, List.filter_flatMap]
    exact List.flatMap_congr fun p _ => p.skeletonOf_filling ls
  rw [target, String.toList_ofList, ← List.singleton_append, skeletonOf_append, skeletonOf_append,
    hslash, hpieces, skeleton]
  -- Without parameters there is no separator either, so the path is all there is.
  cases ls.query with
  | nil => rfl
  | cons p rest =>
      rw [if_neg (List.cons_ne_nil p rest), List.length_cons, if_neg (by omega), skeletonOf_append,
        skeletonOf_separator, skeletonOf_parameters]
      rfl

theorem exists_targetText {t : Template} {ls : Locations} (h : t.FilledBy ls) :
    ∃ target, targetText t ls = .ok target ∧
      skeletonOf target.toList = t.skeleton ls.slashes ls.query.length :=
  ⟨t.target ls, targetText_eq_ok_iff_filledBy.mpr ⟨h, rfl⟩, t.skeletonOf_target ls⟩

/-- Two requests that fill a template, with equally many parameters, and with
equally many slashes in the values of its greedy labels, have targets of one
skeleton, and the template has it already. -/
theorem values_keep_skeleton (t : Template) (ls ls' : Locations) (hfilled : t.FilledBy ls)
    (hfilled' : t.FilledBy ls') (hquery : ls.query.length = ls'.query.length)
    (hslashes : ∀ name ∈ t.greedyLabels, ls.slashes name = ls'.slashes name) :
    ∃ target target', targetText t ls = .ok target ∧ targetText t ls' = .ok target' ∧
      skeletonOf target.toList = skeletonOf target'.toList ∧
      skeletonOf target.toList = t.skeleton ls.slashes ls.query.length := by
  obtain ⟨target, htarget, hskeleton⟩ := exists_targetText hfilled
  obtain ⟨target', htarget', hskeleton'⟩ := exists_targetText hfilled'
  refine ⟨target, target', htarget, htarget', ?_, hskeleton⟩
  rw [hskeleton, hskeleton', ← hquery]
  exact skeleton_congr hslashes _

theorem values_keep_skeleton_of_punctuation :
    ∃ op ls ls' target target',
      ({ path := "/{Bucket}/{Key+}?list" } : OperationDraft).build = .ok op ∧
        Locations.ofList [.label "Bucket" "a/b?#", .label "Key" "x&y/=", .query "k" "v&w=1",
          .query "" "%2F"] = .ok ls ∧
        Locations.ofList [.label "Bucket" "ü", .label "Key" "/+", .query "{?}" "#",
          .query "=" "&/"] = .ok ls' ∧
        targetText op.template ls = .ok target ∧ targetText op.template ls' = .ok target' ∧
        skeletonOf target.toList = skeletonOf target'.toList ∧
        skeletonOf target.toList = "///?&=&=".toList := by
  obtain ⟨op, ls, ls', hop, hls, hls', hfilled, hfilled', hquery, hslashes, hskeleton⟩ :
      ∃ op ls ls', ({ path := "/{Bucket}/{Key+}?list" } : OperationDraft).build = .ok op ∧
        Locations.ofList [.label "Bucket" "a/b?#", .label "Key" "x&y/=", .query "k" "v&w=1",
          .query "" "%2F"] = .ok ls ∧
        Locations.ofList [.label "Bucket" "ü", .label "Key" "/+", .query "{?}" "#",
          .query "=" "&/"] = .ok ls' ∧
        op.template.FilledBy ls ∧ op.template.FilledBy ls' ∧
        ls.query.length = ls'.query.length ∧
        (∀ name ∈ op.template.greedyLabels, ls.slashes name = ls'.slashes name) ∧
        op.template.skeleton ls.slashes ls.query.length = "///?&=&=".toList :=
    ⟨_, _, _, rfl, rfl, rfl, by decide +kernel, by decide +kernel, rfl, by decide +kernel,
      by decide +kernel⟩
  obtain ⟨target, target', htarget, htarget', hsame, hown⟩ :=
    values_keep_skeleton op.template ls ls' hfilled hfilled' hquery hslashes
  exact ⟨op, ls, ls', target, target', hop, hls, hls', htarget, htarget', hsame,
    hown.trans hskeleton⟩

end Template

end ServiceCodec
