import ServiceCodec.Proofs.Operation.Spelling
import ServiceCodec.Proofs.Request.Filling

/-!
# What a path expands to

A template is a reading of a path, and `Template.target` is stated with its
pieces. A reader of this library may prefer the text. `expandText` is expansion
without pieces: it looks for the next opening brace, for the closing brace behind
it, and goes on with the text behind that. Such a search does not know whether
the braces it finds belong together, and it has an answer for a label that is
not closed.

On a path that was accepted it agrees with the pieces and never needs that answer
(`expandText_path`): what the search has still before it is always a text that
the scan reads from outside of a label, and this is the invariant of its
recursion.
-/

namespace ServiceCodec

namespace Template

/-- What the search for braces makes of a text; none if a label is not closed. -/
def expandText (labels : Dictionary String) (text : List Char) :
    Option (Except RequestError (List Char)) :=
  match _hopen : text.dropWhile (· ≠ '{') with
  | [] => some (.ok text)
  | _ :: behind =>
      match _hclose : behind.dropWhile (· ≠ '}') with
      | [] => none
      | _ :: rest =>
          match (Piece.ofPlaceholder (behind.takeWhile (· ≠ '}'))).expand labels with
          | .error e => some (.error e)
          | .ok value => (expandText labels rest).map
              (Except.map fun cs => text.takeWhile (· ≠ '{') ++ value ++ cs)
termination_by text.length
decreasing_by
  have hopen := congrArg List.length _hopen
  have hclose := congrArg List.length _hclose
  have hle := (List.dropWhile_suffix (p := (· ≠ '{')) (l := text)).length_le
  have hle' := (List.dropWhile_suffix (p := (· ≠ '}')) (l := behind)).length_le
  simp only [List.length_cons] at hopen hclose
  omega

section Search

variable {labels : Dictionary String} {text placeholder rest : List Char}

theorem expandText_of_notMem (h : '{' ∉ text) : expandText labels text = some (.ok text) := by
  have hnone : text.dropWhile (· ≠ '{') = [] :=
    List.dropWhile_eq_nil_iff.mpr fun c hc => decide_eq_true fun heq => h (heq ▸ hc)
  rw [expandText]
  split
  · rfl
  · next hopen => rw [hnone] at hopen; cases hopen

theorem expandText_of_label (htext : '{' ∉ text) (hplaceholder : '}' ∉ placeholder) :
    expandText labels (text ++ '{' :: (placeholder ++ '}' :: rest)) =
      match (Piece.ofPlaceholder placeholder).expand labels with
      | .error e => some (.error e)
      | .ok value => (expandText labels rest).map (Except.map fun cs => text ++ value ++ cs) := by
  rw [expandText]
  split
  · next hopen => rw [dropWhile_append_cons_of_notMem htext] at hopen; cases hopen
  · next behind hopen =>
      rw [dropWhile_append_cons_of_notMem htext] at hopen
      obtain rfl := (List.cons.inj hopen).2
      split
      · next hclose => rw [dropWhile_append_cons_of_notMem hplaceholder] at hclose; cases hclose
      · next rest' hclose =>
          rw [dropWhile_append_cons_of_notMem hplaceholder] at hclose
          obtain rfl := (List.cons.inj hclose).2
          rw [takeWhile_append_cons_of_notMem htext,
            takeWhile_append_cons_of_notMem hplaceholder]

theorem notMem_of_isBrace {c : Char} (hc : Piece.isBrace c = true)
    (h : ∀ x ∈ text, Piece.isBrace x = false) : c ∉ text := by
  intro hmem
  rw [h c hmem] at hc
  cases hc

/-- The search, with text already before it that it will copy. -/
theorem expandText_render {ps : List Piece} (h : ∀ p ∈ ps, p.WellFormed)
    (htext : ∀ c ∈ text, Piece.isBrace c = false) :
    expandText labels (text ++ ps.flatMap Piece.render) =
      some ((expandPieces labels ps).map (text ++ ·)) := by
  induction ps generalizing text with
  | nil =>
      rw [List.flatMap_nil, List.append_nil, expandText_of_notMem (notMem_of_isBrace rfl htext)]
      show _ = some (Except.ok (text ++ []))
      rw [List.append_nil]
  | cons p ps ih =>
      have hp := h p List.mem_cons_self
      have hps : ∀ q ∈ ps, q.WellFormed := fun q hq => h q (List.mem_cons_of_mem p hq)
      rw [expandPieces, List.flatMap_cons]
      cases p with
      | char c =>
          have hlonger : ∀ x ∈ text ++ [c], Piece.isBrace x = false := by
            intro x hx
            rcases List.mem_append.mp hx with hx | hx
            · exact htext x hx
            · rw [List.mem_singleton.mp hx]; exact hp
          rw [Piece.render, ← List.append_assoc, ih hps hlonger, Piece.expand]
          cases expandPieces labels ps with
          | error e => rfl
          | ok cs => exact congrArg (fun cs => some (Except.ok cs)) (List.append_assoc text [c] cs)
      | label name greedy =>
          have hname := Piece.isBrace_placeholder hp
          have hrest : expandText labels ([] ++ ps.flatMap Piece.render) =
              some ((expandPieces labels ps).map ([] ++ ·)) := ih hps (List.forall_mem_nil _)
          have hspelled : text ++ ((Piece.label name greedy).render ++ ps.flatMap Piece.render) =
              text ++ '{' :: (Piece.placeholder name greedy ++ '}' :: ps.flatMap Piece.render) := by
            simp [Piece.render_label]
          rw [hspelled, expandText_of_label (notMem_of_isBrace rfl htext)
            (notMem_of_isBrace rfl hname), Piece.ofPlaceholder_placeholder hp]
          rw [List.nil_append] at hrest
          cases (Piece.label name greedy).expand labels with
          | error e => rfl
          | ok value =>
              rw [hrest]
              cases expandPieces labels ps with
              | error e => rfl
              | ok cs =>
                  exact congrArg (fun cs => some (Except.ok cs)) (List.append_assoc text value cs)

end Search

theorem expandText_path (t : Template) (labels : Dictionary String) :
    expandText labels t.path.toList = some (t.expand labels) := by
  have hslash : ∀ c ∈ ['/'], Piece.isBrace c = false := List.forall_mem_singleton.mpr rfl
  rw [path, String.toList_ofList, ← List.singleton_append,
    expandText_render t.wellFormed hslash, expand]
  cases expandPieces labels t.pieces <;> rfl

/-- An accepted path is read in one way. Searched for its braces it expands to what its
pieces expand to. Its target is the one that the template describes if every label has
a value, and else the first label without one is to blame. -/
theorem expansion_exact (path : String) (t : Template) (hpath : ofPath path = .ok t)
    (ls : Locations) :
    (∀ t' : Template, t'.path = path ↔ t' = t) ∧
      expandText ls.labels path.toList = some (t.expand ls.labels) ∧
      (∀ target, targetText t ls = .ok target ↔ t.FilledBy ls ∧ target = t.target ls) ∧
      (∀ e, targetText t ls = .error e ↔
        ∃ name, t.unfilled? ls = some name ∧ e = .unboundLabel name) ∧
      t.separator.length ≤ 1 := by
  have hspelled := ofPath_eq_ok_iff.mp hpath
  refine ⟨fun t' => ⟨fun h => ?_, fun h => h ▸ hspelled⟩, ?_,
    fun target => targetText_eq_ok_iff_filledBy, fun e => ?_, t.length_separator_le⟩
  · exact Except.ok.inj ((ofPath_eq_ok_iff.mpr h).symm.trans hpath)
  · rw [← hspelled]
    exact t.expandText_path ls.labels
  · rw [targetText_eq]
    cases t.unfilled? ls with
    | none => simp
    | some name => simp [eq_comm]

theorem expansion_exact_of_adjacent_labels :
    ∃ t ls, ofPath "/ü{a+b}{c+}{}?q={c}" = .ok t ∧
      Locations.ofList [.label "a+b" "{c+}", .label "c" "x y//\x7b", .label "" "\x7d",
        .query "k" "{c}&"] = .ok ls ∧
      (∀ t' : Template, t'.path = "/ü{a+b}{c+}{}?q={c}" ↔ t' = t) ∧
      expandText ls.labels "/ü{a+b}{c+}{}?q={c}".toList = some (t.expand ls.labels) ∧
      targetText t ls =
        .ok "/ü%7Bc%2B%7Dx%20y//%7B%7D?q=x%20y%2F%2F%7B&k=%7Bc%7D%26" := by
  obtain ⟨t, ls, ht, hls, hfilled, htarget⟩ :
      ∃ t ls, ofPath "/ü{a+b}{c+}{}?q={c}" = .ok t ∧
        Locations.ofList [.label "a+b" "{c+}", .label "c" "x y//\x7b", .label "" "\x7d",
          .query "k" "{c}&"] = .ok ls ∧
        t.FilledBy ls ∧
        "/ü%7Bc%2B%7Dx%20y//%7B%7D?q=x%20y%2F%2F%7B&k=%7Bc%7D%26" = t.target ls :=
    ⟨_, _, rfl, rfl, by decide +kernel, by decide +kernel⟩
  obtain ⟨hread, hsearch, hok, -, -⟩ := expansion_exact _ t ht ls
  exact ⟨t, ls, ht, hls, hread, hsearch, (hok _).mpr ⟨hfilled, htarget⟩⟩

end Template

end ServiceCodec
