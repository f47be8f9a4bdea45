import Mathlib.Data.List.DropRight
import Mathlib.Data.List.TakeWhile

/-!
# Text cut at a character

Codes, URIs and queries are all read by cutting text at a character: at its
first one, at its last one, or at each of them. What a cut gives is found by
showing what stands in front of the character, and that the character is not in
it; the lemmas here are of this form.
-/

namespace ServiceCodec

variable {xs ys : List Char} {c : Char}

theorem takeWhile_of_notMem (h : c ∉ xs) : xs.takeWhile (· ≠ c) = xs :=
  List.takeWhile_eq_self_iff.mpr fun _ hx => decide_eq_true fun heq => h (heq ▸ hx)

theorem takeWhile_append_cons_of_notMem (h : c ∉ xs) :
    (xs ++ c :: ys).takeWhile (· ≠ c) = xs := by
  have hxs : ∀ x ∈ xs, decide (x ≠ c) = true := fun x hx =>
    decide_eq_true fun heq => h (heq ▸ hx)
  rw [List.takeWhile_append_of_pos hxs, List.takeWhile_cons_of_neg (by simp), List.append_nil]

theorem dropWhile_append_cons_of_notMem (h : c ∉ xs) :
    (xs ++ c :: ys).dropWhile (· ≠ c) = c :: ys := by
  have hxs : ∀ x ∈ xs, decide (x ≠ c) = true := fun x hx =>
    decide_eq_true fun heq => h (heq ▸ hx)
  rw [List.dropWhile_append_of_pos hxs, List.dropWhile_cons_of_neg (by simp)]

theorem notMem_of_mem_splitOn {part : List Char} (h : part ∈ xs.splitOn c) : c ∉ part := by
  induction xs generalizing part with
  | nil =>
      rw [List.splitOn_nil, List.mem_singleton] at h
      rw [h]
      exact List.not_mem_nil
  | cons x xs ih =>
      rw [List.splitOn_cons_eq_if_modifyHead] at h
      split at h
      · rcases List.mem_cons.mp h with rfl | h
        · exact List.not_mem_nil
        · exact ih h
      · next hx =>
          cases hsplit : xs.splitOn c with
          | nil => exact absurd hsplit (List.splitOn_ne_nil c xs)
          | cons first rest =>
              rw [hsplit, List.modifyHead_cons] at h
              rcases List.mem_cons.mp h with rfl | h
              · intro hmem
                rcases List.mem_cons.mp hmem with rfl | hmem
                · simp at hx
                · exact ih (hsplit ▸ List.mem_cons_self) hmem
              · exact ih (hsplit ▸ List.mem_cons_of_mem _ h)

theorem flatMap_intercalate {f : Char → List Char} (hf : f c = [c]) (parts : List (List Char)) :
    ([c].intercalate parts).flatMap f = [c].intercalate (parts.map (·.flatMap f)) := by
  induction parts with
  | nil => rfl
  | cons part rest ih =>
      cases rest with
      | nil => rw [List.intercalate_singleton]; exact List.intercalate_singleton.symm
      | cons next rest =>
          rw [List.intercalate_cons_cons, List.flatMap_append, List.flatMap_append, ih,
            List.flatMap_singleton, hf]
          exact List.intercalate_cons_cons.symm

theorem filter_intercalate {p : Char → Bool} (hp : p c = true) (parts : List (List Char)) :
    ([c].intercalate parts).filter p = [c].intercalate (parts.map (·.filter p)) := by
  induction parts with
  | nil => rfl
  | cons part rest ih =>
      cases rest with
      | nil => rw [List.intercalate_singleton]; exact List.intercalate_singleton.symm
      | cons next rest =>
          rw [List.intercalate_cons_cons, List.filter_append, List.filter_append, ih,
            List.filter_cons_of_pos hp, List.filter_nil]
          exact List.intercalate_cons_cons.symm

/-- Of a cut text whose parts are emptied only the cuts are left. -/
theorem intercalate_splitOn_nil (xs : List Char) (c : Char) :
    [c].intercalate ((xs.splitOn c).map fun _ => []) = List.replicate (xs.count c) c := by
  have hparts : ((xs.splitOn c).map fun _ => []) = (xs.splitOn c).map (·.filter (· == c)) := by
    apply List.map_congr_left
    intro part hpart
    symm
    apply List.filter_eq_nil_iff.mpr
    intro x hx heq
    rw [eq_of_beq heq] at hx
    exact notMem_of_mem_splitOn hpart hx
  rw [hparts, ← filter_intercalate (p := (· == c)) (beq_self_eq_true c),
    List.intercalate_splitOn, List.filter_beq]

theorem append_intercalate_cons {rest : List (List Char)} :
    xs ++ [c].intercalate (ys :: rest) = [c].intercalate ((xs ++ ys) :: rest) := by
  cases rest with
  | nil => rw [List.intercalate_singleton, List.intercalate_singleton]
  | cons zs rest =>
      rw [List.intercalate_cons_cons, List.intercalate_cons_cons, ← List.append_assoc,
        ← List.append_assoc]

theorem rtake_append_length {α : Type} (as bs : List α) : (as ++ bs).rtake bs.length = bs := by
  rw [List.rtake, List.length_append, Nat.add_sub_cancel, List.drop_left]

end ServiceCodec
