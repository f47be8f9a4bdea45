import Mathlib.Data.List.Basic

/-!
# The first that counts

Several programs here try one thing after another and answer for the first that
counts: the first place that holds a text, the first step that fails. `First`
says this without a program. A search through the list finds it, and so does a
chain of steps, each of which is passed when it does not fail.
-/

namespace ServiceCodec

/-- `b` belongs to the first of the list that anything belongs to. -/
inductive First {α β : Type} (R : α → β → Prop) : List α → β → Prop where
  | here {a : α} {as : List α} {b : β} (h : R a b) : First R (a :: as) b
  | there {a : α} {as : List α} {b : β} (hskip : ∀ b', ¬ R a b') (h : First R as b) :
      First R (a :: as) b

namespace First

variable {α β : Type} {R : α → β → Prop} {a : α} {as : List α} {b : β}

theorem cons_iff_of_skip (hskip : ∀ b', ¬ R a b') : First R (a :: as) b ↔ First R as b := by
  constructor
  · intro h
    cases h with
    | here ha => exact absurd ha (hskip b)
    | there _ h => exact h
  · exact .there hskip

theorem exists_iff : (∃ b, First R as b) ↔ ∃ a ∈ as, ∃ b, R a b := by
  induction as with
  | nil =>
      constructor
      · intro ⟨b, h⟩
        cases h
      · intro ⟨a, ha, _⟩
        cases ha
  | cons a as ih =>
      by_cases ha : ∃ b, R a b
      · obtain ⟨b, hb⟩ := ha
        exact ⟨fun _ => ⟨a, List.mem_cons_self, b, hb⟩, fun _ => ⟨b, .here hb⟩⟩
      · rw [not_exists] at ha
        simp only [cons_iff_of_skip ha, ih, List.exists_mem_cons_iff, ha, exists_false, false_or]

section Search

variable {find : α → Option β}

theorem of_findSome? (hfind : ∀ a b, find a = some b ↔ R a b) (h : as.findSome? find = some b) :
    First R as b := by
  induction as with
  | nil => cases h
  | cons a as ih =>
      rw [List.findSome?_cons] at h
      split at h
      · next b' hb' =>
          cases h
          exact .here ((hfind a b).mp hb')
      · next hnone =>
          refine .there (fun b' hb' => ?_) (ih h)
          rw [(hfind a b').mpr hb'] at hnone
          cases hnone

theorem findSome?_eq_some (hfind : ∀ a b, find a = some b ↔ R a b) (h : First R as b) :
    as.findSome? find = some b := by
  induction h with
  | here hb => rw [List.findSome?_cons, (hfind _ _).mpr hb]
  | there hskip _ ih =>
      have hnone : find _ = none := Option.eq_none_iff_forall_ne_some.mpr fun b' hb' =>
        hskip b' ((hfind _ _).mp hb')
      rw [List.findSome?_cons, hnone]
      exact ih

end Search

section Chain

variable {γ δ : Type} {x : Except β γ} {f : γ → Except β δ}

/-- A step that fails as `a` says, before a chain that fails as the rest of the list says. -/
theorem bind_iff (hx : ∀ b, x = .error b ↔ R a b)
    (hf : ∀ v, x = .ok v → ∀ b, f v = .error b ↔ First R as b) (b : β) :
    (x >>= f) = .error b ↔ First R (a :: as) b := by
  cases hstep : x with
  | error b' =>
      have hb' := (hx b').mp hstep
      constructor
      · intro h
        cases h
        exact .here hb'
      · intro h
        cases h with
        | here hb =>
            cases hstep.symm.trans ((hx b).mpr hb)
            rfl
        | there hskip _ => exact absurd hb' (hskip b')
  | ok v =>
      have hskip : ∀ b', ¬ R a b' := by
        intro b' hb'
        rw [(hx b').mpr hb'] at hstep
        cases hstep
      rw [cons_iff_of_skip hskip]
      exact hf v hstep b

theorem singleton_iff (hx : ∀ b, x = .error b ↔ R a b) (b : β) :
    x = .error b ↔ First R [a] b := by
  constructor
  · exact fun h => .here ((hx b).mp h)
  · intro h
    cases h with
    | here hb => exact (hx b).mpr hb
    | there _ h => cases h

end Chain

end First

end ServiceCodec
