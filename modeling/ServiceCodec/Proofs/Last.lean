import Mathlib.Data.List.Induction
import Mathlib.Logic.Function.Basic

/-!
# The last that counts

Drafts are made by settings, each of which is about one slot and overwrites what
the slot had. Read slot by slot, a draft after many settings therefore has the
last one for each slot, and what it had before where there was none.
-/

namespace ServiceCodec

variable {δ σ κ : Type*} [DecidableEq κ]

/-- The last of the settings that is about a slot, where `slot` says what each is about. -/
def lastFor (slot : σ → κ) (settings : List σ) (k : κ) : Option σ :=
  (settings.filter fun x => slot x = k).getLast?

variable {slot : σ → κ}

theorem lastFor_concat (settings : List σ) (x : σ) (k : κ) :
    lastFor slot (settings ++ [x]) k = if k = slot x then some x else lastFor slot settings k := by
  rw [lastFor, List.filter_append]
  by_cases h : k = slot x
  · rw [if_pos h, List.filter_cons_of_pos (by simp [h]), List.filter_nil, List.getLast?_concat]
  · rw [if_neg h, List.filter_cons_of_neg (by simp [Ne.symm h]), List.filter_nil,
      List.append_nil, lastFor]

/-- If one setting overwrites its slot and no other, many leave the last one in each. -/
theorem view_foldl {set : δ → σ → δ} {view : δ → κ → Option σ}
    (hset : ∀ d x, view (set d x) = Function.update (view d) (slot x) (some x))
    (settings : List σ) (d : δ) :
    view (settings.foldl set d) = fun k => (lastFor slot settings k).or (view d k) := by
  -- From the back, since a setting overwrites what those before it left.
  induction settings using List.reverseRecOn with
  | nil => rfl
  | append_singleton settings x ih =>
      funext k
      rw [List.foldl_append, List.foldl_cons, List.foldl_nil, hset, Function.update_apply, ih,
        lastFor_concat]
      split
      · rfl
      · rfl

end ServiceCodec
