/-!
# Dictionaries keyed by text

A dictionary is a list of entries in strictly increasing key order. The order
makes the representation canonical: two dictionaries that answer every lookup
alike are the same list, so an answer computed from one never depends on the
order in which its entries were put in.

The operations are stated on bare entry lists first, because JSON objects nest
the same lists inside a recursive type where no order proof can be carried.
-/

namespace ServiceCodec

universe u

/-- Keyed values in the order in which they are written out. -/
abbrev Entries (α : Type u) := List (String × α)

namespace Entries

/-- Strictly increasing keys, by code point; no key occurs twice. -/
def Sorted {α : Type u} (es : Entries α) : Prop :=
  es.Pairwise fun a b => a.1 < b.1

/-- Puts `value` under `key` at its place, replacing what the key had. -/
def insert {α : Type u} (key : String) (value : α) : Entries α → Entries α
  | [] => [(key, value)]
  | (k, v) :: rest =>
      if key < k then (key, value) :: (k, v) :: rest
      else if key = k then (key, value) :: rest
      else (k, v) :: insert key value rest

/-- The value under `key`. -/
def find? {α : Type u} (key : String) : Entries α → Option α
  | [] => none
  | (k, v) :: rest => if key = k then some v else find? key rest

/-- Later entries replace earlier ones of the same key. -/
def ofList {α : Type u} (pairs : List (String × α)) : Entries α :=
  pairs.foldl (fun es p => insert p.1 p.2 es) []

theorem mem_insert {α : Type u} {key : String} {value : α} {es : Entries α}
    {p : String × α} (h : p ∈ insert key value es) : p = (key, value) ∨ p ∈ es := by
  induction es with
  | nil => exact .inl (List.mem_singleton.mp h)
  | cons e rest ih =>
      rw [insert] at h
      split at h
      · rcases List.mem_cons.mp h with h | h
        · exact .inl h
        · exact .inr h
      · split at h
        · rcases List.mem_cons.mp h with h | h
          · exact .inl h
          · exact .inr (List.mem_cons_of_mem _ h)
        · rcases List.mem_cons.mp h with h | h
          · exact .inr (h ▸ List.mem_cons_self)
          · exact (ih h).imp_right (List.mem_cons_of_mem _)

theorem Sorted.insert {α : Type u} {es : Entries α} (h : es.Sorted) (key : String)
    (value : α) : (es.insert key value).Sorted := by
  induction es with
  | nil => exact List.pairwise_singleton _ _
  | cons e rest ih =>
      have hrest : Sorted rest := (List.pairwise_cons.mp h).2
      have hhead := (List.pairwise_cons.mp h).1
      rw [Entries.insert]
      split
      · next hlt =>
          refine List.pairwise_cons.mpr ⟨fun p hp => ?_, h⟩
          rcases List.mem_cons.mp hp with rfl | hp
          · exact hlt
          · exact String.lt_trans hlt (hhead p hp)
      · next hnlt =>
          split
          · next heq => exact List.pairwise_cons.mpr ⟨fun p hp => heq ▸ hhead p hp, hrest⟩
          · next hne =>
              refine List.pairwise_cons.mpr ⟨fun p hp => ?_, ih hrest⟩
              rcases mem_insert hp with rfl | hp
              · exact String.not_le.mp fun hle =>
                  hne (String.le_antisymm hle (String.not_lt.mp hnlt))
              · exact hhead p hp

theorem sorted_nil {α : Type u} : Sorted ([] : Entries α) := List.Pairwise.nil

theorem sorted_ofList {α : Type u} (pairs : List (String × α)) : (ofList pairs).Sorted := by
  suffices h : ∀ (es : Entries α), es.Sorted →
      (pairs.foldl (fun es p => insert p.1 p.2 es) es).Sorted from h [] sorted_nil
  induction pairs with
  | nil => exact fun _ h => h
  | cons p rest ih => exact fun es h => ih _ (h.insert p.1 p.2)

theorem insert_of_forall_lt {α : Type u} {key : String} {value : α} {es : Entries α}
    (h : ∀ e ∈ es, e.1 < key) : es.insert key value = es ++ [(key, value)] := by
  induction es with
  | nil => rfl
  | cons e rest ih =>
      have hlt := h e List.mem_cons_self
      rw [insert, if_neg (String.lt_asymm hlt),
        if_neg (fun heq => String.lt_irrefl _ (heq ▸ hlt)),
        ih fun x hx => h x (List.mem_cons_of_mem e hx)]
      rfl

/-- What is sorted already is put in at the end, entry by entry. -/
theorem ofList_of_sorted {α : Type u} {es : Entries α} (h : es.Sorted) : ofList es = es := by
  have hfold : ∀ front back : Entries α, Sorted (front ++ back) →
      back.foldl (fun es p => insert p.1 p.2 es) front = front ++ back := by
    intro front back hsorted
    induction back generalizing front with
    | nil => rw [List.foldl_nil, List.append_nil]
    | cons e rest ih =>
        have hbefore := (List.pairwise_append.mp hsorted).2.2
        rw [List.foldl_cons, insert_of_forall_lt fun x hx => hbefore x hx e List.mem_cons_self]
        have hrest := ih (front ++ [e]) (List.append_cons front e rest ▸ hsorted)
        exact hrest.trans (List.append_cons front e rest).symm
  exact hfold [] es h

theorem find?_insert_self {α : Type u} (key : String) (value : α) (es : Entries α) :
    (es.insert key value).find? key = some value := by
  induction es with
  | nil => simp [insert, find?]
  | cons e rest ih =>
      rw [insert]
      split
      · simp [find?]
      · split
        · simp [find?]
        · next hne => rw [find?, if_neg hne]; exact ih

theorem find?_insert_ne {α : Type u} {key k : String} (h : k ≠ key) (value : α) (es : Entries α) :
    (es.insert key value).find? k = es.find? k := by
  induction es with
  | nil => simp [insert, find?, h]
  | cons e rest ih =>
      rw [insert]
      split
      · rw [find?, if_neg h]
      · split
        · next heq => subst heq; rw [find?, find?, if_neg h, if_neg h]
        · rw [find?, find?, ih]

theorem find?_eq_none_of_lt {α : Type u} {key : String} {es : Entries α}
    (h : ∀ e ∈ es, key < e.1) : es.find? key = none := by
  induction es with
  | nil => rfl
  | cons e rest ih =>
      have hlt := h e List.mem_cons_self
      rw [find?, if_neg fun heq => String.lt_irrefl _ (heq ▸ hlt)]
      exact ih fun x hx => h x (List.mem_cons_of_mem _ hx)

/-- Sorted lists that answer every look-up alike are the same list. -/
theorem Sorted.eq_of_find? {α : Type u} {es fs : Entries α} (hes : es.Sorted) (hfs : fs.Sorted)
    (h : ∀ key, es.find? key = fs.find? key) : es = fs := by
  induction es generalizing fs with
  | nil =>
      cases fs with
      | nil => rfl
      | cons f _ => have := h f.1; simp [find?] at this
  | cons e es ih =>
      have he := List.pairwise_cons.mp hes
      cases fs with
      | nil => have := h e.1; simp [find?] at this
      | cons f fs =>
          have hf := List.pairwise_cons.mp hfs
          have hkey : e.1 = f.1 := by
            rcases Decidable.em (e.1 = f.1) with heq | hne
            · exact heq
            · exfalso
              rcases String.le_total e.1 f.1 with hle | hle
              · have hlt : e.1 < f.1 := String.not_le.mp fun hge =>
                  hne (String.le_antisymm hle hge)
                have hnone : find? e.1 (f :: fs) = none := find?_eq_none_of_lt fun x hx => by
                  rcases List.mem_cons.mp hx with rfl | hx
                  · exact hlt
                  · exact String.lt_trans hlt (hf.1 x hx)
                rw [← h e.1] at hnone
                simp [find?] at hnone
              · have hlt : f.1 < e.1 := String.not_le.mp fun hge =>
                  hne (String.le_antisymm hge hle)
                have hnone : find? f.1 (e :: es) = none := find?_eq_none_of_lt fun x hx => by
                  rcases List.mem_cons.mp hx with rfl | hx
                  · exact hlt
                  · exact String.lt_trans hlt (he.1 x hx)
                rw [h f.1] at hnone
                simp [find?] at hnone
          obtain ⟨k, v⟩ := e
          obtain ⟨k', w⟩ := f
          obtain rfl : k = k' := hkey
          have hval : v = w := by simpa [find?] using h k
          subst hval
          refine congrArg _ (ih he.2 hf.2 fun key => ?_)
          rcases Decidable.em (key = k) with rfl | hne
          · rw [find?_eq_none_of_lt he.1, find?_eq_none_of_lt hf.1]
          · simpa [find?, hne] using h key

theorem find?_filter_ne {α : Type u} (key k : String) (es : Entries α) :
    find? k (es.filter fun e => e.1 ≠ key) = if k = key then none else find? k es := by
  induction es with
  | nil => simp [find?]
  | cons e rest ih =>
      rw [List.filter_cons]
      split
      · next hne =>
          rw [find?, find?, ih]
          split
          · next heq => subst heq; rw [if_neg (by simpa using hne)]
          · rfl
      · next heq =>
          have heq : e.1 = key := by simpa using heq
          rw [ih, find?]
          split
          · rfl
          · next hne => rw [if_neg fun hk => hne (hk.trans heq)]

theorem mem_keys_iff {α : Type u} {key : String} {es : Entries α} :
    key ∈ es.map Prod.fst ↔ find? key es ≠ none := by
  induction es with
  | nil => simp [find?]
  | cons e rest ih =>
      rw [List.map_cons, List.mem_cons, ih, find?]
      split
      · next h => simp [h]
      · next h => simp [h]

end Entries

/-- A finite map from text to `α`. -/
structure Dictionary (α : Type u) where
  entries : Entries α
  sorted : entries.Sorted

namespace Dictionary

variable {α : Type u}

def empty : Dictionary α := ⟨[], Entries.sorted_nil⟩

instance : EmptyCollection (Dictionary α) := ⟨empty⟩

instance : Inhabited (Dictionary α) := ⟨empty⟩

/-- Puts `value` under `key`, replacing what the key had. -/
def insert (d : Dictionary α) (key : String) (value : α) : Dictionary α :=
  ⟨d.entries.insert key value, d.sorted.insert key value⟩

/-- Takes `key` and its value away. -/
def erase (d : Dictionary α) (key : String) : Dictionary α :=
  ⟨d.entries.filter fun e => e.1 ≠ key, d.sorted.filter _⟩

/-- The value under `key`. -/
def find? (d : Dictionary α) (key : String) : Option α := Entries.find? key d.entries

def contains (d : Dictionary α) (key : String) : Bool := (d.find? key).isSome

/-- The keys in increasing order. -/
def keys (d : Dictionary α) : List String := d.entries.map Prod.fst

def size (d : Dictionary α) : Nat := d.entries.length

def isEmpty (d : Dictionary α) : Bool := d.entries.isEmpty

/-- Later pairs replace earlier ones of the same key. -/
def ofList (pairs : List (String × α)) : Dictionary α :=
  ⟨Entries.ofList pairs, Entries.sorted_ofList pairs⟩

/-- A dictionary is what it answers. -/
theorem ext_find? {a b : Dictionary α} (h : ∀ key, a.find? key = b.find? key) : a = b := by
  obtain ⟨es, hes⟩ := a
  obtain ⟨fs, hfs⟩ := b
  obtain rfl : es = fs := hes.eq_of_find? hfs h
  rfl

@[simp] theorem find?_insert (d : Dictionary α) (key : String) (value : α) (k : String) :
    (d.insert key value).find? k = if k = key then some value else d.find? k := by
  split
  · next h => subst h; exact Entries.find?_insert_self k value d.entries
  · next h => exact Entries.find?_insert_ne h value d.entries

@[simp] theorem find?_erase (d : Dictionary α) (key k : String) :
    (d.erase key).find? k = if k = key then none else d.find? k :=
  Entries.find?_filter_ne key k d.entries

theorem erase_insert_self (d : Dictionary α) (key : String) (value : α) :
    (d.insert key value).erase key = d.erase key := by
  apply ext_find?
  intro k
  rw [find?_erase, find?_erase, find?_insert]
  split <;> rfl

theorem erase_insert_of_ne (d : Dictionary α) {key key' : String} (h : key ≠ key') (value : α) :
    (d.insert key value).erase key' = (d.erase key').insert key value := by
  apply ext_find?
  intro k
  rw [find?_erase, find?_insert, find?_insert, find?_erase]
  by_cases hk : k = key
  · rw [if_neg (by rw [hk]; exact h), if_pos hk, if_pos hk]
  · rw [if_neg hk, if_neg hk]

theorem mem_keys_iff {d : Dictionary α} {key : String} : key ∈ d.keys ↔ d.find? key ≠ none :=
  Entries.mem_keys_iff

theorem nodup_keys (d : Dictionary α) : d.keys.Nodup := by
  apply List.pairwise_map.mpr
  apply d.sorted.imp
  intro a b hlt heq
  rw [heq] at hlt
  exact String.lt_irrefl b.1 hlt

instance [DecidableEq α] : DecidableEq (Dictionary α) := fun a b =>
  decidable_of_iff (a.entries = b.entries)
    ⟨fun h => by cases a; cases b; cases h; rfl, fun h => h ▸ rfl⟩

end Dictionary

end ServiceCodec
