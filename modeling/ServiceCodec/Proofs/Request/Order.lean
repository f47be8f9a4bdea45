import ServiceCodec.Proofs.Request.Content
import ServiceCodec.Proofs.Request.Parameters

/-!
# In which order members are bound

Two bindings have to keep their order only if they are about the same thing: one
label, one header in any letter case, or the query, which has its parameters in
the order in which they came. `Location.slot` says what a binding is about, and
two lists of bindings are `Rearranged` if they differ at most in how the bindings
of different slots are interleaved.

A list of bindings leaves locations that are no more than what they answer: a
value for each label, the values of each header, the query. Each answer is read
off the bindings of one slot, label by label and header by header the last one
of them, and a rearrangement has the same bindings there. So it leaves the same
locations, and whatever is made of them is the same too, be it a request or an
error (`Codec.unrelated_members_commute`).
-/

namespace ServiceCodec

namespace Location

/-- What a binding is about: a label, a header by its name in lower case, or the query. -/
inductive Slot where
  | label (name : String)
  | query
  | header (name : String)
  deriving DecidableEq

def slot : Location → Slot
  | label name _ => .label name
  | query _ _ => .query
  | header name _ => .header (String.ofList (name.toList.map Char.toLower))

/-- Labels and parameters hold any text; a header needs a name and a value that can be sent. -/
def Valid : Location → Prop
  | header name value => (HeaderName.ofText? name).isSome ∧ (HeaderValue.ofText? value).isSome
  | label .. | query .. => True

instance (m : Location) : Decidable m.Valid :=
  match m with
  | header name value => inferInstanceAs (Decidable
      ((HeaderName.ofText? name).isSome = true ∧ (HeaderValue.ofText? value).isSome = true))
  | label .. | query .. => inferInstanceAs (Decidable True)

/-- The value that a member binds to the label of a name. -/
def labelValue? (key : String) : Location → Option String
  | label name value => if name = key then some value else none
  | _ => none

theorem labelValue?_of_slot_ne {m : Location} {key : String} (h : m.slot ≠ .label key) :
    m.labelValue? key = none := by
  cases m with
  | label name value => exact if_neg fun hname => h (by rw [slot, hname])
  | query name value | header name value => rfl

theorem parameter?_of_slot_ne {m : Location} (h : m.slot ≠ .query) : m.parameter? = none := by
  cases m with
  | query name value => exact absurd rfl h
  | label name value | header name value => rfl

theorem value?_of_slot_ne {m : Location} {key : String} (h : m.slot ≠ .header key) :
    m.value? key = none := by
  cases m with
  | header name value =>
      refine if_neg fun hname => h ?_
      simp only [HeaderName.ofText?] at hname
      split at hname
      · cases hname
        rfl
      · cases hname
  | label name value | query name value => rfl

end Location

/-- The same bindings, with those of each slot in the same order. -/
structure Rearranged (members members' : List Location) : Prop where
  perm : members.Perm members'
  kept : ∀ slot, (members.filter fun m => m.slot = slot) =
    members'.filter fun m => m.slot = slot

/-- Only slots that something is bound to need a look. -/
theorem rearranged_iff {members members' : List Location} :
    Rearranged members members' ↔ members.Perm members' ∧ ∀ m ∈ members,
      (members.filter fun x => x.slot = m.slot) = members'.filter fun x => x.slot = m.slot := by
  constructor
  · exact fun h => ⟨h.perm, fun m _ => h.kept m.slot⟩
  · intro ⟨hperm, hkept⟩
    refine ⟨hperm, fun slot => ?_⟩
    by_cases hslot : ∃ m ∈ members, m.slot = slot
    · obtain ⟨m, hm, rfl⟩ := hslot
      exact hkept m hm
    · have hnone : ∀ m ∈ members, ¬ decide (m.slot = slot) = true := fun m hm hslot' =>
        hslot ⟨m, hm, of_decide_eq_true hslot'⟩
      have hnone' : ∀ m ∈ members', ¬ decide (m.slot = slot) = true := fun m hm =>
        hnone m (hperm.mem_iff.mpr hm)
      rw [List.filter_eq_nil_iff.mpr hnone, List.filter_eq_nil_iff.mpr hnone']

instance (members members' : List Location) : Decidable (Rearranged members members') :=
  decidable_of_iff _ rearranged_iff.symm

/-- What is read off the bindings of one slot alone is the same after a rearrangement. -/
theorem Rearranged.filterMap_eq {β : Type} {members members' : List Location}
    (h : Rearranged members members') {read : Location → Option β} {slot : Location.Slot}
    (hread : ∀ m : Location, m.slot ≠ slot → read m = none) :
    members.filterMap read = members'.filterMap read := by
  have hslot : ∀ ms : List Location,
      ms.filterMap read = (ms.filter fun m => m.slot = slot).filterMap read := by
    intro ms
    rw [List.filterMap_filter]
    refine List.filterMap_congr fun m _ => ?_
    by_cases hm : m.slot = slot
    · simp [hm]
    · simp [hm, hread m hm]
  rw [hslot members, hslot members', h.kept slot]

namespace Locations

variable {ls ls' : Locations} {members members' : List Location}

theorem exists_bind {m : Location} (h : m.Valid) (ls : Locations) :
    ∃ ls', ls.bind m = .ok ls' := by
  cases m with
  | label name value => exact ⟨_, rfl⟩
  | query name value => exact ⟨_, rfl⟩
  | header name value =>
      obtain ⟨n, hn⟩ := Option.isSome_iff_exists.mp h.1
      obtain ⟨v, hv⟩ := Option.isSome_iff_exists.mp h.2
      exact ⟨_, bindHeader_eq_ok_iff.mpr ⟨n, v, hn, hv, rfl⟩⟩

theorem exists_bindAll (h : ∀ m ∈ members, m.Valid) (ls : Locations) :
    ∃ ls', ls.bindAll members = .ok ls' := by
  induction members generalizing ls with
  | nil => exact ⟨ls, rfl⟩
  | cons m rest ih =>
      obtain ⟨ls₁, hm⟩ := exists_bind (h m List.mem_cons_self) ls
      obtain ⟨ls₂, hrest⟩ := ih (fun x hx => h x (List.mem_cons_of_mem m hx)) ls₁
      exact ⟨ls₂, Except.bind_eq_ok_iff.mpr ⟨ls₁, hm, hrest⟩⟩

theorem label?_bind {m : Location} (h : ls.bind m = .ok ls') (key : String) :
    ls'.label? key = (m.labelValue? key).or (ls.label? key) := by
  cases m with
  | label name value =>
      cases h
      rw [label?, bindLabel, Dictionary.find?_insert, Location.labelValue?]
      by_cases hkey : name = key
      · rw [if_pos hkey, if_pos hkey.symm]
        rfl
      · rw [if_neg hkey, if_neg (Ne.symm hkey)]
        rfl
  | query name value =>
      cases h
      rfl
  | header name value =>
      obtain ⟨n, v, -, -, rfl⟩ := bindHeader_eq_ok_iff.mp h
      rfl

/-- A label has the last value that is bound to its name. -/
theorem label?_ofList (h : ofList members = .ok ls) (key : String) :
    ls.label? key = (members.filterMap (Location.labelValue? key)).getLast? := by
  rw [bindAll_last (fun hbind => label?_bind hbind key) h]
  exact Option.or_none

/-- Locations are what they answer. -/
theorem ext_answers (hlabels : ∀ key, ls.label? key = ls'.label? key)
    (hquery : ls.query = ls'.query) (hheaders : ls.headers.find? = ls'.headers.find?) :
    ls = ls' := by
  obtain ⟨labels, query, headers⟩ := ls
  obtain ⟨labels', query', headers'⟩ := ls'
  obtain rfl : labels = labels' := Dictionary.ext_find? hlabels
  obtain rfl : query = query' := hquery
  obtain rfl : headers = headers' := Dictionary.ext_find? (congrFun hheaders)
  rfl

theorem ofList_eq_of_rearranged (hvalid : ∀ m ∈ members, m.Valid)
    (h : Rearranged members members') : ofList members = ofList members' := by
  have hvalid' : ∀ m ∈ members', m.Valid := fun m hm => hvalid m (h.perm.mem_iff.mpr hm)
  obtain ⟨ls, hls⟩ := exists_bindAll hvalid {}
  obtain ⟨ls', hls'⟩ := exists_bindAll hvalid' {}
  have hsame : ls = ls' := by
    apply ext_answers
    · intro key
      rw [label?_ofList hls, label?_ofList hls',
        h.filterMap_eq fun _ => Location.labelValue?_of_slot_ne]
    · rw [query_ofList hls, query_ofList hls', Location.parameters, Location.parameters,
        h.filterMap_eq fun _ => Location.parameter?_of_slot_ne]
    · funext key
      rw [find?_headers_ofList hls, find?_headers_ofList hls', HeaderView.ofBindings,
        HeaderView.ofBindings, h.filterMap_eq fun _ => Location.value?_of_slot_ne]
  rw [ofList, ofList, hls, hls', hsame]

end Locations

/-- A request does not depend on how bindings of different labels, of different headers and of the
query are interleaved. Of the bindings of one label or one header the last counts, and every
parameter is kept. -/
theorem Codec.unrelated_members_commute {ε : Type} (c : Codec ε) (op : Operation) (input : Input)
    (body : Body) {members members' : List Location} (hvalid : ∀ m ∈ members, m.Valid)
    (h : Rearranged members members') :
    c.marshal op { input with locations := Locations.ofList members } =
        c.marshal op { input with locations := Locations.ofList members' } ∧
      c.marshalBody op { input with locations := Locations.ofList members } body =
        c.marshalBody op { input with locations := Locations.ofList members' } body ∧
      ∃ ls, Locations.ofList members = .ok ls ∧
        (∀ name, ls.label? name =
          (members.filterMap (Location.labelValue? name)).getLast?) ∧
        (∀ name, ls.headers.find? name =
          ((members.filterMap (Location.value? name)).getLast?).map ([·])) ∧
        ls.query = members.filterMap Location.parameter? := by
  obtain ⟨ls, hls⟩ := Locations.exists_bindAll hvalid {}
  have hsame := Locations.ofList_eq_of_rearranged hvalid h
  refine ⟨by rw [hsame], by rw [hsame], ls, hls, Locations.label?_ofList hls, fun name => ?_,
    Locations.query_ofList hls⟩
  rw [Locations.find?_headers_ofList hls, HeaderView.ofBindings]

/-- A label and a header bound twice, the header in two spellings, and the same parameter twice. -/
theorem Codec.unrelated_members_commute_when_interleaved :
    let members : List Location := [.label "id" "a", .query "k" "2", .header "X-Tag" "old",
      .label "id" "b", .query "k" "1", .header "x-tag" "new"]
    let members' : List Location := [.header "X-Tag" "old", .header "x-tag" "new",
      .query "k" "2", .query "k" "1", .label "id" "a", .label "id" "b"]
    (∀ m ∈ members, m.Valid) ∧ Rearranged members members' ∧
      ∃ op rq, ({ path := "/{id}" } : OperationDraft).build = .ok op ∧
        (Codec.bare .restJson).marshal op { locations := Locations.ofList members } = .ok rq ∧
        (Codec.bare .restJson).marshal op { locations := Locations.ofList members' } = .ok rq ∧
        rq.uri.toText = "/b?k=2&k=1" := by
  intro members members'
  have hvalid : ∀ m ∈ members, m.Valid := by decide
  have h : Rearranged members members' := by decide
  obtain ⟨op, rq, hop, hrq, huri⟩ : ∃ op rq, ({ path := "/{id}" } : OperationDraft).build = .ok op ∧
      (Codec.bare .restJson).marshal op { locations := Locations.ofList members } = .ok rq ∧
      rq.uri.toText = "/b?k=2&k=1" := ⟨_, _, rfl, rfl, rfl⟩
  have hsame := (Codec.unrelated_members_commute (Codec.bare .restJson) op {} .empty hvalid h).1
  exact ⟨hvalid, h, op, rq, hop, hrq, hsame.symm.trans hrq, huri⟩

end ServiceCodec
