import ServiceCodec.Proofs.Json.Scalars
import ServiceCodec.Proofs.Request.Marshal
import ServiceCodec.Proofs.Text.Ascii
import ServiceCodec.Response.Error

/-!
# Documents in requests are read back as they were given

The readers recurse on a budget, so the induction is on the budget, over all
three of them at once (`ReadsBack`): with a budget of twice the length of what
is written, a value, the elements of an array and the members of an object are
read back, with anything behind them that does not continue a number. Each part
of the step reads one character or one value and leaves the rest to the
hypothesis (`value_succ`, `elements_succ`, `members_succ`).

Three things about the value are needed on the way. Nesting takes from the
readers' room as `depth` counts it. Numbers are whole (`Integral`): fractions
are valued with two roundings, and nothing is said of them here. Members are put
in one by one and come out in key order, which is the order they are written in
if the value is `Canonical`.

What follows from the text to the body, and from the body to the request, is
`ofBody_toBody` and `Codec.documents_read_back`.
-/

namespace ServiceCodec

namespace Json

/-- The whole numbers of 64 bits, with a sign or without. -/
def Is64Bit (n : Int) : Prop := -9223372036854775808 ≤ n ∧ n ≤ 18446744073709551615

mutual

/-- Every number, at any depth, is a whole one of 64 bits. -/
def Integral : Json → Prop
  | number (.int n) => Is64Bit n
  | number (.float _) => False
  | array vs => IntegralElements vs
  | object es => IntegralMembers es
  | _ => True

def IntegralElements : List Json → Prop
  | [] => True
  | v :: vs => Integral v ∧ IntegralElements vs

def IntegralMembers : List (String × Json) → Prop
  | [] => True
  | (_, v) :: es => Integral v ∧ IntegralMembers es

end

/-! ## Values of one part -/

variable {budget room : Nat} {rest : List Char}

theorem skipBlanks_cons {c : Char} (h : isBlank c = false) :
    skipBlanks (c :: rest) = c :: rest := by
  rw [skipBlanks, List.dropWhile_cons_of_neg (by simp [h])]

theorem readValue_writeString {text : String} :
    readValue (budget + 1) room (writeString text ++ rest) = .ok (string text, rest) := by
  rw [writeString_append, readValue, skipBlanks_cons rfl]
  simp only [readString_flatMap_escapeChar]
  rfl

/-- A character that a value can begin with: no blank, and it closes nothing. -/
structure Opens (c : Char) : Prop where
  visible : 0x20 < c.toNat
  ascii : c.toNat < 0x80
  notClosing : c ≠ ']'

instance (c : Char) : Decidable (Opens c) :=
  decidable_of_iff (0x20 < c.toNat ∧ c.toNat < 0x80 ∧ c ≠ ']')
    ⟨fun ⟨hvisible, hascii, hclosing⟩ => ⟨hvisible, hascii, hclosing⟩,
      fun h => ⟨h.visible, h.ascii, h.notClosing⟩⟩

theorem Opens.isBlank {c : Char} (h : Opens c) : isBlank c = false := by
  have hvisible := h.visible
  apply eq_false_of_ne_true
  intro hblank
  simp only [Json.isBlank, Bool.or_eq_true, decide_eq_true_eq] at hblank
  rcases hblank with ((rfl | rfl) | rfl) | rfl <;> exact absurd hvisible (by decide)

theorem opens_of_isDigit {c : Char} (h : Numeral.isDigit c = true) : Opens c := by
  rw [Numeral.isDigit, Bool.and_eq_true, decide_eq_true_eq, decide_eq_true_eq] at h
  have hlow : 48 ≤ c.toNat := h.1
  have hhigh : c.toNat ≤ 57 := h.2
  refine ⟨by omega, by omega, ?_⟩
  rintro rfl
  exact absurd hhigh (by decide)

theorem readValue_digit {c : Char} (h : Numeral.isDigit c = true) :
    readValue (budget + 1) room (c :: rest) = readNumber false (c :: rest) := by
  rw [readValue, skipBlanks_cons (opens_of_isDigit h).isBlank]
  split
  case h_1 heq => cases heq
  case h_9 => rfl
  -- The other cases are those of characters that are no digits.
  all_goals
    next heq =>
      cases heq
      cases h

theorem readValue_decimalText {n : Int} (h : Is64Bit n) (hends : Numeral.Ends rest) :
    readValue (budget + 1) room (decimalText n ++ rest) = .ok (number (.int n), rest) := by
  obtain ⟨hlow, hhigh⟩ := h
  rw [decimalText]
  split
  · next hneg =>
      have hread := readNumber_toDigits_neg (n := n.natAbs) (by omega) (by omega) hends
      rw [show -(n.natAbs : Int) = n by omega] at hread
      rw [List.cons_append, readValue, skipBlanks_cons rfl]
      exact hread
  · next hnonneg =>
      have hlimit : n.natAbs ≤ Numeral.significandLimit := by
        rw [Numeral.significandLimit]
        omega
      have hread := readNumber_toDigits hlimit hends
      rw [show (n.natAbs : Int) = n by omega] at hread
      obtain ⟨d, ds, hds, hd⟩ := Numeral.exists_toDigits_eq_cons n.natAbs
      rw [hds] at hread ⊢
      rw [List.cons_append, readValue_digit hd]
      exact hread

theorem exists_write_eq_cons {v : Json} (h : v.Integral) :
    ∃ c cs, v.write = c :: cs ∧ Opens c := by
  cases v with
  | null => exact ⟨_, _, rfl, by decide⟩
  | bool b => cases b <;> exact ⟨_, _, rfl, by decide⟩
  | string s => exact ⟨_, _, rfl, by decide⟩
  | array vs => cases vs <;> exact ⟨_, _, rfl, by decide⟩
  | object es => cases es <;> exact ⟨_, _, rfl, by decide⟩
  | number n =>
      cases n with
      | float x => exact absurd h id
      | int n =>
          rw [write, Number.write, decimalText]
          split
          · exact ⟨_, _, rfl, by decide⟩
          · obtain ⟨d, ds, hds, hd⟩ := Numeral.exists_toDigits_eq_cons n.natAbs
            exact ⟨d, ds, hds, opens_of_isDigit hd⟩

/-! ## Arrays and objects -/

theorem ends_writeElements (vs : List Json) : Numeral.Ends (writeElements vs ++ rest) := by
  cases vs <;> (rintro c ⟨⟩; decide)

theorem length_writeElements_pos (vs : List Json) : 0 < (writeElements vs).length := by
  cases vs <;> exact Nat.succ_pos _

theorem ends_writeMembers (es : List (String × Json)) :
    Numeral.Ends (writeMembers es ++ rest) := by
  cases es <;> (rintro c ⟨⟩; decide)

theorem readValue_bracket {c : Char} (hc : Opens c) (s : List Char) :
    readValue (budget + 1) (room + 1) ('[' :: c :: s) = (do
      let (vs, rest) ← readElements budget room (c :: s)
      return (array vs, rest)) := by
  rw [readValue, skipBlanks_cons rfl]
  simp only [skipBlanks_cons hc.isBlank]
  split
  · next heq => cases heq; exact absurd rfl hc.notClosing
  · rfl

theorem readValue_brace (s : List Char) :
    readValue (budget + 1) (room + 1) ('{' :: '"' :: s) = (do
      let (es, rest) ← readMembers budget room ('"' :: s)
      return (ofFields es, rest)) := by
  rw [readValue, skipBlanks_cons rfl]
  rfl

/-- With so large a budget, the written is read back. -/
structure ReadsBack (budget : Nat) : Prop where
  value {v : Json} {room : Nat} {rest : List Char} (hcanonical : v.Canonical)
    (hintegral : v.Integral) (hdepth : v.depth ≤ room) (hlength : 2 * v.write.length ≤ budget)
    (hends : Numeral.Ends rest) : readValue budget room (v.write ++ rest) = .ok (v, rest)
  elements {v : Json} {vs : List Json} {room : Nat} {rest : List Char}
    (hcanonical : CanonicalElements (v :: vs)) (hintegral : IntegralElements (v :: vs))
    (hdepth : depthElements (v :: vs) ≤ room)
    (hlength : 2 * (v.write ++ writeElements vs).length ≤ budget) :
    readElements budget room (v.write ++ writeElements vs ++ rest) = .ok (v :: vs, rest)
  members {k : String} {v : Json} {es : List (String × Json)} {room : Nat} {rest : List Char}
    (hcanonical : CanonicalMembers ((k, v) :: es)) (hintegral : IntegralMembers ((k, v) :: es))
    (hdepth : depthMembers ((k, v) :: es) ≤ room)
    (hlength : 2 * (writeString k ++ ':' :: v.write ++ writeMembers es).length ≤ budget) :
    readMembers budget room (writeString k ++ ':' :: v.write ++ writeMembers es ++ rest) =
      .ok ((k, v) :: es, rest)

namespace ReadsBack

variable {v : Json}

theorem value_succ (ih : ReadsBack budget) (hcanonical : v.Canonical) (hintegral : v.Integral)
    (hdepth : v.depth ≤ room) (hlength : 2 * v.write.length ≤ budget + 1)
    (hends : Numeral.Ends rest) :
    readValue (budget + 1) room (v.write ++ rest) = .ok (v, rest) := by
  cases v with
  | null => rfl
  | bool b => cases b <;> rfl
  | string s => exact readValue_writeString
  | number n =>
      cases n with
      | int n => exact readValue_decimalText hintegral hends
      | float x => exact absurd hintegral id
  | array vs =>
      obtain ⟨room, rfl⟩ := Nat.exists_eq_add_of_le' (Nat.le_trans (Nat.le_add_left 1 _) hdepth)
      cases vs with
      | nil => rfl
      | cons v vs =>
          have helements : readElements budget room (v.write ++ writeElements vs ++ rest) =
              .ok (v :: vs, rest) := by
            refine ih.elements hcanonical hintegral (Nat.le_of_succ_le_succ hdepth) ?_
            simp only [write, List.length_cons, List.length_append, List.cons_append] at hlength ⊢
            omega
          obtain ⟨c, cs, hwrite, hc⟩ := exists_write_eq_cons hintegral.1
          rw [hwrite, List.cons_append, List.cons_append] at helements
          rw [write, hwrite, List.cons_append, List.cons_append, List.cons_append,
            List.cons_append, readValue_bracket hc, helements]
          rfl
  | object es =>
      obtain ⟨room, rfl⟩ := Nat.exists_eq_add_of_le' (Nat.le_trans (Nat.le_add_left 1 _) hdepth)
      cases es with
      | nil => rfl
      | cons e es =>
          obtain ⟨k, v⟩ := e
          have hmembers : readMembers budget room
              (writeString k ++ ':' :: v.write ++ writeMembers es ++ rest) =
                .ok ((k, v) :: es, rest) := by
            refine ih.members hcanonical.2 hintegral (Nat.le_of_succ_le_succ hdepth) ?_
            simp only [write, List.length_cons, List.length_append, List.cons_append] at hlength ⊢
            omega
          have hfields : ofFields ((k, v) :: es) = object ((k, v) :: es) :=
            congrArg object (Entries.ofList_of_sorted hcanonical.1)
          simp only [List.append_assoc, List.cons_append, writeString_append] at hmembers
          simp only [write, List.append_assoc, List.cons_append, writeString_append]
          rw [readValue_brace, hmembers, ← hfields]
          rfl

theorem elements_succ (ih : ReadsBack budget) {vs : List Json}
    (hcanonical : CanonicalElements (v :: vs)) (hintegral : IntegralElements (v :: vs))
    (hdepth : depthElements (v :: vs) ≤ room)
    (hlength : 2 * (v.write ++ writeElements vs).length ≤ budget + 1) :
    readElements (budget + 1) room (v.write ++ writeElements vs ++ rest) =
      .ok (v :: vs, rest) := by
  have hvalue : readValue budget room (v.write ++ (writeElements vs ++ rest)) =
      .ok (v, writeElements vs ++ rest) := by
    refine ih.value hcanonical.1 hintegral.1 (Nat.le_trans (Nat.le_max_left _ _) hdepth) ?_
      (ends_writeElements vs)
    have hpos := length_writeElements_pos vs
    rw [List.length_append] at hlength
    omega
  rw [List.append_assoc, readElements, hvalue]
  cases vs with
  | nil => rfl
  | cons w vs =>
      have hrest : readElements budget room (w.write ++ writeElements vs ++ rest) =
          .ok (w :: vs, rest) := by
        refine ih.elements hcanonical.2 hintegral.2
          (Nat.le_trans (Nat.le_max_right _ _) hdepth) ?_
        simp only [writeElements, List.length_cons, List.length_append, List.cons_append]
          at hlength ⊢
        omega
      rw [writeElements]
      simp only [bind, Except.bind, List.cons_append, skipBlanks_cons (c := ',') rfl, hrest]
      rfl

theorem members_succ (ih : ReadsBack budget) {k : String} {es : List (String × Json)}
    (hcanonical : CanonicalMembers ((k, v) :: es)) (hintegral : IntegralMembers ((k, v) :: es))
    (hdepth : depthMembers ((k, v) :: es) ≤ room)
    (hlength : 2 * (writeString k ++ ':' :: v.write ++ writeMembers es).length ≤ budget + 1) :
    readMembers (budget + 1) room (writeString k ++ ':' :: v.write ++ writeMembers es ++ rest) =
      .ok ((k, v) :: es, rest) := by
  simp only [List.length_append, List.length_cons] at hlength
  have hvalue : readValue budget room (v.write ++ (writeMembers es ++ rest)) =
      .ok (v, writeMembers es ++ rest) := by
    refine ih.value hcanonical.1 hintegral.1 (Nat.le_trans (Nat.le_max_left _ _) hdepth) ?_
      (ends_writeMembers es)
    omega
  rw [List.append_assoc, List.append_assoc, writeString_append, readMembers, skipBlanks_cons rfl]
  simp only [bind, Except.bind, readString_flatMap_escapeChar, List.cons_append,
    skipBlanks_cons (c := ':') rfl, hvalue]
  cases es with
  | nil => rfl
  | cons e es =>
      obtain ⟨k', w⟩ := e
      have hrest : readMembers budget room
          (writeString k' ++ ':' :: w.write ++ writeMembers es ++ rest) =
            .ok ((k', w) :: es, rest) := by
        refine ih.members hcanonical.2 hintegral.2
          (Nat.le_trans (Nat.le_max_right _ _) hdepth) ?_
        simp only [writeMembers, List.length_cons, List.length_append, List.cons_append]
          at hlength ⊢
        omega
      rw [writeMembers]
      simp only [List.cons_append, skipBlanks_cons (c := ',') rfl] at hrest ⊢
      simp only [hrest]
      rfl

end ReadsBack

theorem length_write_pos {v : Json} (h : v.Integral) : 0 < v.write.length := by
  obtain ⟨c, cs, hwrite, -⟩ := exists_write_eq_cons h
  rw [hwrite]
  exact Nat.succ_pos _

theorem readsBack (budget : Nat) : ReadsBack budget := by
  induction budget with
  | zero =>
      constructor
      · intro v _ _ _ hintegral _ hlength
        have := length_write_pos hintegral
        omega
      · intro v vs _ _ _ hintegral _ hlength
        have := length_write_pos hintegral.1
        rw [List.length_append] at hlength
        omega
      · intro k v es _ _ _ _ _ hlength
        simp only [List.length_append, List.length_cons] at hlength
        omega
  | succ budget ih => exact ⟨ih.value_succ, ih.elements_succ, ih.members_succ⟩

/-! ## Bodies and requests -/

theorem ofText_write {v : Json} (hcanonical : v.Canonical) (hintegral : v.Integral)
    (hdepth : v.depth ≤ depthLimit) : ofText v.write = .ok v := by
  have hread : readValue (2 * v.write.length + 1) depthLimit (v.write ++ []) = .ok (v, []) :=
    (readsBack _).value hcanonical hintegral hdepth (Nat.le_succ _) nofun
  rw [List.append_nil] at hread
  rw [ofText, hread]
  rfl

theorem isBlankByte_of_visible :
    ∀ n < 0x80, 0x20 < n → isBlankByte (UInt8.ofNat n) = false := by decide

theorem not_all_isBlankByte_toBody {v : Json} (h : v.Integral) :
    v.toBody.all isBlankByte = false := by
  obtain ⟨c, cs, hwrite, hc⟩ := exists_write_eq_cons h
  rw [toBody, toText, hwrite, bytesOf_ofList, List.flatMap_cons, utf8EncodeChar_ascii hc.ascii,
    List.singleton_append, List.all_cons, isBlankByte_of_visible _ hc.ascii hc.visible,
    Bool.false_and]

theorem ofBody_toBody {v : Json} (hcanonical : v.Canonical) (hintegral : v.Integral)
    (hdepth : v.depth ≤ depthLimit) : ofBody v.toBody = .ok (some v) := by
  rw [ofBody, not_all_isBlankByte_toBody hintegral, if_neg Bool.false_ne_true, toBody,
    textOf?_bytesOf]
  simp only [toText, String.toList_ofList, ofText_write hcanonical hintegral hdepth]

end Json

/-- The document that an input gives for the body of an operation. -/
inductive Input.Gives (input : Input) (op : Operation) : Json → Prop where
  | members {es : JsonObject} (hop : op.content = .members)
      (h : input.members = .ok (.object es)) : Gives input op (.object es)
  | payload {v : Json} (hop : op.content = .payload)
      (h : input.payload = .ok (some (.document v))) : Gives input op v

theorem RequestStyle.content_of_gives {s : RequestStyle} {op : Operation} {input : Input}
    {v : Json} (h : input.Gives op v) :
    s.content op input = .ok (some (v.toBody, s.contentType)) := by
  cases h with
  | members hop h =>
      simp only [content, hop, membersBody, h]
      rfl
  | payload hop h =>
      simp only [content, hop, h]
      rfl

/-- The body of a request that is made for a document is read as that document. -/
theorem Codec.documents_read_back {ε : Type} (c : Codec ε) (op : Operation) (input : Input)
    (v : Json) (rq : Request) (hgives : input.Gives op v) (hcanonical : v.Canonical)
    (hintegral : v.Integral) (hdepth : v.depth ≤ 127) (hrq : c.marshal op input = .ok rq) :
    ∃ bytes, rq.body = .full (some bytes) ∧ readDocument bytes = .ok (some v) ∧
      ∀ es, v = .object es → readObject bytes = .ok (some es) := by
  have hcontent : c.style.content op input = .ok (some (v.toBody, c.style.contentType)) :=
    RequestStyle.content_of_gives hgives
  have hdocument : readDocument v.toBody = .ok (some v) := by
    rw [readDocument, Json.ofBody_toBody hcanonical hintegral hdepth]
    rfl
  obtain ⟨-, target, headers, -, hmade⟩ := RequestStyle.marshal_eq_ok_iff.mp hrq
  rcases hmade with ⟨hnone, -⟩ | ⟨bytes, contentType, described, hsome, -, hfinish⟩
  · rw [hcontent] at hnone
    cases hnone
  · rw [hcontent] at hsome
    cases hsome
    obtain ⟨uri, -, rfl⟩ := RequestStyle.finish_eq_ok_iff.mp hfinish
    refine ⟨v.toBody, rfl, hdocument, ?_⟩
    rintro es rfl
    rw [readObject, hdocument]
    rfl

theorem Codec.documents_read_back_with_escapes :
    let es : JsonObject :=
      [("", .array [.number (.int 18446744073709551615), .number (.int (-9223372036854775808)),
          .array [], .number (.int (-1)), .number (.int 0)]),
        ("\"\\\x00\n", .object [("k", .null), ("ü\x7f", .string "\x1f/漢\x0c\"😀")]),
        ("😀", .bool false)]
    ∃ op rq bytes, (OperationDraft.ofSettings "/" [.payloadMembers true]).build = .ok op ∧
      (Codec.bare .awsJson).marshal op { members := .ok (.object es) } = .ok rq ∧
      rq.body = .full (some bytes) ∧ readObject bytes = .ok (some es) := by
  intro es
  obtain ⟨op, rq, hop, hrq, hcontent⟩ : ∃ op rq,
      (OperationDraft.ofSettings "/" [.payloadMembers true]).build = .ok op ∧
        (Codec.bare .awsJson).marshal op { members := .ok (.object es) } = .ok rq ∧
        op.content = .members :=
    ⟨_, _, rfl, rfl, rfl⟩
  have hcanonical : (Json.object es).Canonical := by
    simp only [es, Json.Canonical, Json.CanonicalElements, Json.CanonicalMembers, Entries.Sorted]
    decide
  have hintegral : (Json.object es).Integral := by
    simp only [es, Json.Integral, Json.IntegralElements, Json.IntegralMembers, Json.Is64Bit]
    decide
  obtain ⟨bytes, hbody, -, hobject⟩ := Codec.documents_read_back (Codec.bare .awsJson) op _ _ rq
    (.members hcontent rfl) hcanonical hintegral (by decide) hrq
  exact ⟨op, rq, bytes, hop, hrq, hbody, hobject es rfl⟩

end ServiceCodec
