import ServiceCodec.Proofs.Text.Ascii
import ServiceCodec.Proofs.Text.Split
import ServiceCodec.Text.Percent

/-!
# Percent-encoding, byte by byte

The encoder writes an HTML form and then puts three characters right in the
text that came out. `toList_encode` says that this is an encoder of single
bytes after all: every unreserved byte stands for itself and every other one is
spelled `%XX`. The argument never looks at the intermediate text as a whole.
Each byte leaves one token in it, a bare character or an escape, and replacing
characters works token by token; only the last replacement reads three
characters at once, and it can find `%7E` nowhere but in the token of a tilde,
since no token has a percent sign behind its first character.

From the spelling of single bytes follows the rest: what characters an encoded
text has, that encoding takes texts apart and together, and that `decode` reads
back what was encoded, whatever follows it.
-/

namespace ServiceCodec.Percent

/-- Letters, digits, `-`, `.`, `_` and `~`. -/
def isUnreserved (b : UInt8) : Bool :=
  (0x30 ≤ b && b ≤ 0x39) || (0x41 ≤ b && b ≤ 0x5a) || (0x61 ≤ b && b ≤ 0x7a) ||
    b = 0x2d || b = 0x2e || b = 0x5f || b = 0x7e

/-- How a byte stands in a URI: as itself, or escaped. -/
def spell (b : UInt8) : List Char :=
  if isUnreserved b then [Char.ofNat b.toNat] else escape b

/-! ## From the form to the spelling -/

/-- What the form has for a byte, once `+` and `*` are put right. -/
def token (b : UInt8) : List Char :=
  replaceChar '*' ['%', '2', 'A'] (replaceChar '+' ['%', '2', '0'] (formByte b))

theorem forall_byte {p : UInt8 → Prop} (h : ∀ n < 256, p (UInt8.ofNat n)) (b : UInt8) : p b := by
  have hb := h b.toNat b.toNat_lt
  rwa [UInt8.ofNat_toNat] at hb

theorem token_eq : ∀ b, token b = if b = 0x7e then ['%', '7', 'E'] else spell b :=
  forall_byte (by decide +kernel)

theorem replaceChar_flatMap (c : Char) (spelling : List Char) (f : UInt8 → List Char)
    (bytes : Bytes) :
    replaceChar c spelling (bytes.flatMap f) =
      bytes.flatMap fun b => replaceChar c spelling (f b) := List.flatMap_assoc

theorem restoreTilde_cons {c : Char} (h : c ≠ '%') (rest : List Char) :
    restoreTilde (c :: rest) = c :: restoreTilde rest := by
  rw [restoreTilde]
  rintro rest' rfl
  exact absurd rfl h

theorem restoreTilde_escape {x y : Char} (hx : x ≠ '%') (hy : y ≠ '%')
    (h : ¬ (x = '7' ∧ y = 'E')) (rest : List Char) :
    restoreTilde ('%' :: x :: y :: rest) = '%' :: x :: y :: restoreTilde rest := by
  rw [restoreTilde, restoreTilde_cons hx, restoreTilde_cons hy]
  rintro rest' - heq
  cases heq
  exact h ⟨rfl, rfl⟩

theorem hexDigit_ne_percent : ∀ n < 16, hexDigit n ≠ '%' := by decide

theorem bare_ne_percent : ∀ b, isUnreserved b = true → Char.ofNat b.toNat ≠ '%' :=
  forall_byte (by decide +kernel)

theorem eq_tilde_of_escape : ∀ b, escape b = ['%', '7', 'E'] → b = 0x7e :=
  forall_byte (by decide +kernel)

theorem restoreTilde_token (b : UInt8) (rest : List Char) :
    restoreTilde (token b ++ rest) = spell b ++ restoreTilde rest := by
  rw [token_eq]
  by_cases htilde : b = 0x7e
  · subst htilde
    rfl
  · rw [if_neg htilde, spell]
    cases hbare : isUnreserved b with
    | true => exact restoreTilde_cons (bare_ne_percent b hbare) rest
    | false =>
        have hhi := hexDigit_ne_percent (b.toNat / 16) (by have := b.toNat_lt; omega)
        have hlo := hexDigit_ne_percent (b.toNat % 16) (by omega)
        refine restoreTilde_escape hhi hlo (fun h => htilde (eq_tilde_of_escape b ?_)) rest
        rw [escape, h.1, h.2]

theorem restoreTilde_tokens (bytes : Bytes) :
    restoreTilde (bytes.flatMap token) = bytes.flatMap spell := by
  induction bytes with
  | nil => rfl
  | cons b bytes ih =>
      rw [List.flatMap_cons, List.flatMap_cons, restoreTilde_token, ih]

theorem toList_encode (value : String) :
    (encode value).toList = (bytesOf value).flatMap spell := by
  rw [encode, String.toList_ofList, formEncode, replaceChar_flatMap, replaceChar_flatMap]
  exact restoreTilde_tokens (bytesOf value)

/-! ## Encoding by segments

Slashes that are kept are bytes that are spelled otherwise: encoding segment by
segment is an encoder of single bytes too. -/

/-- How a byte stands in a path that keeps its slashes. -/
def spellKept (b : UInt8) : List Char := if b = 0x2f then ['/'] else spell b

theorem spellKept_of_slashless {cs : List Char} (h : '/' ∉ cs) :
    (cs.flatMap String.utf8EncodeChar).flatMap spellKept =
      (cs.flatMap String.utf8EncodeChar).flatMap spell := by
  refine List.flatMap_congr fun b hb => if_neg ?_
  rintro rfl
  obtain ⟨c, hc, hmem⟩ := List.mem_flatMap.mp hb
  obtain rfl : c = '/' := Char.toNat_inj.mp (toNat_of_mem_utf8EncodeChar hmem (by decide))
  exact h hc

theorem toList_encodeSegments (value : String) :
    (encodeSegments value).toList = (bytesOf value).flatMap spellKept := by
  have hpart : ∀ part ∈ value.toList.splitOn '/',
      (encode (String.ofList part)).toList =
        (part.flatMap String.utf8EncodeChar).flatMap spellKept := by
    intro part hmem
    rw [toList_encode, bytesOf_ofList, spellKept_of_slashless (notMem_of_mem_splitOn hmem)]
  have hbytes : bytesOf value = (['/'].intercalate (value.toList.splitOn '/')).flatMap
      String.utf8EncodeChar := by
    rw [List.intercalate_splitOn, ← bytesOf_ofList, String.ofList_toList]
  rw [encodeSegments, String.toList_intercalate, segments, hbytes, List.flatMap_assoc,
    flatMap_intercalate rfl]
  congr 1
  rw [List.map_map, List.map_map]
  exact List.map_congr_left fun part hmem => (hpart part hmem).trans List.flatMap_assoc

theorem toList_encodeSegments_eq_intercalate (value : String) :
    (encodeSegments value).toList = ['/'].intercalate
      ((value.toList.splitOn '/').map fun segment => (encode (String.ofList segment)).toList) := by
  simp [encodeSegments, segments, String.toList_intercalate, Function.comp_def]

/-! ## The characters of an encoded text -/

/-- The characters that an encoded text is made of. -/
def isEncodedChar (c : Char) : Bool :=
  c.isAlphanum || c = '-' || c = '.' || c = '_' || c = '~' || c = '%'

theorem isEncodedChar_spell : ∀ b, (spell b).all isEncodedChar = true :=
  forall_byte (by decide +kernel)

theorem spell_ne_nil (b : UInt8) : spell b ≠ [] := by
  rw [spell]
  split
  · exact List.cons_ne_nil _ _
  · exact List.cons_ne_nil _ _

theorem isEncodedChar_of_mem {value : String} {c : Char} (h : c ∈ (encode value).toList) :
    isEncodedChar c = true := by
  rw [toList_encode] at h
  obtain ⟨b, _, hb⟩ := List.mem_flatMap.mp h
  exact List.all_eq_true.mp (isEncodedChar_spell b) c hb

theorem notMem_encode {value : String} {c : Char} (h : isEncodedChar c = false) :
    c ∉ (encode value).toList := by
  intro hmem
  rw [isEncodedChar_of_mem hmem] at h
  cases h

theorem eq_slash_or_isEncodedChar_of_mem {value : String} {c : Char}
    (h : c ∈ (encodeSegments value).toList) : c = '/' ∨ isEncodedChar c = true := by
  rw [toList_encodeSegments] at h
  obtain ⟨b, _, hb⟩ := List.mem_flatMap.mp h
  rw [spellKept] at hb
  split at hb
  · exact .inl (List.mem_singleton.mp hb)
  · exact .inr (List.all_eq_true.mp (isEncodedChar_spell b) c hb)

theorem bytesOf_inj {value value' : String} : bytesOf value = bytesOf value' ↔ value = value' := by
  refine ⟨fun h => ?_, congrArg bytesOf⟩
  have htext := textOf?_bytesOf value
  rw [h, textOf?_bytesOf] at htext
  exact (Option.some.inj htext).symm

theorem bytesOf_ne_nil {value : String} (h : value ≠ "") : bytesOf value ≠ [] :=
  fun hnil => h (bytesOf_inj.mp (hnil.trans rfl))

theorem encode_ne_nil {value : String} (h : value ≠ "") : (encode value).toList ≠ [] := by
  rw [toList_encode]
  intro hnil
  obtain ⟨b, hb⟩ := List.exists_mem_of_ne_nil _ (bytesOf_ne_nil h)
  exact spell_ne_nil b (List.flatMap_eq_nil_iff.mp hnil b hb)

theorem encodeSegments_ne_nil {value : String} (h : value ≠ "") :
    (encodeSegments value).toList ≠ [] := by
  rw [toList_encodeSegments]
  intro hnil
  obtain ⟨b, hb⟩ := List.exists_mem_of_ne_nil _ (bytesOf_ne_nil h)
  have hspell := List.flatMap_eq_nil_iff.mp hnil b hb
  rw [spellKept] at hspell
  split at hspell
  · cases hspell
  · exact spell_ne_nil b hspell

/-! ## Decoding -/

/-- The byte that two hexadecimal digits write. -/
def hexByte? (x y : Char) : Option UInt8 := do
  return UInt8.ofNat ((← hexValue? x) * 16 + (← hexValue? y))

/-- The bytes that a text spells; none if a percent sign has no digits behind it. -/
def decode : List Char → Option Bytes
  | [] => some []
  | '%' :: x :: y :: rest => do return (← hexByte? x y) :: (← decode rest)
  | c :: rest => if c = '%' then none else do return String.utf8EncodeChar c ++ (← decode rest)

/-- The text whose encoding it is. -/
def decodeText (cs : List Char) : Option String := (decode cs).bind textOf?

theorem decode_cons {c : Char} (h : c ≠ '%') (rest : List Char) :
    decode (c :: rest) = (decode rest).map (String.utf8EncodeChar c ++ ·) := by
  rw [decode, if_neg h]
  · cases decode rest <;> rfl
  · rintro x y rest' rfl
    exact absurd rfl h

theorem decode_escape (x y : Char) (rest : List Char) :
    decode ('%' :: x :: y :: rest) = (hexByte? x y).bind fun b => (decode rest).map (b :: ·) := by
  rw [decode]
  cases hexByte? x y <;> cases decode rest <;> rfl

theorem hexByte?_escape (b : UInt8) :
    hexByte? (hexDigit (b.toNat / 16)) (hexDigit (b.toNat % 16)) = some b := by
  have hlt := b.toNat_lt
  rw [hexByte?, hexValue?_hexDigit _ (by omega), hexValue?_hexDigit _ (by omega)]
  show some (UInt8.ofNat (b.toNat / 16 * 16 + b.toNat % 16)) = some b
  rw [Nat.div_add_mod', UInt8.ofNat_toNat]

theorem utf8EncodeChar_bare : ∀ b, isUnreserved b = true →
    String.utf8EncodeChar (Char.ofNat b.toNat) = [b] :=
  forall_byte (by decide +kernel)

theorem decode_spell (b : UInt8) (rest : List Char) :
    decode (spell b ++ rest) = (decode rest).map (b :: ·) := by
  rw [spell]
  cases hbare : isUnreserved b with
  | true =>
      have hdecode := decode_cons (bare_ne_percent b hbare) rest
      rw [utf8EncodeChar_bare b hbare] at hdecode
      exact hdecode
  | false =>
      have hdecode := decode_escape (hexDigit (b.toNat / 16)) (hexDigit (b.toNat % 16)) rest
      rw [hexByte?_escape] at hdecode
      exact hdecode

theorem decode_spelled (bytes : Bytes) (rest : List Char) :
    decode (bytes.flatMap spell ++ rest) = (decode rest).map (bytes ++ ·) := by
  induction bytes with
  | nil => cases h : decode rest <;> simp [h]
  | cons b bytes ih =>
      rw [List.flatMap_cons, List.append_assoc, decode_spell, ih]
      cases decode rest <;> rfl

theorem decode_encode (value : String) : decode (encode value).toList = some (bytesOf value) := by
  have h := decode_spelled (bytesOf value) []
  rw [List.append_nil, ← toList_encode] at h
  rw [h, decode, Option.map_some, List.append_nil]

theorem decodeText_encode (value : String) : decodeText (encode value).toList = some value := by
  rw [decodeText, decode_encode]
  exact textOf?_bytesOf value

/-- A character that is no digit and no percent sign stands for itself wherever it
stands, so decoding goes through it. -/
theorem decode_append_cons {xs ys : List Char} {c : Char} {bytes : Bytes} (hc : c ≠ '%')
    (hhex : hexValue? c = none) (h : decode (xs ++ c :: ys) = some bytes) :
    ∃ before after, decode ys = some after ∧
      bytes = before ++ String.utf8EncodeChar c ++ after := by
  fun_induction decode xs generalizing bytes with
  | case1 =>
      rw [List.nil_append, decode_cons hc] at h
      obtain ⟨after, hafter, rfl⟩ := Option.map_eq_some_iff.mp h
      exact ⟨[], after, hafter, rfl⟩
  | case2 x y rest ih =>
      rw [List.cons_append, List.cons_append, List.cons_append, decode_escape] at h
      obtain ⟨b, _, hrest⟩ := Option.bind_eq_some_iff.mp h
      obtain ⟨tail, htail, rfl⟩ := Option.map_eq_some_iff.mp hrest
      obtain ⟨before, after, hafter, rfl⟩ := ih htail
      exact ⟨b :: before, after, hafter, rfl⟩
  | case3 rest hshort =>
      -- An escape that is cut short would need the character for a digit.
      match rest, hshort with
      | [], _ =>
          cases ys with
          | nil => cases h
          | cons y ys =>
              have hnone : hexByte? c y = none := by rw [hexByte?, hhex]; rfl
              rw [List.cons_append, List.nil_append, decode_escape, hnone] at h
              cases h
      | [x], _ =>
          have hnone : hexByte? x c = none := by
            rw [hexByte?, hhex]
            cases hexValue? x <;> rfl
          rw [List.cons_append, List.cons_append, List.nil_append, decode_escape, hnone] at h
          cases h
      | x :: y :: rest, hshort => exact absurd rfl (hshort x y rest rfl)
  | case4 d rest hd hne ih =>
      rw [List.cons_append, decode_cons hne] at h
      obtain ⟨tail, htail, rfl⟩ := Option.map_eq_some_iff.mp h
      obtain ⟨before, after, hafter, rfl⟩ := ih htail
      exact ⟨String.utf8EncodeChar d ++ before, after, hafter, by simp⟩

theorem bytesOf_of_textOf? {bytes : Bytes} {text : String} (h : textOf? bytes = some text) :
    bytesOf text = bytes := by
  rw [textOf?, String.fromUTF8?] at h
  split at h
  · obtain rfl := Option.some_inj.mp h
    rfl
  · cases h

/-- What stands before an encoded text, up to such a character, is not lost on it. -/
theorem decodeText_append_cons_encode_ne {xs : List Char} {c : Char} (hc : c ≠ '%')
    (hhex : hexValue? c = none) (value : String) :
    decodeText (xs ++ c :: (encode value).toList) ≠ some value := by
  intro h
  obtain ⟨bytes, hbytes, htext⟩ := Option.bind_eq_some_iff.mp h
  obtain ⟨before, after, hafter, rfl⟩ := decode_append_cons hc hhex hbytes
  obtain rfl := Option.some_inj.mp ((decode_encode value).symm.trans hafter)
  have hlength := congrArg List.length (bytesOf_of_textOf? htext)
  have hpos := c.utf8Size_pos
  rw [List.length_append, List.length_append, String.length_utf8EncodeChar] at hlength
  omega

/-! ## Telling texts apart

Of a text that begins with a spelled byte the byte can be read off, whatever
stands behind it, an escape that is cut short included; `decode` would give up
on that. So where two spelled texts have a common front they spell common bytes. -/

/-- The byte whose spelling a text begins with, and what stands behind it. -/
def readByte? : List Char → Option (UInt8 × List Char)
  | [] => none
  | '%' :: x :: y :: rest => (hexByte? x y).map (·, rest)
  | c :: rest => some (UInt8.ofNat c.toNat, rest)

theorem readByte?_cons {c : Char} (h : c ≠ '%') (rest : List Char) :
    readByte? (c :: rest) = some (UInt8.ofNat c.toNat, rest) := by
  rw [readByte?]
  intro x y rest' heq
  exact absurd heq h

theorem ofNat_toNat_bare : ∀ b, isUnreserved b = true →
    UInt8.ofNat (Char.ofNat b.toNat).toNat = b :=
  forall_byte (by decide +kernel)

theorem readByte?_spell (b : UInt8) (rest : List Char) :
    readByte? (spell b ++ rest) = some (b, rest) := by
  rw [spell]
  cases hbare : isUnreserved b with
  | true =>
      have hread := readByte?_cons (bare_ne_percent b hbare) rest
      rw [ofNat_toNat_bare b hbare] at hread
      exact hread
  | false =>
      show (hexByte? (hexDigit (b.toNat / 16)) (hexDigit (b.toNat % 16))).map (·, rest) = _
      rw [hexByte?_escape]
      rfl

theorem readByte?_spellKept (b : UInt8) (rest : List Char) :
    readByte? (spellKept b ++ rest) = some (b, rest) := by
  rw [spellKept]
  split
  · next hslash => subst hslash; rfl
  · exact readByte?_spell b rest

/-- How bytes stand in the place of a label. -/
def spelling (keepsSlashes : Bool) : UInt8 → List Char :=
  if keepsSlashes then spellKept else spell

theorem readByte?_spelling (keepsSlashes : Bool) (b : UInt8) (rest : List Char) :
    readByte? (spelling keepsSlashes b ++ rest) = some (b, rest) := by
  cases keepsSlashes with
  | true => exact readByte?_spellKept b rest
  | false => exact readByte?_spell b rest

theorem spelling_ne_nil (keepsSlashes : Bool) (b : UInt8) : spelling keepsSlashes b ≠ [] := by
  intro hnil
  have hread := readByte?_spelling keepsSlashes b []
  rw [hnil] at hread
  cases hread

theorem prefix_or_prefix_of_spelled {keepsSlashes : Bool} {bytes bytes' : Bytes}
    {xs ys : List Char}
    (h : bytes.flatMap (spelling keepsSlashes) ++ xs =
      bytes'.flatMap (spelling keepsSlashes) ++ ys) :
    bytes <+: bytes' ∨ bytes' <+: bytes := by
  induction bytes generalizing bytes' with
  | nil => exact .inl List.nil_prefix
  | cons b bytes ih =>
      cases bytes' with
      | nil => exact .inr List.nil_prefix
      | cons b' bytes' =>
          simp only [List.flatMap_cons, List.append_assoc] at h
          have hread := congrArg readByte? h
          rw [readByte?_spelling, readByte?_spelling] at hread
          obtain ⟨rfl, hrest⟩ := Prod.mk.inj (Option.some.inj hread)
          simpa only [List.prefix_cons_inj] using ih hrest

/-- No byte is spelled by nothing, so a longer text has a longer spelling. -/
theorem eq_of_length_spelled {keepsSlashes : Bool} {bytes bytes' : Bytes}
    (hfront : bytes <+: bytes')
    (h : (bytes'.flatMap (spelling keepsSlashes)).length ≤
      (bytes.flatMap (spelling keepsSlashes)).length) : bytes = bytes' := by
  obtain ⟨more, rfl⟩ := hfront
  rw [List.flatMap_append, List.length_append] at h
  cases more with
  | nil => rw [List.append_nil]
  | cons b more =>
      have hpos := List.length_pos_iff.mpr (spelling_ne_nil keepsSlashes b)
      rw [List.flatMap_cons, List.length_append] at h
      omega

end ServiceCodec.Percent
