import ServiceCodec.Proofs.Text.Percent

/-!
# The rule for texts in a URI

The rule for writing a text into a URI says nothing about forms. It goes through
the bytes of the text in UTF-8: an unreserved character stands for itself, and
every other byte is a percent sign and two hexadecimal digits, in upper case.
`Stands` says so of one byte, with the characters and the digits written out, and
`Written` of all of them in a row.

The rule leaves no choice, neither for one byte (`stands_iff`) nor for many
(`written_iff`), and what it asks for is what the encoder makes, by way of a form
and three corrections (`encode_follows_rule`). As the rule is about single bytes,
a text is encoded in parts like as a whole; and as no byte is written like another
one, the text can be read back.
-/

namespace ServiceCodec.Percent

/-- The characters that stand for themselves anywhere in a URI. -/
def unreserved : List Char :=
  "ABCDEFGHIJKLMNOPQRSTUVWXYZabcdefghijklmnopqrstuvwxyz0123456789-._~".toList

/-- The hexadecimal digits, from zero to fifteen. -/
def upperDigits : List Char := "0123456789ABCDEF".toList

/-- What a byte is written as. -/
inductive Stands (b : UInt8) : List Char → Prop where
  | bare {c : Char} (h : c ∈ unreserved) (hb : c.toNat = b.toNat) : Stands b [c]
  | escaped {high low : Char} (h : ∀ c ∈ unreserved, c.toNat ≠ b.toNat)
      (hhigh : upperDigits[b.toNat / 16]? = some high)
      (hlow : upperDigits[b.toNat % 16]? = some low) : Stands b ['%', high, low]

/-- What bytes are written as, one behind the other. -/
inductive Written : Bytes → List Char → Prop where
  | nil : Written [] []
  | cons {b : UInt8} {bytes : Bytes} {xs ys : List Char} (h : Stands b xs)
      (hrest : Written bytes ys) : Written (b :: bytes) (xs ++ ys)

theorem isUnreserved_eq : ∀ b : UInt8,
    isUnreserved b = unreserved.any fun c => c.toNat = b.toNat :=
  forall_byte (by decide +kernel)

theorem isUnreserved_iff {b : UInt8} :
    isUnreserved b = true ↔ ∃ c ∈ unreserved, c.toNat = b.toNat := by
  rw [isUnreserved_eq, List.any_eq_true]
  simp only [decide_eq_true_eq]

theorem upperDigits_getElem? : ∀ n < 16, upperDigits[n]? = some (hexDigit n) := by decide

theorem upperDigits_high (b : UInt8) :
    upperDigits[b.toNat / 16]? = some (hexDigit (b.toNat / 16)) :=
  upperDigits_getElem? _ (by have := b.toNat_lt; omega)

theorem upperDigits_low (b : UInt8) :
    upperDigits[b.toNat % 16]? = some (hexDigit (b.toNat % 16)) :=
  upperDigits_getElem? _ (by omega)

theorem stands_iff {b : UInt8} {cs : List Char} : Stands b cs ↔ cs = spell b := by
  rw [spell]
  constructor
  · intro h
    cases h with
    | bare h hb => rw [if_pos (isUnreserved_iff.mpr ⟨_, h, hb⟩), ← hb, Char.ofNat_toNat]
    | escaped h hhigh hlow =>
        have hother : ¬ isUnreserved b = true := by
          intro hbare
          obtain ⟨c, hc, hb⟩ := isUnreserved_iff.mp hbare
          exact h c hc hb
        obtain rfl := Option.some_inj.mp ((upperDigits_high b).symm.trans hhigh)
        obtain rfl := Option.some_inj.mp ((upperDigits_low b).symm.trans hlow)
        rw [if_neg hother, escape]
  · rintro rfl
    split
    · next hbare =>
        obtain ⟨c, hc, hb⟩ := isUnreserved_iff.mp hbare
        rw [← hb, Char.ofNat_toNat]
        exact .bare hc hb
    · next hother =>
        refine .escaped (fun c hc hb => hother ?_) (upperDigits_high b) (upperDigits_low b)
        exact isUnreserved_iff.mpr ⟨c, hc, hb⟩

theorem written_iff {bytes : Bytes} {cs : List Char} :
    Written bytes cs ↔ cs = bytes.flatMap spell := by
  constructor
  · intro h
    induction h with
    | nil => rfl
    | cons h _ ih => rw [stands_iff.mp h, ih, List.flatMap_cons]
  · rintro rfl
    induction bytes with
    | nil => exact .nil
    | cons b bytes ih => exact .cons (stands_iff.mpr rfl) ih

theorem encode_append (value value' : String) :
    encode (value ++ value') = encode value ++ encode value' := by
  apply String.toList_inj.mp
  rw [String.toList_append, toList_encode, toList_encode, toList_encode, bytesOf_append,
    List.flatMap_append]

/-- A text is encoded as the rule says, in parts like as a whole, and can be read back. -/
theorem encode_follows_rule (value value' : String) :
    (∀ text : String, encode value = text ↔ Written (bytesOf value) text.toList) ∧
      encode (value ++ value') = encode value ++ encode value' ∧
      decodeText (encode value).toList = some value := by
  refine ⟨fun text => ?_, encode_append value value', decodeText_encode value⟩
  rw [written_iff, ← toList_encode, String.toList_inj, eq_comm]

/-- What looks like an escape, or like a form, is a text like any other. -/
example : encode "%7E+*~%20 é" = "%257E%2B%2A~%2520%20%C3%A9" := by decide +kernel

end ServiceCodec.Percent
