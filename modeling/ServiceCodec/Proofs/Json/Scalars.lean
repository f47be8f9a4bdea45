import ServiceCodec.Json.Reader
import ServiceCodec.Json.Writer

/-!
# Strings and numbers are read back as they were written

A reader answers with what it leaves of the text, so "read back" is always said
with something behind: the written and then any `rest` are read as what was
written, and `rest` is left.

For a string that is a matter of single characters. `escapeChar` writes one, in
one of three forms, and each form is one way through `readText` whatever stands
behind it (`readText_of_shortEscape`, `readText_of_codeUnit`,
`readText_of_plain`). The second needs care, since behind an escaped code unit
the reader first looks for another one that would make a surrogate pair; but
none that is written is half of a pair.

A number has no end of its own. It is read back where `rest` does not continue
it (`Numeral.Ends`), and then it must be shown that the digits are those of one
number and not a zero with more behind it, and that the significand holds them
all: while digits are taken in, it is at most the number itself.
-/

namespace ServiceCodec

namespace Json

/-! ## Strings -/

variable (rest : List Char)

theorem readText_of_shortEscape {c x : Char} (h : shortEscape? c = some x) :
    readText ('\\' :: c :: rest) = (readText rest).map (prepend x) := by
  rw [readText.eq_def]
  split
  · next heq => cases heq
  · next heq => cases heq
  · next heq => cases heq; cases h
  · next heq => cases heq; cases h
  · next heq => cases heq; rw [h]
  · next hne heq => cases heq; exact absurd rfl (hne _ _ rfl)

theorem readText_of_codeUnit {a b c d : Char} {n : Nat} (h : codeUnit? a b c d = some n)
    (hlow : isLowSurrogate n = false) (hhigh : isHighSurrogate n = false) :
    readText ('\\' :: 'u' :: a :: b :: c :: d :: rest) =
      (readText rest).map (prepend (Char.ofNat n)) := by
  rw [readText.eq_def]
  split
  · next heq => cases heq
  · next heq => cases heq
  · next heq => cases heq; simp only [h, hlow, hhigh, if_neg Bool.false_ne_true]
  · next heq => cases heq; simp only [h, hlow, hhigh, Bool.or_false, if_neg Bool.false_ne_true]
  · next hne heq => cases heq; exact absurd rfl (hne _ _ _ _ _ rfl)
  · next hne heq => cases heq; exact absurd rfl (hne _ _ rfl)

theorem readText_of_plain {c : Char} (hquote : c ≠ '"') (hslash : c ≠ '\\')
    (hprintable : 0x20 ≤ c.toNat) : readText (c :: rest) = (readText rest).map (prepend c) := by
  rw [readText.eq_def]
  split
  · next heq => cases heq
  · next heq => cases heq; exact absurd rfl hquote
  · next heq => cases heq; exact absurd rfl hslash
  · next heq => cases heq; exact absurd rfl hslash
  · next heq => cases heq; exact absurd rfl hslash
  · next heq => cases heq; rw [if_neg (Nat.not_lt.mpr hprintable)]

theorem codeUnit?_control {n : Nat} (h : n < 0x20) :
    codeUnit? '0' '0' (lowerHexDigit (n / 16)) (lowerHexDigit (n % 16)) = some n := by
  rw [codeUnit?, hexValue?_lowerHexDigit _ (by omega), hexValue?_lowerHexDigit _ (by omega)]
  have hzero : hexValue? '0' = some 0 := rfl
  simp only [hzero, Option.bind_eq_bind, Option.bind_some, Option.pure_def, Option.some_inj]
  omega

theorem readText_escapeChar (c : Char) :
    readText (escapeChar c ++ rest) = (readText rest).map (prepend c) := by
  fun_cases escapeChar c with
  | case1 | case2 | case3 | case4 | case5 | case6 | case7 =>
      subst_vars
      exact readText_of_shortEscape rest rfl
  | case8 _ _ _ _ _ _ _ hcontrol =>
      have hunit := codeUnit?_control hcontrol
      have hlow : isLowSurrogate c.toNat = false := by
        rw [isLowSurrogate, Bool.and_eq_false_iff]
        exact .inl (decide_eq_false (by omega))
      have hhigh : isHighSurrogate c.toNat = false := by
        rw [isHighSurrogate, Bool.and_eq_false_iff]
        exact .inl (decide_eq_false (by omega))
      have hread := readText_of_codeUnit rest hunit hlow hhigh
      rw [Char.ofNat_toNat] at hread
      exact hread
  | case9 hquote hslash _ _ _ _ _ hcontrol =>
      exact readText_of_plain rest hquote hslash (Nat.not_lt.mp hcontrol)

theorem readText_flatMap_escapeChar (cs : List Char) :
    readText (cs.flatMap escapeChar ++ '"' :: rest) = .ok (cs, rest) := by
  induction cs with
  | nil =>
      rw [List.flatMap_nil, List.nil_append, readText]
  | cons c cs ih =>
      rw [List.flatMap_cons, List.append_assoc, readText_escapeChar, ih]
      rfl

theorem writeString_append (text : String) :
    writeString text ++ rest = '"' :: (text.toList.flatMap escapeChar ++ '"' :: rest) := by
  rw [writeString, List.cons_append, List.cons_append, List.append_assoc, List.singleton_append]

theorem readString_flatMap_escapeChar (text : String) :
    readString (text.toList.flatMap escapeChar ++ '"' :: rest) = .ok (text, rest) := by
  rw [readString, readText_flatMap_escapeChar]
  exact congrArg (fun t => Except.ok (t, rest)) String.ofList_toList

end Json

/-! ## Numbers -/

namespace Numeral

theorem isDigit_of_mem_toDigits {n : Nat} {c : Char} (h : c ∈ Nat.toDigits 10 n) :
    isDigit c = true := by
  exact Nat.isDigit_of_mem_toDigits (by decide) (by decide) h

theorem exists_toDigits_eq_cons (n : Nat) :
    ∃ d ds, Nat.toDigits 10 n = d :: ds ∧ isDigit d = true := by
  obtain ⟨d, ds, hds⟩ := List.exists_cons_of_ne_nil (Nat.toDigits_ne_nil (b := 10) (n := n))
  exact ⟨d, ds, hds, isDigit_of_mem_toDigits (n := n) (hds ▸ List.mem_cons_self)⟩

/-- A number in front of this does not go on in it. -/
def Ends (rest : List Char) : Prop :=
  ∀ c ∈ rest.head?, isDigit c = false ∧ c ≠ '.' ∧ c ≠ 'e' ∧ c ≠ 'E'

theorem spanDigits_append {ds rest : List Char} (hds : ∀ c ∈ ds, isDigit c = true)
    (hends : Ends rest) : spanDigits (ds ++ rest) = (ds, rest) := by
  have hrest : rest.takeWhile isDigit = [] ∧ rest.dropWhile isDigit = rest := by
    cases rest with
    | nil => exact ⟨rfl, rfl⟩
    | cons c rest =>
        have hc := (hends c rfl).1
        rw [List.takeWhile_cons_of_neg (by simp [hc]), List.dropWhile_cons_of_neg (by simp [hc])]
        exact ⟨rfl, rfl⟩
  rw [spanDigits, List.takeWhile_append_of_pos hds, List.dropWhile_append_of_pos hds, hrest.1,
    hrest.2, List.append_nil]

/-- Only zero is written with a zero in front. -/
theorem eq_zero_of_head?_toDigits {n : Nat} (h : (Nat.toDigits 10 n).head? = some '0') :
    n = 0 := by
  induction n using Nat.strongRecOn with
  | ind n ih =>
      rcases Nat.lt_or_ge n 10 with hlt | hge
      · rw [Nat.toDigits_of_lt_base hlt, List.head?_cons] at h
        exact Nat.digitChar_eq_zero.mp (Option.some.inj h)
      · rw [Nat.toDigits_of_base_le (by decide) hge, List.head?_append] at h
        rcases Option.or_eq_some_iff.mp h with h | ⟨h, -⟩
        · have := ih (n / 10) (by omega) h
          omega
        · exact absurd (List.head?_eq_none_iff.mp h) Nat.toDigits_ne_nil

theorem scanWhole_toDigits (n : Nat) {rest : List Char} (hends : Ends rest) :
    scanWhole (Nat.toDigits 10 n ++ rest) = .ok (Nat.toDigits 10 n, rest) := by
  have hspan := spanDigits_append (fun c => isDigit_of_mem_toDigits (n := n)) hends
  rw [scanWhole]
  split
  · next heq =>
      rw [hspan] at heq
      exact absurd (congrArg Prod.fst heq) Nat.toDigits_ne_nil
  · next heq =>
      rw [hspan] at heq
      exact absurd (congrArg Prod.fst heq) Nat.toDigits_ne_nil
  · next heq =>
      rw [hspan] at heq
      cases heq
      rw [if_neg]
      rintro ⟨hzero, hlong⟩
      rw [eq_zero_of_head?_toDigits hzero] at hlong
      exact hlong rfl

theorem scan_toDigits (neg : Bool) (n : Nat) {rest : List Char} (hends : Ends rest) :
    scan neg (Nat.toDigits 10 n ++ rest) = .ok (⟨neg, Nat.toDigits 10 n, none, none⟩, rest) := by
  have hfraction : scanFraction rest = .ok (none, rest) := by
    cases rest with
    | nil => rfl
    | cons c rest =>
        have hpoint := (hends c rfl).2.1
        rw [scanFraction]
        rintro s heq
        cases heq
        exact hpoint rfl
  have hpower : scanPower rest = .ok (none, rest) := by
    cases rest with
    | nil => rfl
    | cons c rest =>
        obtain ⟨-, -, hlower, hupper⟩ := hends c rfl
        rw [scanPower]
        · rintro s heq
          cases heq
          exact hlower rfl
        · rintro s heq
          cases heq
          exact hupper rfl
  rw [scan, scanWhole_toDigits n hends]
  simp only [bind, Except.bind, hfraction, hpower]
  rfl

theorem accumulate_append {limit n m : Nat} {xs : List Char} (ys : List Char)
    (h : accumulate limit n xs = (m, [])) :
    accumulate limit n (xs ++ ys) = accumulate limit m ys := by
  induction xs generalizing n with
  | nil =>
      rw [accumulate] at h
      cases h
      rfl
  | cons c xs ih =>
      rw [accumulate] at h
      rw [List.cons_append, accumulate]
      split at h
      · cases h
      · next hle => rw [if_neg hle, ih h]

theorem digitValue_digitChar {d : Nat} (h : d < 10) : digitValue d.digitChar = d := by
  rw [digitValue]
  exact Nat.toNat_digitChar_sub_48_of_lt_ten h

theorem accumulate_toDigits {limit n : Nat} (h : n ≤ limit) :
    accumulate limit 0 (Nat.toDigits 10 n) = (n, []) := by
  have hstep : ∀ m d, d < 10 → m * 10 + d ≤ limit →
      accumulate limit m [d.digitChar] = (m * 10 + d, []) := by
    intro m d hd hle
    rw [accumulate, digitValue_digitChar hd, if_neg (Nat.not_lt.mpr hle), accumulate]
  induction n using Nat.strongRecOn with
  | ind n ih =>
      rcases Nat.lt_or_ge n 10 with hlt | hge
      · rw [Nat.toDigits_of_lt_base hlt, hstep 0 n hlt (by omega), Nat.zero_mul, Nat.zero_add]
      · rw [Nat.toDigits_of_base_le (by decide) hge,
          accumulate_append _ (ih (n / 10) (by omega) (by omega)),
          hstep _ _ (Nat.mod_lt n (by decide)) (by omega)]
        rw [Nat.div_add_mod']

end Numeral

namespace Json

variable {n : Nat} {rest : List Char}

theorem readNumber_toDigits (h : n ≤ Numeral.significandLimit) (hends : Numeral.Ends rest) :
    readNumber false (Nat.toDigits 10 n ++ rest) = .ok (number (.int n), rest) := by
  have hvalue : Numeral.value ⟨false, Nat.toDigits 10 n, none, none⟩ = .ok (.int n) := by
    rw [Numeral.value]
    simp only [Numeral.accumulate_toDigits h]
    rfl
  rw [readNumber, Numeral.scan_toDigits false n hends]
  simp only [bind, Except.bind, hvalue]
  rfl

theorem readNumber_toDigits_neg (hpos : n ≠ 0) (h : n ≤ 9223372036854775808)
    (hends : Numeral.Ends rest) :
    readNumber true (Nat.toDigits 10 n ++ rest) = .ok (number (.int (-n)), rest) := by
  have hlimit : n ≤ Numeral.significandLimit := Nat.le_trans h (by decide)
  have hvalue : Numeral.value ⟨true, Nat.toDigits 10 n, none, none⟩ = .ok (.int (-n)) := by
    rw [Numeral.value]
    simp only [Numeral.accumulate_toDigits hlimit]
    rw [if_neg (by decide), if_neg (by omega)]
  rw [readNumber, Numeral.scan_toDigits true n hends]
  simp only [bind, Except.bind, hvalue]
  rfl

end Json

end ServiceCodec
