import ServiceCodec.Proofs.Binary.Rounding
import ServiceCodec.Timestamp

/-!
# Reading an instant back

An instant is written as its milliseconds divided by a thousand, and read as
the product with a thousand, taken to the nearest whole number. Three numbers
are rounded on the way: the quotient, the product, and the product again.

Below `2 ^ 42` seconds the quotient is off by less than a quarter of a
millisecond and nothing is lost. From there on the seconds lie `2 ^ (-10)`
apart, and the quotient may be off by almost half a millisecond. The product
still lies on a grid of half milliseconds as long as it is below `2 ^ 52`, and
an error of more than a quarter upwards reaches the half that is then rounded
away from zero: such an instant comes back a millisecond later, or earlier
before the epoch. Above `2 ^ 52` the products are whole and the error is lost
again.
-/

namespace ServiceCodec.Timestamp

open Binary

/-- So many milliseconds, counted from the epoch in either direction, are read
back as one more: the seconds are rounded up, as the residue is past the half of
125, and what they gain, 125 less the residue in parts of 128, is more than a
quarter of a millisecond. -/
def Drifts (n : ℕ) : Prop :=
  4398046511104000 ≤ n ∧ n < 4503599627370496 ∧ 63 ≤ 3 * n % 125 ∧ 3 * n % 125 ≤ 92

instance (n : ℕ) : Decidable (Drifts n) := inferInstanceAs (Decidable (_ ∧ _))

/-- The last millisecond of the last second, unless that is a leap second. -/
def maxMillis : ℤ := maxSeconds * 1000 + 999

def readBack (ms : ℤ) : ℤ := if Drifts ms.natAbs then ms + ms.sign else ms

theorem thousand_is : thousand.Is false 1000 := by
  have h := ofInt_is (n := 1000) (by decide)
  rw [thousand]
  simpa using h

/-- Multiplied by a thousand and rounded to a whole number, the seconds are `n`. -/
def RoundsTo (seconds : Binary binary64) (neg : Bool) (n : ℕ) : Prop :=
  ∃ p, (seconds.mul thousand).Is neg p ∧ ⌊p + 1 / 2⌋₊ = n

section Product

variable {seconds : Binary binary64} {neg : Bool} {x : ℚ} {k : ℕ}

theorem exists_mul_thousand (h : seconds.Is neg x) :
    ∃ num den : ℕ, 0 < den ∧ (num : ℚ) / den = x * 1000 ∧
      seconds.mul thousand = round binary64 neg num den := by
  obtain ⟨num, den, hden, hquotient, hmul⟩ := h.mul thousand_is
  rw [Bool.bne_false] at hmul
  exact ⟨num, den, hden, hquotient, hmul⟩

theorem roundsTo_of_near {n : ℕ} (h : seconds.Is neg x) (hnear : |n / 1000 - x| ≤ 1 / 4096)
    (hn : (n : ℚ) / 1000 < 2 ^ 42) : RoundsTo seconds neg n := by
  obtain ⟨hlow, hhigh⟩ := abs_le.mp hnear
  obtain ⟨num, den, hden, hquotient, hmul⟩ := exists_mul_thousand h
  have hbound : (num : ℚ) / den < 2 ^ (52 : ℤ) := by
    rw [hquotient]
    norm_num at hn ⊢
    linarith
  obtain ⟨p, hp, hpnear⟩ :=
    exists_round_of_lt binary64_proper neg hden hbound (by decide) (by decide)
  have herror : (2 : ℚ) ^ ((52 : ℤ) - binary64.precision - 1) = 1 / 4 := by norm_num [binary64]
  rw [hquotient, herror] at hpnear
  obtain ⟨hplow, hphigh⟩ := abs_le.mp hpnear
  refine ⟨p, hmul ▸ hp, ?_⟩
  rw [Nat.floor_eq_iff (by linarith [hp.nonneg])]
  constructor
  · linarith
  · linarith

/-- From `2 ^ 42` on, seconds are a whole number of units of `2 ^ (-10)`. -/
theorem exists_mul_thousand_of_units (h : seconds.Is neg (k * 2 ^ (-10 : ℤ))) :
    ∃ num den : ℕ, 0 < den ∧ (num : ℚ) / den = (125 * k : ℕ) / 128 ∧
      seconds.mul thousand = round binary64 neg num den := by
  obtain ⟨num, den, hden, hquotient, hmul⟩ := exists_mul_thousand h
  refine ⟨num, den, hden, ?_, hmul⟩
  rw [hquotient]
  push_cast
  ring

theorem roundsTo_of_halves (h : seconds.Is neg (k * 2 ^ (-10 : ℤ)))
    (hlow : 2 ^ 51 * 128 ≤ 125 * k) (hhigh : 125 * k < 2 ^ 52 * 128) :
    ∃ m, NearestEven ((125 * k : ℕ) / (64 : ℕ)) m ∧ RoundsTo seconds neg ((m + 1) / 2) := by
  obtain ⟨num, den, hden, hvalue, hmul⟩ := exists_mul_thousand_of_units h
  have hlowQ : (2 ^ 51 * 128 : ℚ) ≤ (125 * k : ℕ) := by exact_mod_cast hlow
  have hhighQ : ((125 * k : ℕ) : ℚ) < 2 ^ 52 * 128 := by exact_mod_cast hhigh
  obtain ⟨m, hm, hp⟩ := exists_round_of_binade binary64_proper neg (e := 51) (q := -1) hden
    (by rw [hvalue, le_div_iff₀ (by norm_num)]; exact hlowQ)
    (by rw [hvalue, div_lt_iff₀ (by norm_num)]; exact hhighQ) (by decide) (by decide) (by decide)
  have hscaled : (num : ℚ) / den / 2 ^ (-1 : ℤ) = (125 * k : ℕ) / (64 : ℕ) := by
    rw [hvalue]
    push_cast
    ring
  refine ⟨m, hscaled ▸ hm, _, hmul ▸ hp, ?_⟩
  have hfloor : (m : ℚ) * 2 ^ (-1 : ℤ) + 1 / 2 = (m + 1 : ℕ) / (2 : ℕ) := by
    push_cast
    ring
  rw [hfloor, Nat.floor_div_eq_div]

theorem roundsTo_of_wholes (h : seconds.Is neg (k * 2 ^ (-10 : ℤ)))
    (hlow : 2 ^ 52 * 128 ≤ 125 * k) (hhigh : 125 * k < 2 ^ 53 * 128) :
    ∃ m, NearestEven ((125 * k : ℕ) / (128 : ℕ)) m ∧ RoundsTo seconds neg m := by
  obtain ⟨num, den, hden, hvalue, hmul⟩ := exists_mul_thousand_of_units h
  have hlowQ : (2 ^ 52 * 128 : ℚ) ≤ (125 * k : ℕ) := by exact_mod_cast hlow
  have hhighQ : ((125 * k : ℕ) : ℚ) < 2 ^ 53 * 128 := by exact_mod_cast hhigh
  obtain ⟨m, hm, hp⟩ := exists_round_of_binade binary64_proper neg (e := 52) (q := 0) hden
    (by rw [hvalue, le_div_iff₀ (by norm_num)]; exact hlowQ)
    (by rw [hvalue, div_lt_iff₀ (by norm_num)]; exact hhighQ) (by decide) (by decide) (by decide)
  rw [hvalue, zpow_zero, div_one] at hm
  rw [zpow_zero, mul_one] at hp
  refine ⟨m, hm, m, hmul ▸ hp, ?_⟩
  rw [Nat.floor_eq_iff (by positivity)]
  constructor
  · linarith
  · linarith

end Product

/-- `k` units of `2 ^ (-10)` seconds are nearest to `n` milliseconds, and `m` half milliseconds
nearest to their product. -/
theorem half_eq {n k m : ℕ} (h : 4398046511104000 ≤ n) (hbound : 125 * k < 2 ^ 52 * 128)
    (hlow : 2 * (128 * n) ≤ (2 * k + 1) * 125) (hhigh : 2 * k * 125 ≤ 2 * (128 * n) + 125)
    (hmlow : 2 * (125 * k) ≤ (2 * m + 1) * 64) (hmhigh : 2 * m * 64 ≤ 2 * (125 * k) + 64)
    (htie : 2 * m * 64 = 2 * (125 * k) + 64 → m % 2 = 0) :
    (m + 1) / 2 = if Drifts n then n + 1 else n := by
  have hsplit := Nat.div_add_mod (3 * n) 125
  have hmod := Nat.mod_lt (3 * n) (show 0 < 125 by decide)
  -- The units are `n + 3 * n / 125`, or one more, and only that one more can be a half too much.
  have hm : m + 1 = 2 * n ∨ m = 2 * n ∨ m = 2 * n + 1 := by omega
  have hk : k = n + 3 * n / 125 ∨ k = n + 3 * n / 125 + 1 := by omega
  have hdrifts : Drifts n ↔ m = 2 * n + 1 := by
    rw [Drifts]
    rcases hk with hk | hk
    · omega
    · omega
  split
  · next hdrift =>
      rw [hdrifts.mp hdrift]
      omega
  · next hstay =>
      rw [hdrifts] at hstay
      omega

section Quotient

variable {n num den : ℕ} (neg : Bool)

theorem roundsTo_of_small (hden : 0 < den) (hquotient : (num : ℚ) / den = n / 1000)
    (h : n < 4398046511104000) : RoundsTo (round binary64 neg num den) neg n := by
  have hn : (n : ℚ) / 1000 < 2 ^ 42 := by
    rw [div_lt_iff₀ (by norm_num)]
    exact_mod_cast h
  obtain ⟨x, hx, hnear⟩ := exists_round_of_lt binary64_proper neg (e := 42) hden
    (by rw [hquotient]; exact_mod_cast hn) (by decide) (by decide)
  have herror : (2 : ℚ) ^ ((42 : ℤ) - binary64.precision - 1) = 1 / 4096 := by norm_num [binary64]
  rw [hquotient, herror] at hnear
  exact roundsTo_of_near hx hnear hn

theorem roundsTo_of_great (hden : 0 < den) (hquotient : (num : ℚ) / den = n / 1000)
    (h : 4398046511104000 ≤ n) (hbound : n < 8500000000000000) :
    RoundsTo (round binary64 neg num den) neg (if Drifts n then n + 1 else n) := by
  have hlowQ : (4398046511104000 : ℚ) ≤ n := by exact_mod_cast h
  have hhighQ : (n : ℚ) < 8500000000000000 := by exact_mod_cast hbound
  obtain ⟨k, hk, hseconds⟩ := exists_round_of_binade binary64_proper neg (e := 42) (q := -10) hden
    (by rw [hquotient]; norm_num; linarith) (by rw [hquotient]; norm_num; linarith)
    (by decide) (by decide) (by decide)
  have hscaled : (num : ℚ) / den / 2 ^ (-10 : ℤ) = (128 * n : ℕ) / (125 : ℕ) := by
    rw [hquotient]
    push_cast
    ring
  rw [hscaled] at hk
  obtain ⟨hklow, hkhigh⟩ := hk.bounds_of_quotient (by decide)
  rcases Nat.lt_or_ge (125 * k) (2 ^ 52 * 128) with hlt | hge
  · obtain ⟨m, hm, hrounds⟩ := roundsTo_of_halves hseconds (by omega) hlt
    obtain ⟨hmlow, hmhigh⟩ := hm.bounds_of_quotient (by decide)
    rwa [half_eq h hlt hklow hkhigh hmlow hmhigh (hm.even_of_tie (by decide))] at hrounds
  · obtain ⟨m, hm, hrounds⟩ := roundsTo_of_wholes hseconds hge (by omega)
    obtain ⟨hmlow, hmhigh⟩ := hm.bounds_of_quotient (by decide)
    have hstay : ¬ Drifts n := by
      intro ⟨_, hhigh, _, _⟩
      omega
    have hsame : m = n := by omega
    rw [if_neg hstay]
    rwa [hsame] at hrounds

theorem roundsTo_of_quotient (hden : 0 < den) (hquotient : (num : ℚ) / den = n / 1000)
    (h : n < 8500000000000000) :
    RoundsTo (round binary64 neg num den) neg (if Drifts n then n + 1 else n) := by
  rcases Nat.lt_or_ge n 4398046511104000 with hsmall | hgreat
  · have hstay : ¬ Drifts n := by
      intro ⟨hlow, _⟩
      omega
    rw [if_neg hstay]
    exact roundsTo_of_small neg hden hquotient hsmall
  · exact roundsTo_of_great neg hden hquotient hgreat h

end Quotient

/-! ## Instants -/

theorem natAbs_toMillis_lt (t : Timestamp) : t.toMillis.natAbs < 8500000000000000 := by
  obtain ⟨hlow, hhigh⟩ := t.inRange
  have hnanos : t.nanos < 2000000000 := by
    have := t.nanosFit
    omega
  simp only [minSeconds, maxSeconds] at hlow hhigh
  rw [toMillis]
  omega

theorem exists_toSeconds (t : Timestamp) :
    ∃ num den : ℕ, 0 < den ∧ (num : ℚ) / den = t.toMillis.natAbs / 1000 ∧
      t.toSeconds = round binary64 (t.toMillis < 0) num den := by
  have hbound := t.natAbs_toMillis_lt
  have hms := ofInt_is (n := t.toMillis) (by omega)
  obtain ⟨num, den, hden, hquotient, hdiv⟩ := hms.div thousand_is (by norm_num)
  rw [Bool.bne_false] at hdiv
  exact ⟨num, den, hden, hquotient, hdiv⟩

theorem isFinite_toSeconds (t : Timestamp) : t.toSeconds.isFinite = true := by
  obtain ⟨num, den, hden, hquotient, hseconds⟩ := t.exists_toSeconds
  have hbound : (num : ℚ) / den < 2 ^ (43 : ℤ) := by
    have hmillis : (t.toMillis.natAbs : ℚ) < 8500000000000000 := by
      exact_mod_cast t.natAbs_toMillis_lt
    rw [hquotient, div_lt_iff₀ (by norm_num)]
    exact hmillis.trans (by norm_num)
  obtain ⟨x, hx, -⟩ := exists_round_of_lt binary64_proper (t.toMillis < 0) hden hbound
    (by decide) (by decide)
  rw [hseconds]
  exact hx.isFinite

theorem signed_eq_readBack (ms : ℤ) :
    (if decide (ms < 0) then -((if Drifts ms.natAbs then ms.natAbs + 1 else ms.natAbs : ℕ) : ℤ)
      else (if Drifts ms.natAbs then ms.natAbs + 1 else ms.natAbs : ℕ)) = readBack ms := by
  rw [readBack]
  rcases lt_trichotomy ms 0 with hneg | rfl | hpos
  · rw [if_pos (decide_eq_true hneg), Int.sign_eq_neg_one_of_neg hneg]
    split
    · omega
    · omega
  · rfl
  · rw [if_neg (by simpa using hpos.le), Int.sign_eq_one_of_pos hpos]
    split
    · omega
    · omega

theorem roundAway?_toSeconds (t : Timestamp) :
    (t.toSeconds.mul thousand).roundAway? = some (readBack t.toMillis) := by
  obtain ⟨num, den, hden, hquotient, hseconds⟩ := t.exists_toSeconds
  obtain ⟨p, hp, hfloor⟩ :=
    roundsTo_of_quotient (t.toMillis < 0) hden hquotient t.natAbs_toMillis_lt
  rw [hseconds, hp.roundAway?, hfloor, signed_eq_readBack]

theorem ofSeconds?_toSeconds (t : Timestamp) :
    ofSeconds? t.toSeconds = ofMillis? (readBack t.toMillis) := by
  rw [ofSeconds?, if_pos t.isFinite_toSeconds, roundAway?_toSeconds, Option.bind_some]

theorem decode_encode (t : Timestamp) : decode t.encode = ofSeconds t.toSeconds := by
  rw [encode, Json.ofBinary, if_pos t.isFinite_toSeconds]
  rfl

theorem ofMillis?_eq_some {ms : ℤ} (hlow : minSeconds * 1000 ≤ ms) (hhigh : ms ≤ maxMillis) :
    ∃ t, ofMillis? ms = some t ∧ t.toMillis = ms := by
  have hrange : minSeconds ≤ ms / 1000 ∧ ms / 1000 ≤ maxSeconds := by
    rw [maxMillis] at hhigh
    omega
  have hnanos : (ms % 1000).toNat * 1000000 < 1000000000 := by omega
  refine ⟨⟨ms / 1000, (ms % 1000).toNat * 1000000, hrange, .inl hnanos⟩, ?_, ?_⟩
  · rw [ofMillis?, ofParts?, dif_pos hrange, dif_pos (.inl hnanos)]
  · simp only [toMillis]
    omega

theorem ofMillis?_eq_none {ms : ℤ} (h : maxMillis < ms) : ofMillis? ms = none := by
  have hrange : ¬ (minSeconds ≤ ms / 1000 ∧ ms / 1000 ≤ maxSeconds) := by
    rw [maxMillis] at h
    omega
  rw [ofMillis?, ofParts?, dif_neg hrange]

theorem le_toMillis (t : Timestamp) : minSeconds * 1000 ≤ t.toMillis := by
  have hlow := t.inRange.1
  rw [toMillis]
  omega

theorem readBack_of_drifts {ms : ℤ} (h : Drifts ms.natAbs) : readBack ms = ms + ms.sign := if_pos h

theorem readBack_of_not_drifts {ms : ℤ} (h : ¬ Drifts ms.natAbs) : readBack ms = ms := if_neg h

theorem sign_ne_zero_of_drifts {ms : ℤ} (h : Drifts ms.natAbs) : ms.sign ≠ 0 := by
  rw [Ne, Int.sign_eq_zero_iff_zero]
  intro hzero
  rw [hzero] at h
  exact absurd h (by decide)

theorem readBack_inRange {ms : ℤ} (hlow : minSeconds * 1000 ≤ ms) (hhigh : ms ≤ maxMillis) :
    minSeconds * 1000 ≤ readBack ms ∧ readBack ms ≤ maxMillis := by
  rw [readBack]
  split
  · next hdrift =>
      -- The drift ends far inside the range.
      obtain ⟨-, hbelow, -⟩ := hdrift
      have hsign : -1 ≤ ms.sign ∧ ms.sign ≤ 1 := by
        rcases Int.sign_trichotomy ms with h | h | h
        · omega
        · omega
        · omega
      simp only [minSeconds, maxMillis, maxSeconds]
      omega
  · exact ⟨hlow, hhigh⟩

theorem decode_encode_of_le {t : Timestamp} (h : t.toMillis ≤ maxMillis) :
    ∃ t', decode t.encode = .ok t' ∧ t'.toMillis = readBack t.toMillis := by
  obtain ⟨hlow, hhigh⟩ := readBack_inRange t.le_toMillis h
  obtain ⟨t', hmillis, hback⟩ := ofMillis?_eq_some hlow hhigh
  refine ⟨t', ?_, hback⟩
  rw [decode_encode, ofSeconds, ofSeconds?_toSeconds, hmillis]

/-- A leap second after the last minute is written and not read. -/
theorem decode_encode_of_lt {t : Timestamp} (h : maxMillis < t.toMillis) :
    decode t.encode = .error (.timestampOutOfRange t.toSeconds) := by
  have hstay : ¬ Drifts t.toMillis.natAbs := by
    intro ⟨_, hbelow, _⟩
    simp only [maxMillis, maxSeconds] at h
    omega
  rw [decode_encode, ofSeconds, ofSeconds?_toSeconds, readBack_of_not_drifts hstay,
    ofMillis?_eq_none h]

theorem decodeOptional_encode (t : Timestamp) :
    decodeOptional (encodeOptional (some t)) = (decode t.encode).map some := by
  rw [encodeOptional, encode, Json.ofBinary, if_pos t.isFinite_toSeconds]
  rfl

/-- An instant is read back to the millisecond, unless it drifts or is a leap second after the
last minute; one that drifts is read back as its neighbour away from the epoch. The optional form
does the same, and `null` stands for an absent instant. -/
theorem millis_survive_iff (t : Timestamp) :
    ((∃ t', decode t.encode = .ok t' ∧ t'.toMillis = t.toMillis) ↔
      t.toMillis ≤ maxMillis ∧ ¬ Drifts t.toMillis.natAbs) ∧
    (Drifts t.toMillis.natAbs →
      ∃ t', decode t.encode = .ok t' ∧ t'.toMillis = t.toMillis + t.toMillis.sign) ∧
    decodeOptional (encodeOptional (some t)) = (decode t.encode).map some ∧
    encodeOptional none = .null ∧ decodeOptional .null = .ok none := by
  refine ⟨⟨?_, ?_⟩, ?_, decodeOptional_encode t, rfl, rfl⟩
  · intro ⟨t', hdecode, hsame⟩
    rcases lt_or_ge maxMillis t.toMillis with hleap | hle
    · rw [decode_encode_of_lt hleap] at hdecode
      cases hdecode
    · refine ⟨hle, fun hdrift => ?_⟩
      obtain ⟨t'', hdecode', hback⟩ := decode_encode_of_le hle
      cases hdecode.symm.trans hdecode'
      rw [hsame, readBack_of_drifts hdrift] at hback
      have := sign_ne_zero_of_drifts hdrift
      omega
  · intro ⟨hle, hstay⟩
    obtain ⟨t', hdecode, hback⟩ := decode_encode_of_le hle
    exact ⟨t', hdecode, hback.trans (readBack_of_not_drifts hstay)⟩
  · intro hdrift
    have hle : t.toMillis ≤ maxMillis := by
      obtain ⟨-, hbelow, -⟩ := hdrift
      simp only [maxMillis, maxSeconds]
      omega
    obtain ⟨t', hdecode, hback⟩ := decode_encode_of_le hle
    exact ⟨t', hdecode, hback.trans (readBack_of_drifts hdrift)⟩

theorem far_instant_drifts :
    ∃ t t' : Timestamp, decode t.encode = .ok t' ∧ t.toMillis = 4398046511104021 ∧
      t'.toMillis = 4398046511104022 :=
  ⟨⟨4398046511104, 21000000, by decide, by decide⟩, ⟨4398046511104, 22000000, by decide, by decide⟩,
    by decide +kernel, by decide, by decide⟩

end ServiceCodec.Timestamp
