import Mathlib.Algebra.Order.Field.Power
import Mathlib.Algebra.Order.Floor.Semifield
import Mathlib.Data.Rat.Floor
import Mathlib.Tactic.FieldSimp
import Mathlib.Tactic.Linarith
import Mathlib.Tactic.Positivity
import Mathlib.Tactic.Ring
import ServiceCodec.Binary.Basic

/-!
# Rounding to a binary format

A quotient of whole numbers is rounded in one place, to the unit that the
format has for numbers of its size: the result is the multiple of that unit
nearest to the quotient, with an even significand at a half. Everything about
the operations follows from two forms of this. Below a power of two the error
is at most half a unit; and in a known binade the unit itself is known, and
with it the significand.
-/

namespace ServiceCodec

/-- A format with room for a significand, and for one that is carried over. -/
structure Format.Proper (f : Format) : Prop where
  precise : 0 < f.precision
  wide : f.minExponent < f.maxExponent

theorem binary64_proper : binary64.Proper := ⟨by decide, by decide⟩

namespace Binary

/-- `m` is the whole number nearest to `x`; a half goes to the even one. -/
structure NearestEven (x : ℚ) (m : ℕ) : Prop where
  near : |x - m| ≤ 1 / 2
  even : |x - m| = 1 / 2 → m % 2 = 0

namespace NearestEven

variable {x : ℚ} {m n : ℕ}

theorem of_lt (h : |x - m| < 1 / 2) : NearestEven x m := ⟨h.le, fun heq => absurd heq h.ne⟩

theorem le_of_lt (h : NearestEven x m) (hx : x < n) : m ≤ n := by
  have hlow : (m : ℚ) < n + 1 := by linarith [(abs_le.mp h.near).1]
  have hlow' : m < n + 1 := by exact_mod_cast hlow
  omega

theorem le_of_le (h : NearestEven x m) (hx : (n : ℚ) ≤ x) : n ≤ m := by
  have hhigh : (n : ℚ) < m + 1 := by linarith [(abs_le.mp h.near).2]
  have hhigh' : n < m + 1 := by exact_mod_cast hhigh
  omega

theorem eq_of_natCast (h : NearestEven (n : ℚ) m) : m = n := by
  have hlow := h.le_of_le le_rfl
  have hhigh := abs_le.mp h.near
  have hlt : (m : ℚ) < n + 1 := by linarith [hhigh.1]
  have hlt' : m < n + 1 := by exact_mod_cast hlt
  omega

section Quotient

variable {a b : ℕ}

theorem bounds_of_quotient (hb : 0 < b) (h : NearestEven ((a : ℚ) / b) m) :
    2 * a ≤ (2 * m + 1) * b ∧ 2 * m * b ≤ 2 * a + b := by
  have hbQ : (0 : ℚ) < b := Nat.cast_pos.mpr hb
  obtain ⟨hlow, hhigh⟩ := abs_le.mp h.near
  have habove : (a : ℚ) ≤ (m + 1 / 2) * b := (div_le_iff₀ hbQ).mp (by linarith)
  have hbelow : (m - 1 / 2) * b ≤ (a : ℚ) := (le_div_iff₀ hbQ).mp (by linarith)
  constructor
  · have hQ : (2 * a : ℚ) ≤ (2 * m + 1) * b := by linarith
    exact_mod_cast hQ
  · have hQ : (2 * m * b : ℚ) ≤ 2 * a + b := by linarith
    exact_mod_cast hQ

theorem even_of_tie (hb : 0 < b) (h : NearestEven ((a : ℚ) / b) m) (htie : 2 * m * b = 2 * a + b) :
    m % 2 = 0 := by
  have hbQ : (b : ℚ) ≠ 0 := Nat.cast_ne_zero.mpr hb.ne'
  have htieQ : (2 * m * b : ℚ) = 2 * a + b := by exact_mod_cast htie
  have hx : (a : ℚ) / b = m - 1 / 2 := by
    rw [div_eq_iff hbQ]
    linarith
  apply h.even
  rw [hx, abs_of_nonpos] <;> linarith

end Quotient

end NearestEven

theorem nearestEven_nearest (num : ℕ) {den : ℕ} (hden : 0 < den) :
    NearestEven ((num : ℚ) / den) (nearestEven num den) := by
  have hden' : (0 : ℚ) < den := Nat.cast_pos.mpr hden
  have hx : (num : ℚ) / den = (num / den : ℕ) + (num % den : ℕ) / (den : ℚ) := by
    have hsplit : (num : ℚ) = den * (num / den : ℕ) + (num % den : ℕ) := by
      exact_mod_cast (Nat.div_add_mod num den).symm
    field_simp
    exact hsplit
  have hrest : (num % den : ℕ) / (den : ℚ) < 1 := by
    rw [div_lt_one hden']
    exact_mod_cast Nat.mod_lt num hden
  have hpos : 0 ≤ (num % den : ℕ) / (den : ℚ) := by positivity
  rw [hx]
  simp only [nearestEven]
  split
  · next hlow =>
      have hhalf : (num % den : ℕ) / (den : ℚ) < 1 / 2 := by
        rw [div_lt_div_iff₀ hden' two_pos]
        exact_mod_cast (by omega : num % den * 2 < 1 * den)
      exact .of_lt (abs_lt.mpr ⟨by linarith, by linarith⟩)
  · split
    · next hhigh =>
        have hhalf : 1 / 2 < (num % den : ℕ) / (den : ℚ) := by
          rw [div_lt_div_iff₀ two_pos hden']
          exact_mod_cast (by omega : 1 * den < num % den * 2)
        exact .of_lt (abs_lt.mpr ⟨by push_cast; linarith, by push_cast; linarith⟩)
    · have hhalf : (num % den : ℕ) / (den : ℚ) = 1 / 2 := by
        rw [div_eq_div_iff hden'.ne' two_ne_zero]
        exact_mod_cast (by omega : num % den * 2 = 1 * den)
      split
      · next heven => exact ⟨abs_le.mpr ⟨by linarith, by linarith⟩, fun _ => heven⟩
      · next hodd =>
          refine ⟨abs_le.mpr ⟨?_, ?_⟩, fun _ => by omega⟩
          · push_cast
            linarith
          · push_cast
            linarith

/-! ## Quotients -/

theorem scaled_spec (num den : ℕ) (q : ℤ) :
    ((scaled num den q).1 : ℚ) / (scaled num den q).2 = (num : ℚ) / den / 2 ^ q := by
  obtain ⟨n, rfl | rfl⟩ := q.eq_nat_or_neg
  · simp [scaled, twoTo, div_div]
  · simp only [scaled, twoTo, neg_neg, Int.toNat_natCast, zpow_neg, zpow_natCast, div_inv_eq_mul]
    simp
    ring

theorem scaled_pos (num : ℕ) {den : ℕ} (hden : 0 < den) (q : ℤ) : 0 < (scaled num den q).2 :=
  Nat.mul_pos hden (Nat.pow_pos two_pos)

theorem quotient_spec (m : ℕ) (q : ℤ) :
    ((quotient m q).1 : ℚ) / (quotient m q).2 = m * 2 ^ q := by
  have h := scaled_spec m 1 (-q)
  simpa [scaled, quotient] using h

theorem quotient_pos (m : ℕ) (q : ℤ) : 0 < (quotient m q).2 := Nat.pow_pos two_pos

/-! ## The binade -/

theorem eq_of_binade {x : ℚ} {e e' : ℤ} (hlow : (2 : ℚ) ^ e ≤ x) (hhigh : x < 2 ^ (e + 1))
    (hlow' : (2 : ℚ) ^ e' ≤ x) (hhigh' : x < 2 ^ (e' + 1)) : e = e' := by
  have h := (zpow_lt_zpow_iff_right₀ one_lt_two).mp (hlow.trans_lt hhigh')
  have h' := (zpow_lt_zpow_iff_right₀ one_lt_two).mp (hlow'.trans_lt hhigh)
  omega

theorem floorLog2_spec {num den : ℕ} (hnum : 0 < num) (hden : 0 < den) :
    (2 : ℚ) ^ floorLog2 num den ≤ (num : ℚ) / den ∧
      (num : ℚ) / den < 2 ^ (floorLog2 num den + 1) := by
  have hdenQ : (0 : ℚ) < den := Nat.cast_pos.mpr hden
  have hnumLow : (2 : ℚ) ^ (num.log2 : ℤ) ≤ num := by
    exact_mod_cast Nat.log2_self_le hnum.ne'
  have hnumHigh : (num : ℚ) < 2 ^ ((num.log2 : ℤ) + 1) := by
    exact_mod_cast Nat.lt_log2_self (n := num)
  have hdenLow : (2 : ℚ) ^ (den.log2 : ℤ) ≤ den := by
    exact_mod_cast Nat.log2_self_le hden.ne'
  have hdenHigh : (den : ℚ) < 2 ^ ((den.log2 : ℤ) + 1) := by
    exact_mod_cast Nat.lt_log2_self (n := den)
  -- The quotient lies between two neighbours of the guess, and the test tells on which side.
  have hhigh : (num : ℚ) / den < 2 ^ ((num.log2 : ℤ) - den.log2 + 1) := by
    rw [div_lt_iff₀ hdenQ]
    calc (num : ℚ) < 2 ^ ((num.log2 : ℤ) + 1) := hnumHigh
      _ = 2 ^ ((num.log2 : ℤ) - den.log2 + 1) * 2 ^ (den.log2 : ℤ) := by
          rw [← zpow_add₀ two_ne_zero]; congr 1; ring
      _ ≤ 2 ^ ((num.log2 : ℤ) - den.log2 + 1) * den := by gcongr
  have hlow : (2 : ℚ) ^ ((num.log2 : ℤ) - den.log2 - 1) ≤ (num : ℚ) / den := by
    rw [le_div_iff₀ hdenQ]
    calc (2 : ℚ) ^ ((num.log2 : ℤ) - den.log2 - 1) * den
        ≤ 2 ^ ((num.log2 : ℤ) - den.log2 - 1) * 2 ^ ((den.log2 : ℤ) + 1) := by gcongr
      _ = 2 ^ (num.log2 : ℤ) := by rw [← zpow_add₀ two_ne_zero]; congr 1; ring
      _ ≤ num := hnumLow
  have htest : (scaled num den (num.log2 - den.log2)).2 ≤ (scaled num den (num.log2 - den.log2)).1 ↔
      (2 : ℚ) ^ ((num.log2 : ℤ) - den.log2) ≤ (num : ℚ) / den := by
    have hpos : (0 : ℚ) < (scaled num den (num.log2 - den.log2)).2 :=
      Nat.cast_pos.mpr (scaled_pos num hden _)
    have hunit : (0 : ℚ) < 2 ^ ((num.log2 : ℤ) - den.log2) := by positivity
    rw [← one_le_div hunit, ← scaled_spec, one_le_div hpos, Nat.cast_le]
  simp only [floorLog2]
  split
  · next h => exact ⟨htest.mp h, hhigh⟩
  · next h =>
      rw [htest, not_le] at h
      rw [sub_add_cancel]
      exact ⟨hlow, h⟩

theorem floorLog2_eq {num den : ℕ} {e : ℤ} (hden : 0 < den) (hlow : (2 : ℚ) ^ e ≤ (num : ℚ) / den)
    (hhigh : (num : ℚ) / den < 2 ^ (e + 1)) : floorLog2 num den = e := by
  have hnum : 0 < num := by
    refine Nat.pos_of_ne_zero fun hzero => ?_
    rw [hzero, Nat.cast_zero, zero_div] at hlow
    exact absurd hlow (not_le.mpr (zpow_pos two_pos e))
  obtain ⟨hlow', hhigh'⟩ := floorLog2_spec hnum hden
  exact eq_of_binade hlow' hhigh' hlow hhigh

theorem floorLog2_lt {num den : ℕ} {e : ℤ} (hnum : 0 < num) (hden : 0 < den)
    (h : (num : ℚ) / den < 2 ^ e) : floorLog2 num den < e :=
  (zpow_lt_zpow_iff_right₀ one_lt_two).mp ((floorLog2_spec hnum hden).1.trans_lt h)

end Binary

/-- The format writes numbers about as great as `x` with the exponent `q`: they have a full
significand, unless `q` is the least exponent, and the significand does not overflow. -/
structure Format.Scales (f : Format) (x : ℚ) (q : ℤ) : Prop where
  least : f.minExponent ≤ q
  fits : x < 2 ^ (f.precision + q)
  full : q = f.minExponent ∨ (2 : ℚ) ^ (f.precision - 1 + q) ≤ x

namespace Binary

variable {f : Format}

theorem scales_exponentOf (hf : f.Proper) {num den : ℕ} (hnum : 0 < num) (hden : 0 < den) :
    f.Scales (num / den) (exponentOf f num den) := by
  have hprecise := hf.precise
  obtain ⟨hlow, hhigh⟩ := floorLog2_spec hnum hden
  refine ⟨le_max_left _ _, hhigh.trans_le (zpow_le_zpow_right₀ one_le_two ?_), ?_⟩
  · rw [exponentOf]
    omega
  · rcases max_choice f.minExponent (floorLog2 num den - (f.precision - 1 : ℕ)) with h | h
    · exact .inl h
    · right
      have hexp : (f.precision : ℤ) - 1 + exponentOf f num den = floorLog2 num den := by
        rw [exponentOf, h]
        omega
      rwa [hexp]

theorem cast_twoTo (n : ℕ) : ((twoTo n : ℕ) : ℚ) = 2 ^ n := Nat.cast_pow 2 n

theorem twoTo_mul_zpow (n : ℕ) (q : ℤ) : ((twoTo n : ℕ) : ℚ) * 2 ^ q = 2 ^ (n + q) := by
  rw [zpow_add₀ two_ne_zero, zpow_natCast, cast_twoTo]

section Significand

variable {x : ℚ} {q : ℤ} {m : ℕ}

theorem NearestEven.le_of_scales (h : NearestEven (x / 2 ^ q) m) (hscales : f.Scales x q) :
    m ≤ twoTo f.precision := by
  apply h.le_of_lt
  rw [div_lt_iff₀ (by positivity)]
  rw [twoTo_mul_zpow]
  exact hscales.fits

theorem NearestEven.full_of_scales (h : NearestEven (x / 2 ^ q) m) (hf : f.Proper)
    (hscales : f.Scales x q) : q = f.minExponent ∨ twoTo (f.precision - 1) ≤ m := by
  refine hscales.full.imp_right fun hfull => h.le_of_le ?_
  have hprecise := hf.precise
  rw [le_div_iff₀ (by positivity), twoTo_mul_zpow]
  have hexp : ((f.precision - 1 : ℕ) : ℤ) = f.precision - 1 := by omega
  rwa [hexp]

end Significand

/-! ## Values -/

/-- `b` is the number `x` of its format, negative if `neg`. -/
def Is (b : Binary f) (neg : Bool) (x : ℚ) : Prop :=
  ∃ m q has, b = finite neg m q has ∧ x = m * 2 ^ q

theorem ofParts_is {m : ℕ} {q : ℤ} (neg : Bool) (h : f.Has m q) :
    (ofParts neg m q : Binary f).Is neg (m * 2 ^ q) := by
  rw [ofParts, dif_pos h]
  exact ⟨m, q, h, rfl, rfl⟩

theorem zero_is (hf : f.Proper) (neg : Bool) : (zero neg : Binary f).Is neg 0 := by
  have h := ofParts_is neg (f := f) (m := 0) (q := f.minExponent)
    ⟨Nat.pow_pos two_pos, le_rfl, hf.wide.le, .inl rfl⟩
  rwa [Nat.cast_zero, zero_mul] at h

/-- The number with the significand that rounding gives, which may be one too great: then it is
carried over to the next exponent. -/
def ofRounded (neg : Bool) (m : ℕ) (q : ℤ) : Binary f :=
  if m = twoTo f.precision then ofParts neg (twoTo (f.precision - 1)) (q + 1) else ofParts neg m q

theorem carried_eq (hf : f.Proper) (q : ℤ) :
    ((twoTo (f.precision - 1) : ℕ) : ℚ) * 2 ^ (q + 1) = (twoTo f.precision : ℕ) * 2 ^ q := by
  have hprecise := hf.precise
  rw [twoTo_mul_zpow, twoTo_mul_zpow]
  congr 1
  omega

/-- Rounding is to a whole number of units of the binade. -/
theorem round_eq {num den : ℕ} (hnum : 0 < num) (hden : 0 < den) :
    ∃ m, NearestEven ((num : ℚ) / den / 2 ^ exponentOf f num den) m ∧
      ∀ neg, round f neg num den = ofRounded neg m (exponentOf f num den) := by
  have hnear := nearestEven_nearest (scaled num den (exponentOf f num den)).1
    (scaled_pos num hden (exponentOf f num den))
  rw [scaled_spec] at hnear
  refine ⟨_, hnear, fun neg => ?_⟩
  rw [round, if_neg hnum.ne', ofRounded]

/-- Below the greatest exponent rounding goes to the nearest number of the format. -/
theorem round_is (hf : f.Proper) (neg : Bool) {num den : ℕ} {q : ℤ} (hnum : 0 < num)
    (hden : 0 < den) (hq : exponentOf f num den = q) (hmax : q < f.maxExponent) :
    ∃ m, NearestEven ((num : ℚ) / den / 2 ^ q) m ∧ (round f neg num den).Is neg (m * 2 ^ q) := by
  subst hq
  have hscales := scales_exponentOf hf hnum hden
  obtain ⟨m, hnear, hround⟩ := round_eq (f := f) hnum hden
  refine ⟨m, hnear, ?_⟩
  rw [hround, ofRounded]
  split
  · next hcarry =>
      have hlt : twoTo (f.precision - 1) < twoTo f.precision :=
        Nat.pow_lt_pow_right one_lt_two (Nat.sub_lt hf.precise one_pos)
      have hleast := hscales.least
      rw [hcarry, ← carried_eq hf]
      exact ofParts_is neg ⟨hlt, by omega, by omega, .inr le_rfl⟩
  · next hne =>
      exact ofParts_is neg ⟨Nat.lt_of_le_of_ne (hnear.le_of_scales hscales) hne, hscales.least,
        hmax.le, hnear.full_of_scales hf hscales⟩

/-- The error of rounding is bounded by the size of what is rounded. -/
theorem exists_round_of_lt (hf : f.Proper) (neg : Bool) {num den : ℕ} {e : ℤ} (hden : 0 < den)
    (h : (num : ℚ) / den < 2 ^ e) (hmin : f.minExponent + f.precision ≤ e)
    (hmax : e < f.maxExponent + f.precision) :
    ∃ y, (round f neg num den).Is neg y ∧ |(num : ℚ) / den - y| ≤ 2 ^ (e - f.precision - 1) := by
  rcases Nat.eq_zero_or_pos num with rfl | hnum
  · refine ⟨0, ?_, ?_⟩
    · rw [round, if_pos rfl]
      exact zero_is hf neg
    · simp only [Nat.cast_zero, zero_div, sub_zero, abs_zero]
      positivity
  · have hprecise := hf.precise
    have hlog := floorLog2_lt hnum hden h
    have hq : exponentOf f num den ≤ e - f.precision := by
      rw [exponentOf]
      omega
    obtain ⟨m, hnear, his⟩ := round_is hf neg hnum hden rfl (by omega)
    refine ⟨_, his, ?_⟩
    have hunit : (0 : ℚ) < 2 ^ exponentOf f num den := by positivity
    have hscaled : (num : ℚ) / den - m * 2 ^ exponentOf f num den =
        ((num : ℚ) / den / 2 ^ exponentOf f num den - m) * 2 ^ exponentOf f num den := by
      field_simp
    rw [hscaled, abs_mul, abs_of_pos hunit]
    calc _ ≤ 1 / 2 * (2 : ℚ) ^ exponentOf f num den := by gcongr; exact hnear.near
      _ ≤ 1 / 2 * 2 ^ (e - f.precision) := by gcongr; exact one_le_two
      _ = 2 ^ (e - f.precision - 1) := by rw [zpow_sub_one₀ two_ne_zero]; ring

/-- Within a binade the unit of rounding is `2 ^ q`. -/
theorem exists_round_of_binade (hf : f.Proper) (neg : Bool) {num den : ℕ} {e q : ℤ}
    (hden : 0 < den) (hlow : (2 : ℚ) ^ e ≤ (num : ℚ) / den) (hhigh : (num : ℚ) / den < 2 ^ (e + 1))
    (hq : e - (f.precision - 1 : ℕ) = q) (hmin : f.minExponent ≤ q) (hmax : q < f.maxExponent) :
    ∃ m, NearestEven ((num : ℚ) / den / 2 ^ q) m ∧ (round f neg num den).Is neg (m * 2 ^ q) := by
  have hnum : 0 < num := by
    refine Nat.pos_of_ne_zero fun hzero => ?_
    rw [hzero, Nat.cast_zero, zero_div] at hlow
    exact absurd hlow (not_le.mpr (zpow_pos two_pos e))
  refine round_is hf neg hnum hden ?_ hmax
  rw [exponentOf, floorLog2_eq hden hlow hhigh, hq, max_eq_right hmin]

/-! ## Operations -/

section Operations

variable {a b : Binary f} {s t : Bool} {x y : ℚ}

theorem Is.nonneg (h : a.Is s x) : 0 ≤ x := by
  obtain ⟨m, q, _, -, rfl⟩ := h
  positivity

theorem Is.isFinite (h : a.Is s x) : a.isFinite = true := by
  obtain ⟨m, q, _, rfl, -⟩ := h
  rfl

theorem Is.mul (ha : a.Is s x) (hb : b.Is t y) :
    ∃ num den : ℕ, 0 < den ∧ (num : ℚ) / den = x * y ∧ a.mul b = round f (s != t) num den := by
  obtain ⟨m, q, _, rfl, rfl⟩ := ha
  obtain ⟨n, r, _, rfl, rfl⟩ := hb
  refine ⟨(quotient (m * n) (q + r)).1, _, quotient_pos (m * n) (q + r), ?_, rfl⟩
  rw [quotient_spec, zpow_add₀ two_ne_zero]
  push_cast
  ring

theorem Is.div (ha : a.Is s x) (hb : b.Is t y) (hy : y ≠ 0) :
    ∃ num den : ℕ, 0 < den ∧ (num : ℚ) / den = x / y ∧ a.div b = round f (s != t) num den := by
  obtain ⟨m, q, _, rfl, rfl⟩ := ha
  obtain ⟨n, r, _, rfl, rfl⟩ := hb
  have hn : n ≠ 0 := by
    intro hzero
    apply hy
    rw [hzero, Nat.cast_zero, zero_mul]
  refine ⟨(quotient m (q - r)).1, (quotient m (q - r)).2 * n,
    Nat.mul_pos (quotient_pos m (q - r)) (Nat.pos_of_ne_zero hn), ?_, ?_⟩
  · rw [Nat.cast_mul, ← div_div, quotient_spec, zpow_sub₀ two_ne_zero]
    field_simp
  · rw [Binary.div, if_neg hn]

/-- Reading off a whole number: a half goes away from zero. -/
theorem Is.roundAway? (h : a.Is s x) :
    a.roundAway? = some (if s then -(⌊x + 1 / 2⌋₊ : ℤ) else ⌊x + 1 / 2⌋₊) := by
  obtain ⟨m, q, _, rfl, rfl⟩ := h
  have haway : nearestAway m q = ⌊(m : ℚ) * 2 ^ q + 1 / 2⌋₊ := by
    have hden : ((quotient m q).2 : ℚ) ≠ 0 := Nat.cast_ne_zero.mpr (quotient_pos m q).ne'
    show (2 * (quotient m q).1 + (quotient m q).2) / (2 * (quotient m q).2) = _
    rw [← quotient_spec, ← Nat.floor_div_eq_div (K := ℚ)]
    congr 1
    push_cast
    field_simp
  simp only [Binary.roundAway?, haway]

end Operations

/-! ## Whole numbers -/

theorem ofInt_is {n : ℤ} (h : n.natAbs < 2 ^ 53) :
    (ofInt binary64 n).Is (n < 0) n.natAbs := by
  rw [ofInt]
  rcases Nat.eq_zero_or_pos n.natAbs with hzero | hpos
  · rw [hzero, round, if_pos rfl, Nat.cast_zero]
    exact zero_is binary64_proper _
  · have hlow : (2 : ℚ) ^ (n.natAbs.log2 : ℤ) ≤ (n.natAbs : ℚ) / (1 : ℕ) := by
      rw [Nat.cast_one, div_one]
      exact_mod_cast Nat.log2_self_le hpos.ne'
    have hhigh : (n.natAbs : ℚ) / (1 : ℕ) < 2 ^ ((n.natAbs.log2 : ℤ) + 1) := by
      rw [Nat.cast_one, div_one]
      exact_mod_cast Nat.lt_log2_self (n := n.natAbs)
    have hlog : n.natAbs.log2 < 53 := (Nat.log2_lt hpos.ne').mpr h
    obtain ⟨m, hnear, his⟩ := exists_round_of_binade (q := n.natAbs.log2 - 52) binary64_proper
      (n < 0) one_pos hlow hhigh rfl (by show (-1074 : ℤ) ≤ _; omega)
      (by show _ < (971 : ℤ); omega)
    have hvalue : (n.natAbs : ℚ) / (1 : ℕ) / 2 ^ ((n.natAbs.log2 : ℤ) - 52) =
        (n.natAbs * 2 ^ (52 - n.natAbs.log2) : ℕ) := by
      rw [show (n.natAbs.log2 : ℤ) - 52 = -((52 - n.natAbs.log2 : ℕ) : ℤ) by omega, zpow_neg,
        zpow_natCast, div_inv_eq_mul, Nat.cast_one, div_one]
      push_cast
      rfl
    rw [hvalue] at hnear
    rw [hnear.eq_of_natCast, ← hvalue, div_mul_cancel₀ _ (by positivity), Nat.cast_one,
      div_one] at his
    exact his

end Binary
end ServiceCodec
