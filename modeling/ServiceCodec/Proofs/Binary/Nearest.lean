import ServiceCodec.Proofs.Binary.Rounding

/-!
# The number that a rational rounds to

Rounding is computed in the unit of the binade, but what it promises has nothing
to do with binades. `Binary.Nearest` says it of the number alone: no number of the
format is nearer, and when another is as near, it is the one with the even
significand that is taken. What lies half a unit or more beyond the greatest number
becomes the infinity of its sign. The computed product is this number for the
exact product (`mul_nearest`).

Numbers of a smaller binade are not on the grid that is rounded to. They all lie
below the full significand that the binade begins with, which is on the grid and
nearer.

Rounding keeps the order of what it rounds (`round_mono`), also over the border of
two binades: whatever the lower one rounds to is at most the first number of the
higher one.
-/

namespace ServiceCodec

/-- From here on upwards numbers round to infinity: half a unit above the greatest number. -/
def Format.limit (f : Format) : ℚ := (2 ^ f.precision - 1 / 2) * 2 ^ f.maxExponent

/-- Without a bound to exponents, `x` rounds to `m * 2 ^ q`, where `q` is the exponent for
numbers of this size. The significand may be one too great. -/
structure Format.Rounds (f : Format) (x : ℚ) (m : ℕ) (q : ℤ) : Prop extends f.Scales x q where
  nearest : Binary.NearestEven (x / 2 ^ q) m

namespace Binary

variable {f : Format}

/-! ## The nearest whole number -/

namespace NearestEven

variable {x y : ℚ} {m n : ℕ}

theorem mono (hx : NearestEven x m) (hy : NearestEven y n) (h : x ≤ y) : m ≤ n := by
  by_contra hlt
  have hsucc : (n : ℚ) + 1 ≤ m := by exact_mod_cast not_le.mp hlt
  have hlow := (abs_le.mp hx.near).1
  have hhigh := (abs_le.mp hy.near).2
  -- Only the half between two neighbours could go to the greater one below, and the smaller
  -- one above; but of the neighbours one is odd.
  have hxtie : |x - m| = 1 / 2 := by rw [abs_of_nonpos] <;> linarith
  have hytie : |y - n| = 1 / 2 := by rw [abs_of_nonneg] <;> linarith
  have hneighbours : (m : ℚ) = n + 1 := by linarith
  have hneighbours' : m = n + 1 := by exact_mod_cast hneighbours
  have hmeven := hx.even hxtie
  have hneven := hy.even hytie
  omega

theorem half_le_of_ne (h : NearestEven x m) {k : ℤ} (hk : k ≠ m) : 1 / 2 ≤ |x - k| := by
  have hgap : (1 : ℚ) ≤ |(k : ℚ) - (m : ℤ)| := by
    exact_mod_cast Int.one_le_abs (sub_ne_zero.mpr hk)
  have htriangle : |(k : ℚ) - (m : ℤ)| ≤ |x - m| + |x - k| := by
    calc |(k : ℚ) - (m : ℤ)| = |(x - m) - (x - k)| := by
          congr 1
          push_cast
          ring
      _ ≤ |x - m| + |x - k| := abs_sub _ _
  linarith [h.near]

theorem le_abs_sub (h : NearestEven x m) (k : ℤ) : |x - m| ≤ |x - k| := by
  by_cases hk : k = m
  · rw [hk, Int.cast_natCast]
  · exact h.near.trans (h.half_le_of_ne hk)

theorem even_of_as_near (h : NearestEven x m) {k : ℤ} (hk : k ≠ m) (htie : |x - k| = |x - m|) :
    m % 2 = 0 :=
  h.even (le_antisymm h.near (htie ▸ h.half_le_of_ne hk))

end NearestEven

/-! ## Values -/

/-- A rational, negated if `neg`. -/
def signed (neg : Bool) (x : ℚ) : ℚ := if neg then -x else x

theorem signed_signed (neg : Bool) (x : ℚ) : signed neg (signed neg x) = x := by
  cases neg with
  | false => rfl
  | true => exact neg_neg x

theorem signed_mul_signed (s t : Bool) (x y : ℚ) :
    signed s x * signed t y = signed (s != t) (x * y) := by
  cases s <;> cases t <;> simp [signed]

theorem abs_signed_sub (neg : Bool) (x y : ℚ) : |signed neg x - y| = |x - signed neg y| := by
  cases neg with
  | false => rfl
  | true =>
      rw [signed, signed, if_pos rfl, if_pos rfl, ← abs_neg]
      congr 1
      ring

/-- The rational that a finite number is. -/
def value? : Binary f → Option ℚ
  | finite neg m q _ => some (signed neg (m * 2 ^ q))
  | _ => none

theorem value?_eq_some_iff {b : Binary f} {x : ℚ} :
    b.value? = some x ↔ ∃ neg y, b.Is neg y ∧ x = signed neg y := by
  constructor
  · intro h
    cases b with
    | finite neg m q has => exact ⟨neg, _, ⟨m, q, has, rfl, rfl⟩, (Option.some_inj.mp h).symm⟩
    | infinite neg => cases h
    | nan => cases h
  · intro ⟨neg, y, ⟨m, q, has, hb, hy⟩, hx⟩
    rw [hb, hx, hy, value?]

theorem exists_value?_signed (neg : Bool) {b : Binary f} {x : ℚ} (h : b.value? = some x) :
    ∃ b' : Binary f, b'.value? = some (signed neg x) := by
  obtain ⟨s, y, ⟨m, q, has, -, hy⟩, rfl⟩ := value?_eq_some_iff.mp h
  refine ⟨finite (neg != s) m q has, ?_⟩
  rw [value?, ← hy]
  cases neg <;> cases s <;> simp [signed]

theorem abs_sub_units (x k : ℚ) (q : ℤ) : |x - k * 2 ^ q| = |x / 2 ^ q - k| * 2 ^ q := by
  have hunit : (0 : ℚ) < 2 ^ q := by positivity
  rw [← abs_of_pos hunit, ← abs_mul, abs_of_pos hunit, sub_mul, div_mul_cancel₀ _ hunit.ne']

/-- On the grid of `2 ^ q` are the numbers with no smaller exponent. -/
theorem exists_units {x : ℚ} {neg : Bool} {m : ℕ} {q r : ℤ} (h : q ≤ r)
    (hx : x = signed neg (m * 2 ^ r)) : ∃ k : ℤ, x = k * 2 ^ q := by
  obtain ⟨n, rfl⟩ := Int.le.dest h
  refine ⟨if neg then -(m * 2 ^ n : ℕ) else (m * 2 ^ n : ℕ), ?_⟩
  rw [hx, zpow_add₀ two_ne_zero, zpow_natCast]
  cases neg with
  | false =>
      simp only [signed, Bool.false_eq_true, if_false]
      push_cast
      ring
  | true =>
      simp only [signed, if_true]
      push_cast
      ring

/-- The others lie below the significand that is full in units of `2 ^ q`. -/
theorem lt_of_exponent_lt {x : ℚ} {neg : Bool} {m : ℕ} {q r : ℤ} (h : r < q) (has : f.Has m r)
    (hx : x = signed neg (m * 2 ^ r)) : x < 2 ^ (f.precision - 1 + q) := by
  have hle : x ≤ m * 2 ^ r := by
    have hpos : (0 : ℚ) ≤ m * 2 ^ r := by positivity
    rw [hx]
    cases neg with
    | false => exact le_rfl
    | true => exact (neg_nonpos.mpr hpos).trans hpos
  have hm : (m : ℚ) < (twoTo f.precision : ℕ) := Nat.cast_lt.mpr has.1
  calc x ≤ m * 2 ^ r := hle
    _ < (twoTo f.precision : ℕ) * 2 ^ r := by gcongr
    _ = 2 ^ (f.precision + r) := twoTo_mul_zpow ..
    _ ≤ 2 ^ (f.precision - 1 + q) := zpow_le_zpow_right₀ one_le_two (by omega)

end Binary

/-! ## In the unit of the binade -/

section Scales

variable {f : Format} {x y : ℚ} {q r : ℤ}

theorem Format.Scales.le_of_le (h : f.Scales x q) (h' : f.Scales y r) (hxy : x ≤ y) : q ≤ r := by
  by_contra hlt
  have hleast := h'.least
  have hfull := h.full.resolve_left (by omega)
  have hexp := (zpow_lt_zpow_iff_right₀ one_lt_two).mp ((hfull.trans hxy).trans_lt h'.fits)
  omega

theorem Format.limit_lt (f : Format) : f.limit < 2 ^ (f.precision + f.maxExponent) := by
  rw [limit, zpow_add₀ two_ne_zero, zpow_natCast]
  gcongr
  linarith

theorem Format.le_limit (f : Format) : 2 ^ (f.precision - 1 + f.maxExponent) ≤ f.limit := by
  have hpow : (1 : ℚ) ≤ 2 ^ f.precision := one_le_pow₀ one_le_two
  rw [limit, zpow_add₀ two_ne_zero, zpow_sub_one₀ two_ne_zero, zpow_natCast]
  gcongr
  linarith

theorem Format.Scales.le_maxExponent (hf : f.Proper) (h : f.Scales x q) (hx : x < f.limit) :
    q ≤ f.maxExponent := by
  rcases h.full with hleast | hfull
  · exact hleast.trans_le hf.wide.le
  · have hexp := (zpow_lt_zpow_iff_right₀ one_lt_two).mp ((hfull.trans_lt hx).trans f.limit_lt)
    omega

theorem Format.Scales.maxExponent_le (h : f.Scales x q) (hx : f.limit ≤ x) :
    f.maxExponent ≤ q := by
  have hexp := (zpow_lt_zpow_iff_right₀ one_lt_two).mp
    ((f.le_limit.trans hx).trans_lt h.fits)
  omega

end Scales

namespace Format.Rounds

open Binary

variable {f : Format} {x x' : ℚ} {m m' : ℕ} {q q' : ℤ}

theorem mono (hf : f.Proper) (h : f.Rounds x m q) (h' : f.Rounds x' m' q') (hx : x ≤ x') :
    (m : ℚ) * 2 ^ q ≤ m' * 2 ^ q' := by
  rcases (h.le_of_le h'.toScales hx).eq_or_lt with rfl | hlt
  · have hle : x / 2 ^ q ≤ x' / 2 ^ q := by gcongr
    have hm : (m : ℚ) ≤ m' := Nat.cast_le.mpr (h.nearest.mono h'.nearest hle)
    gcongr
  · have hleast := h.least
    have hprecise := hf.precise
    have hm : (m : ℚ) ≤ (twoTo f.precision : ℕ) :=
      Nat.cast_le.mpr (h.nearest.le_of_scales h.toScales)
    have hm' : ((twoTo (f.precision - 1) : ℕ) : ℚ) ≤ m' :=
      Nat.cast_le.mpr ((h'.nearest.full_of_scales hf h'.toScales).resolve_left (by omega))
    calc (m : ℚ) * 2 ^ q ≤ (twoTo f.precision : ℕ) * 2 ^ q := by gcongr
      _ = 2 ^ (f.precision + q) := twoTo_mul_zpow ..
      _ ≤ 2 ^ ((f.precision - 1 : ℕ) + q') := zpow_le_zpow_right₀ one_le_two (by omega)
      _ = (twoTo (f.precision - 1) : ℕ) * 2 ^ q' := (twoTo_mul_zpow ..).symm
      _ ≤ m' * 2 ^ q' := by gcongr

theorem eq_zero (h : f.Rounds 0 m q) : m = 0 := by
  have hnear := h.nearest
  rw [zero_div, ← Nat.cast_zero] at hnear
  exact hnear.eq_of_natCast

/-- No number of the format is nearer than the significand in this unit. -/
theorem near (hf : f.Proper) (h : f.Rounds x m q) {b : Binary f} {y : ℚ} (hb : b.value? = some y) :
    |x - m * 2 ^ q| ≤ |x - y| ∧ (|x - y| = |x - m * 2 ^ q| → y ≠ m * 2 ^ q → m % 2 = 0) := by
  obtain ⟨neg, _, ⟨n, r, has, -, rfl⟩, hy⟩ := value?_eq_some_iff.mp hb
  have hunit : (0 : ℚ) < 2 ^ q := by positivity
  rcases le_or_gt q r with hle | hlt
  · obtain ⟨k, rfl⟩ := exists_units hle hy
    rw [abs_sub_units, abs_sub_units]
    refine ⟨mul_le_mul_of_nonneg_right (h.nearest.le_abs_sub k) hunit.le, fun htie hne => ?_⟩
    refine h.nearest.even_of_as_near (k := k) (fun hk => hne ?_) (mul_right_cancel₀ hunit.ne' htie)
    rw [hk, Int.cast_natCast]
  · -- The full significand lies between the number and `x`, and is on the grid itself.
    have hfull := h.full.resolve_left (has.2.1.trans_lt hlt).ne'
    have hbelow := lt_of_exponent_lt hlt has hy
    have hprecise := hf.precise
    have hgrid : ((twoTo (f.precision - 1) : ℕ) : ℚ) * 2 ^ q = 2 ^ ((f.precision : ℤ) - 1 + q) := by
      rw [twoTo_mul_zpow]
      congr 1
      omega
    have hnear : |x - m * 2 ^ q| ≤ |x - 2 ^ ((f.precision : ℤ) - 1 + q)| := by
      have hwhole := h.nearest.le_abs_sub (twoTo (f.precision - 1) : ℕ)
      rw [Int.cast_natCast] at hwhole
      rw [← hgrid, abs_sub_units, abs_sub_units]
      exact mul_le_mul_of_nonneg_right hwhole hunit.le
    rw [abs_of_nonneg (sub_nonneg.mpr hfull)] at hnear
    have hstrict : |x - m * 2 ^ q| < |x - y| := by
      rw [abs_of_nonneg (by linarith : 0 ≤ x - y)]
      linarith
    exact ⟨hstrict.le, fun htie => absurd htie hstrict.ne'⟩

/-- In units of the greatest exponent the limit is half a unit below the overflow. -/
theorem carries_iff (hf : f.Proper) (h : f.Rounds x m f.maxExponent) :
    m = twoTo f.precision ↔ f.limit ≤ x := by
  have hlimit : f.limit ≤ x ↔ (2 : ℚ) ^ f.precision - 1 / 2 ≤ x / 2 ^ f.maxExponent :=
    (le_div_iff₀ (by positivity)).symm
  have hle : m ≤ 2 ^ f.precision := h.nearest.le_of_scales h.toScales
  obtain ⟨hlow, hhigh⟩ := abs_le.mp h.nearest.near
  rw [hlimit]
  constructor
  · intro hcarry
    rw [hcarry, cast_twoTo] at hlow
    linarith
  · intro hx
    by_contra hne
    have hlt : m + 1 ≤ 2 ^ f.precision := Nat.lt_of_le_of_ne hle hne
    have hltQ : (m : ℚ) + 1 ≤ 2 ^ f.precision := by exact_mod_cast hlt
    -- So `x` is half a unit below the overflow, and the significand before it is odd.
    have htie : |x / 2 ^ f.maxExponent - m| = 1 / 2 := by rw [abs_of_nonneg] <;> linarith
    have heven := h.nearest.even htie
    have hsucc : (m : ℚ) + 1 = 2 ^ f.precision := by linarith
    have hsucc' : m + 1 = 2 ^ f.precision := by exact_mod_cast hsucc
    have hpow := Nat.two_pow_mod_two_eq_zero.mpr hf.precise
    omega

/-- Below the limit the significand is one of the format, or is carried over to one. -/
theorem exists_finite (hf : f.Proper) (h : f.Rounds x m q) (hx : x < f.limit) (neg : Bool) :
    ∃ n r has, (ofRounded neg m q : Binary f) = finite neg n r has ∧ (n : ℚ) * 2 ^ r = m * 2 ^ q ∧
      (1 < f.precision → m % 2 = 0 → n % 2 = 0) := by
  have hmax := h.le_maxExponent hf hx
  have hleast := h.least
  rw [ofRounded]
  split
  · next hcarry =>
      have hne : q ≠ f.maxExponent := by
        rintro rfl
        exact absurd ((h.carries_iff hf).mp hcarry) (not_le.mpr hx)
      have has : f.Has (twoTo (f.precision - 1)) (q + 1) :=
        ⟨Nat.pow_lt_pow_right one_lt_two (Nat.sub_lt hf.precise one_pos), by omega, by omega,
          .inr le_rfl⟩
      refine ⟨_, _, has, dif_pos has, ?_, fun hprecise _ => ?_⟩
      · rw [hcarry, carried_eq hf]
      · exact Nat.two_pow_mod_two_eq_zero.mpr (by omega)
  · next hne =>
      have has : f.Has m q := ⟨Nat.lt_of_le_of_ne (h.nearest.le_of_scales h.toScales) hne, hleast,
        hmax, h.nearest.full_of_scales hf h.toScales⟩
      exact ⟨m, q, has, dif_pos has, rfl, fun _ hm => hm⟩

theorem ofRounded_of_limit_le (hf : f.Proper) (h : f.Rounds x m q) (hx : f.limit ≤ x)
    (neg : Bool) : (ofRounded neg m q : Binary f) = infinite neg := by
  have hmax := h.maxExponent_le hx
  have hover : ∀ n r, f.maxExponent < r → (ofParts neg n r : Binary f) = infinite neg := by
    intro n r hr
    exact dif_neg fun has => absurd has.2.2.1 (not_le.mpr hr)
  rw [ofRounded]
  split
  · exact hover _ _ (by omega)
  · next hne =>
      refine hover _ _ (lt_of_le_of_ne hmax ?_)
      rintro rfl
      exact hne ((h.carries_iff hf).mpr hx)

end Format.Rounds

namespace Binary

variable {f : Format}

/-- `b` is the number that `x` rounds to in its format. -/
inductive Nearest (x : ℚ) : Binary f → Prop where
  | finite {neg : Bool} {m : ℕ} {q : ℤ} {has : f.Has m q} (small : |x| < f.limit)
      (near : ∀ (b : Binary f) y, b.value? = some y → |x - signed neg (m * 2 ^ q)| ≤ |x - y|)
      (even : ∀ (b : Binary f) y, b.value? = some y → |x - y| = |x - signed neg (m * 2 ^ q)| →
        y ≠ signed neg (m * 2 ^ q) → m % 2 = 0) :
      Nearest x (.finite neg m q has)
  | infinite {neg : Bool} (great : f.limit ≤ |x|) (sign : neg = true ↔ x < 0) :
      Nearest x (.infinite neg)

theorem Nearest.lt_limit {x y : ℚ} {b : Binary f} (h : Nearest x b) (hy : b.value? = some y) :
    |x| < f.limit := by
  cases h with
  | finite small => exact small
  | infinite great sign => cases hy

theorem exists_rounds (hf : f.Proper) (num : ℕ) {den : ℕ} (hden : 0 < den) :
    ∃ m q, f.Rounds (num / den) m q ∧ ∀ neg, round f neg num den = ofRounded neg m q := by
  rcases Nat.eq_zero_or_pos num with rfl | hnum
  · refine ⟨0, f.minExponent, ⟨⟨le_rfl, ?_, .inl rfl⟩, ?_⟩, fun neg => ?_⟩
    · rw [Nat.cast_zero, zero_div]
      positivity
    · rw [Nat.cast_zero, zero_div, zero_div]
      exact .of_lt (by norm_num)
    · rw [round, if_pos rfl, ofRounded, if_neg (twoTo_pos _).ne, zero]
  · obtain ⟨m, hnear, hround⟩ := round_eq (f := f) hnum hden
    exact ⟨m, _, ⟨scales_exponentOf hf hnum hden, hnear⟩, hround⟩

theorem abs_signed (neg : Bool) {x : ℚ} (hx : 0 ≤ x) : |signed neg x| = x := by
  cases neg with
  | false => exact abs_of_nonneg hx
  | true => exact (abs_neg x).trans (abs_of_nonneg hx)

theorem signed_lt_zero_iff (neg : Bool) {x : ℚ} (hx : 0 < x) : signed neg x < 0 ↔ neg = true := by
  cases neg with
  | false => simpa [signed] using hx.le
  | true => simpa [signed] using hx

theorem limit_pos (f : Format) : 0 < f.limit :=
  (zpow_pos two_pos (f.precision - 1 + f.maxExponent : ℤ)).trans_le f.le_limit

theorem round_nearest (hf : f.Proper) (hprecise : 1 < f.precision) (neg : Bool) (num : ℕ) {den : ℕ}
    (hden : 0 < den) : Nearest (signed neg (num / den)) (round f neg num den) := by
  have hpos : (0 : ℚ) ≤ num / den := by positivity
  obtain ⟨m, q, hrounds, hround⟩ := exists_rounds hf num hden
  rw [hround]
  rcases lt_or_ge ((num : ℚ) / den) f.limit with hsmall | hgreat
  · obtain ⟨n, r, has, heq, hvalue, heven⟩ := hrounds.exists_finite hf hsmall neg
    rw [heq]
    refine .finite (by rwa [abs_signed neg hpos]) (fun b y hb => ?_) fun b y hb htie hne => ?_
    · obtain ⟨b', hb'⟩ := exists_value?_signed neg hb
      rw [hvalue, abs_signed_sub, signed_signed, abs_signed_sub]
      exact (hrounds.near hf hb').1
    · obtain ⟨b', hb'⟩ := exists_value?_signed neg hb
      rw [hvalue] at htie hne
      rw [abs_signed_sub, abs_signed_sub, signed_signed] at htie
      refine heven hprecise ((hrounds.near hf hb').2 htie fun heq => hne ?_)
      rw [← heq, signed_signed]
  · rw [hrounds.ofRounded_of_limit_le hf hgreat]
    refine .infinite (by rwa [abs_signed neg hpos]) ?_
    exact (signed_lt_zero_iff neg ((limit_pos f).trans_le hgreat)).symm

/-- A whole number is rounded as any other. -/
theorem ofInt_nearest (hf : f.Proper) (hprecise : 1 < f.precision) (n : ℤ) :
    Nearest (n : ℚ) (ofInt f n) := by
  have hvalue : signed (n < 0) (n.natAbs / (1 : ℕ)) = (n : ℚ) := by
    rw [Nat.cast_one, div_one, signed]
    rcases lt_or_ge n 0 with hneg | hpos
    · rw [if_pos (decide_eq_true hneg), ← Int.cast_natCast, Int.ofNat_natAbs_of_nonpos hneg.le,
        Int.cast_neg, neg_neg]
    · rw [if_neg (by simpa using hpos), ← Int.cast_natCast, Int.natAbs_of_nonneg hpos]
  rw [← hvalue]
  exact round_nearest hf hprecise _ _ one_pos

/-- A product of finite numbers is the exact product, rounded. -/
theorem mul_nearest (hf : f.Proper) (hprecise : 1 < f.precision) {a b : Binary f} {x y : ℚ}
    (ha : a.value? = some x) (hb : b.value? = some y) : Nearest (x * y) (a.mul b) := by
  obtain ⟨s, x, hx, rfl⟩ := value?_eq_some_iff.mp ha
  obtain ⟨t, y, hy, rfl⟩ := value?_eq_some_iff.mp hb
  obtain ⟨num, den, hden, hquotient, hmul⟩ := hx.mul hy
  rw [signed_mul_signed, ← hquotient, hmul]
  exact round_nearest hf hprecise _ num hden

theorem value?_ofRounded (hf : f.Proper) {x y : ℚ} {m : ℕ} {q : ℤ} (h : f.Rounds x m q) {neg : Bool}
    (hy : (ofRounded neg m q : Binary f).value? = some y) : y = signed neg (m * 2 ^ q) := by
  rcases lt_or_ge x f.limit with hsmall | hgreat
  · obtain ⟨n, r, has, heq, hvalue, -⟩ := h.exists_finite hf hsmall neg
    rw [heq, value?, hvalue] at hy
    exact (Option.some_inj.mp hy).symm
  · rw [h.ofRounded_of_limit_le hf hgreat] at hy
    cases hy

/-- Rounding keeps the order. -/
theorem round_mono (hf : f.Proper) {s t : Bool} {num den num' den' : ℕ} {y y' : ℚ}
    (hden : 0 < den) (hden' : 0 < den') (h : signed s (num / den) ≤ signed t (num' / den'))
    (hy : (round f s num den).value? = some y) (hy' : (round f t num' den').value? = some y') :
    y ≤ y' := by
  obtain ⟨m, q, hrounds, hround⟩ := exists_rounds hf num hden
  obtain ⟨m', q', hrounds', hround'⟩ := exists_rounds hf num' hden'
  rw [hround] at hy
  rw [hround'] at hy'
  rw [value?_ofRounded hf hrounds hy, value?_ofRounded hf hrounds' hy']
  have hpos : (0 : ℚ) ≤ m * 2 ^ q := by positivity
  have hpos' : (0 : ℚ) ≤ m' * 2 ^ q' := by positivity
  cases s with
  | false =>
      cases t with
      | false => exact hrounds.mono hf hrounds' h
      | true =>
          -- Nothing but zero is both positive and negative.
          have hx : (0 : ℚ) ≤ num / den := by positivity
          have hx' : (0 : ℚ) ≤ num' / den' := by positivity
          have hle : (num : ℚ) / den ≤ -(num' / den') := h
          rw [show (num : ℚ) / den = 0 by linarith] at hrounds
          rw [show (num' : ℚ) / den' = 0 by linarith] at hrounds'
          rw [hrounds.eq_zero, hrounds'.eq_zero]
          simp [signed]
  | true =>
      cases t with
      | false => exact (neg_nonpos.mpr hpos).trans hpos'
      | true => exact neg_le_neg (hrounds'.mono hf hrounds (neg_le_neg_iff.mp h))

/-- So does multiplying with a number that is not negative. -/
theorem mul_mono (hf : f.Proper) {a a' b : Binary f} {x x' y y' z : ℚ} (hb : b.Is false z)
    (ha : a.value? = some x) (ha' : a'.value? = some x') (h : x ≤ x')
    (hy : (a.mul b).value? = some y) (hy' : (a'.mul b).value? = some y') : y ≤ y' := by
  obtain ⟨s, x, hx, rfl⟩ := value?_eq_some_iff.mp ha
  obtain ⟨t, x', hx', rfl⟩ := value?_eq_some_iff.mp ha'
  obtain ⟨num, den, hden, hquotient, hmul⟩ := hx.mul hb
  obtain ⟨num', den', hden', hquotient', hmul'⟩ := hx'.mul hb
  rw [hmul] at hy
  rw [hmul'] at hy'
  refine round_mono hf hden hden' ?_ hy hy'
  rw [hquotient, hquotient', ← signed_mul_signed, ← signed_mul_signed]
  exact mul_le_mul_of_nonneg_right h hb.nonneg

end Binary

end ServiceCodec
