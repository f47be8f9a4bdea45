import ServiceCodec.Proofs.Binary.Nearest
import ServiceCodec.Proofs.Timestamp.Drift

/-!
# Reading seconds keeps their order

Seconds are read in three steps: the product with a thousand, the nearest whole
number of milliseconds, and the instant that lies so far from the epoch. Each
step can refuse, and none of them wraps. A product may be too great for its
format, and then it is an infinity, which has no nearest whole number; and the
range of instants ends long before a whole number becomes too great for 64 bits.
A cast to 64 bits between the last two steps, which takes what is too great to
the ends of its range, would change nothing (`ofSeconds?_eq_cast`).

Each step keeps the order of what it is given, so they do together
(`ofSeconds_mono`).
-/

namespace ServiceCodec

namespace Binary

variable {f : Format} {x y : ℚ} {m n : ℤ}

/-- `m` is the whole number nearest to `x`; a half goes away from zero. -/
structure NearestAway (x : ℚ) (m : ℤ) : Prop where
  near : |x - m| ≤ 1 / 2
  away : |x - m| = 1 / 2 → |x| ≤ |(m : ℚ)|

namespace NearestAway

theorem mono (hx : NearestAway x m) (hy : NearestAway y n) (h : x ≤ y) : m ≤ n := by
  by_contra hlt
  have hsucc : (n : ℚ) + 1 ≤ m := by exact_mod_cast not_le.mp hlt
  have hlow := (abs_le.mp hx.near).1
  have hhigh := (abs_le.mp hy.near).2
  -- Both are the half between `n` and `m`, which went up and down.
  have hxm : x = m - 1 / 2 := by linarith
  have hyn : y = n + 1 / 2 := by linarith
  have hneighbours : m = n + 1 := by
    have : (m : ℚ) = n + 1 := by linarith
    exact_mod_cast this
  have hup := hx.away (by rw [hxm, abs_of_nonpos] <;> linarith)
  have hdown := hy.away (by rw [hyn, abs_of_nonneg] <;> linarith)
  rcases lt_or_ge n 0 with hneg | hpos
  · have hm : (m : ℚ) ≤ 0 := by exact_mod_cast (by omega : m ≤ 0)
    rw [abs_of_nonpos hm, abs_of_nonpos (by linarith)] at hup
    linarith
  · have hn : (0 : ℚ) ≤ n := by exact_mod_cast hpos
    rw [abs_of_nonneg hn, abs_of_nonneg (by linarith)] at hdown
    linarith

theorem unique (h : NearestAway x m) (h' : NearestAway x n) : m = n :=
  le_antisymm (h.mono h' le_rfl) (h'.mono h le_rfl)

theorem neg (h : NearestAway x m) : NearestAway (-x) (-m) := by
  have habs : |-x - (-m : ℤ)| = |x - m| := by
    rw [← abs_neg]
    congr 1
    push_cast
    ring
  refine ⟨habs ▸ h.near, fun htie => ?_⟩
  rw [abs_neg, Int.cast_neg, abs_neg]
  exact h.away (habs ▸ htie)

end NearestAway

theorem nearestAway_floor (hx : 0 ≤ x) : NearestAway x (⌊x + 1 / 2⌋₊ : ℤ) := by
  have hlow := Nat.floor_le (by linarith : 0 ≤ x + 1 / 2)
  have hhigh := Nat.lt_floor_add_one (x + 1 / 2)
  refine ⟨?_, fun htie => ?_⟩
  · rw [Int.cast_natCast, abs_le]
    constructor <;> linarith
  · rw [Int.cast_natCast] at htie ⊢
    rw [abs_of_nonneg hx, Nat.abs_cast]
    rcases abs_cases (x - (⌊x + 1 / 2⌋₊ : ℚ)) with ⟨h, -⟩ | ⟨h, -⟩ <;> linarith

theorem roundAway?_eq_some_iff {b : Binary f} :
    b.roundAway? = some m ↔ ∃ x, b.value? = some x ∧ NearestAway x m := by
  have hsome : ∀ {neg x}, b.Is neg x →
      ∃ n, b.roundAway? = some n ∧ NearestAway (signed neg x) n := by
    intro neg x his
    refine ⟨_, his.roundAway?, ?_⟩
    cases neg with
    | false => exact nearestAway_floor his.nonneg
    | true => exact (nearestAway_floor his.nonneg).neg
  constructor
  · intro h
    cases b with
    | finite neg n q has =>
        obtain ⟨n', hn', haway⟩ := hsome ⟨n, q, has, rfl, rfl⟩
        obtain rfl := Option.some_inj.mp (h.symm.trans hn')
        exact ⟨_, rfl, haway⟩
    | infinite neg => cases h
    | nan => cases h
  · rintro ⟨x, hx, haway⟩
    obtain ⟨neg, y, his, rfl⟩ := value?_eq_some_iff.mp hx
    obtain ⟨n, hn, haway'⟩ := hsome his
    rw [hn, haway.unique haway']

end Binary

namespace Timestamp

open Binary

variable {s s' : Binary binary64} {t t' : Timestamp} {ms ms' : ℤ}

/-- Instants are ordered by their seconds, and within a second by their nanoseconds. -/
instance : LE Timestamp where
  le t t' := t.seconds < t'.seconds ∨ t.seconds = t'.seconds ∧ t.nanos ≤ t'.nanos

/-- The instant is `ms` milliseconds from the epoch, with nothing below the millisecond. -/
structure At (t : Timestamp) (ms : ℤ) : Prop where
  millis : t.toMillis = ms
  whole : t.nanos % 1000000 = 0
  regular : t.nanos < 1000000000

theorem At.le_of_le (h : t.At ms) (h' : t'.At ms') (hle : ms ≤ ms') : t ≤ t' := by
  obtain ⟨hmillis, hwhole, hregular⟩ := h
  obtain ⟨hmillis', hwhole', hregular'⟩ := h'
  rw [toMillis] at hmillis hmillis'
  show t.seconds < t'.seconds ∨ t.seconds = t'.seconds ∧ t.nanos ≤ t'.nanos
  omega

theorem ofParts?_eq_some_iff {seconds : ℤ} {nanos : ℕ} :
    ofParts? seconds nanos = some t ↔ t.seconds = seconds ∧ t.nanos = nanos := by
  constructor
  · intro h
    rw [ofParts?] at h
    split at h
    · split at h
      · obtain rfl := Option.some_inj.mp h
        exact ⟨rfl, rfl⟩
      · cases h
    · cases h
  · rintro ⟨rfl, rfl⟩
    rw [ofParts?, dif_pos t.inRange, dif_pos t.nanosFit]

theorem ofMillis?_eq_some_iff :
    ofMillis? ms = some t ↔ minSeconds * 1000 ≤ ms ∧ ms ≤ maxMillis ∧ t.At ms := by
  have hrange := t.inRange
  rw [ofMillis?, ofParts?_eq_some_iff, maxMillis]
  constructor
  · rintro ⟨hseconds, hnanos⟩
    refine ⟨by omega, by omega, ?_, by omega, by omega⟩
    rw [toMillis]
    omega
  · rintro ⟨-, -, hmillis, hwhole, hregular⟩
    rw [toMillis] at hmillis
    omega

/-- The whole number of 64 bits that is nearest to `n`. -/
def saturated (n : ℤ) : ℤ := max (-2 ^ 63) (min n (2 ^ 63 - 1))

/-- The cast of the nearest whole number to 64 bits, where infinities become the ends of the
range, and what is no number becomes zero. -/
def toInt64 : Binary binary64 → ℤ
  | .finite neg m q _ => saturated (if neg then -(nearestAway m q : ℤ) else nearestAway m q)
  | .infinite neg => if neg then -2 ^ 63 else 2 ^ 63 - 1
  | .nan => 0

theorem ofMillis?_saturated (ms : ℤ) : ofMillis? (saturated ms) = ofMillis? ms := by
  have hcast : saturated ms = ms ∨ (ms < -2 ^ 63 ∧ saturated ms = -2 ^ 63) ∨
      (2 ^ 63 ≤ ms ∧ saturated ms = 2 ^ 63 - 1) := by
    rw [saturated]
    omega
  rcases hcast with hsame | ⟨hlow, hend⟩ | ⟨hhigh, hend⟩
  · rw [hsame]
  · ext t
    simp only [hend, ofMillis?_eq_some_iff, minSeconds]
    omega
  · ext t
    simp only [hend, ofMillis?_eq_some_iff, maxMillis, maxSeconds]
    omega

/-- The seconds are accepted, as so many milliseconds. -/
structure Accepts (s : Binary binary64) (ms : ℤ) : Prop where
  finite : s.isFinite = true
  rounded : ∃ y, (s.mul thousand).value? = some y ∧ NearestAway y ms
  low : -8334601228800000 ≤ ms
  high : ms ≤ 8210266876799999

theorem ofSeconds?_eq_some_iff : ofSeconds? s = some t ↔ ∃ ms, Accepts s ms ∧ t.At ms := by
  rw [ofSeconds?]
  constructor
  · intro h
    split at h
    · next hfinite =>
        obtain ⟨ms, hms, hmillis⟩ := Option.bind_eq_some_iff.mp h
        obtain ⟨hlow, hhigh, hat⟩ := ofMillis?_eq_some_iff.mp hmillis
        exact ⟨ms, ⟨hfinite, roundAway?_eq_some_iff.mp hms, hlow, hhigh⟩, hat⟩
    · cases h
  · rintro ⟨ms, ⟨hfinite, hrounded, hlow, hhigh⟩, hat⟩
    rw [if_pos hfinite, roundAway?_eq_some_iff.mpr hrounded, Option.bind_some]
    exact ofMillis?_eq_some_iff.mpr ⟨hlow, hhigh, hat⟩

theorem ofSeconds_eq_ok_iff : ofSeconds s = .ok t ↔ ∃ ms, Accepts s ms ∧ t.At ms := by
  rw [← ofSeconds?_eq_some_iff, ofSeconds]
  cases ofSeconds? s with
  | none => simp
  | some t' => simp

theorem value?_thousand : thousand.value? = some 1000 :=
  value?_eq_some_iff.mpr ⟨false, 1000, thousand_is, rfl⟩

theorem mul_thousand_nearest {x : ℚ} (h : s.value? = some x) :
    Nearest (x * 1000) (s.mul thousand) :=
  mul_nearest binary64_proper (by decide) h value?_thousand

theorem exists_value?_of_isFinite (h : s.isFinite = true) : ∃ x, s.value? = some x := by
  cases s with
  | finite neg m q has => exact ⟨_, rfl⟩
  | infinite neg => cases h
  | nan => cases h

/-- Neither an infinite product nor a great finite one becomes an instant on its way through the
cast. -/
theorem ofSeconds?_eq_cast (s : Binary binary64) :
    ofSeconds? s = if s.isFinite then ofMillis? (toInt64 (s.mul thousand)) else none := by
  rw [ofSeconds?]
  split
  · next hfinite =>
      obtain ⟨x, hx⟩ := exists_value?_of_isFinite hfinite
      have hnearest := mul_thousand_nearest hx
      generalize s.mul thousand = product at hnearest
      cases hnearest with
      | finite => exact (ofMillis?_saturated _).symm
      | @infinite neg =>
          cases neg with
          | false => rfl
          | true => rfl
  · rfl

theorem Accepts.bounded (h : Accepts s ms) : ∃ x y, s.value? = some x ∧
    |x * 1000| < binary64.limit ∧ (s.mul thousand).value? = some y ∧ -2 ^ 63 ≤ y ∧ y < 2 ^ 63 := by
  obtain ⟨hfinite, ⟨y, hy, haway⟩, hlow, hhigh⟩ := h
  obtain ⟨x, hx⟩ := exists_value?_of_isFinite hfinite
  have hlowQ : (-8334601228800000 : ℚ) ≤ ms := by exact_mod_cast hlow
  have hhighQ : (ms : ℚ) ≤ 8210266876799999 := by exact_mod_cast hhigh
  obtain ⟨hbelow, habove⟩ := abs_le.mp haway.near
  refine ⟨x, y, hx, (mul_thousand_nearest hx).lt_limit hy, hy, ?_, ?_⟩
  · linarith
  · linarith

theorem ofSeconds_mono {x x' : ℚ} (hx : s.value? = some x) (hx' : s'.value? = some x')
    (hle : x ≤ x') (h : ofSeconds s = .ok t) (h' : ofSeconds s' = .ok t') : t ≤ t' := by
  obtain ⟨ms, hms, hat⟩ := ofSeconds_eq_ok_iff.mp h
  obtain ⟨ms', hms', hat'⟩ := ofSeconds_eq_ok_iff.mp h'
  obtain ⟨y, hy, haway⟩ := hms.rounded
  obtain ⟨y', hy', haway'⟩ := hms'.rounded
  have hproduct : y ≤ y' := mul_mono binary64_proper thousand_is hx hx' hle hy hy'
  exact hat.le_of_le hat' (haway.mono haway' hproduct)

theorem ofSeconds_of_accepts (h : Accepts s ms) : ∃ t, ofSeconds s = .ok t ∧ t.At ms := by
  obtain ⟨t, hmillis, -⟩ := ofMillis?_eq_some h.low h.high
  obtain ⟨-, -, hat⟩ := ofMillis?_eq_some_iff.mp hmillis
  exact ⟨t, ofSeconds_eq_ok_iff.mpr ⟨ms, h, hat⟩, hat⟩

theorem ofSeconds_of_not_accepts (h : ¬ ∃ ms, Accepts s ms) :
    ofSeconds s = .error (.timestampOutOfRange s) := by
  rw [ofSeconds]
  cases hsome : ofSeconds? s with
  | none => rfl
  | some t =>
      obtain ⟨ms, hms, -⟩ := ofSeconds?_eq_some_iff.mp hsome
      exact absurd ⟨ms, hms⟩ h

theorem decodeOptional_of_ne_null {v : Json} (h : v ≠ .null) :
    decodeOptional v = (decode v).map some := by
  cases v with
  | null => exact absurd rfl h
  | bool | number | string | array | object => rfl

/-- Nothing but a number stands for an instant. -/
theorem decode_of_not_number {v : Json} (h : ∀ n, v ≠ .number n) :
    decode v = .error (.mismatch "a number" v.kind) := by
  cases v with
  | number n => exact absurd rfl (h n)
  | null | bool | string | array | object => rfl

/-- Seconds are read as an instant just when they are finite and the nearest whole number of
milliseconds is in range, and then it is the instant of those milliseconds. What overflows on the
way is refused, with or without a cast to 64 bits that saturates. Greater seconds are never an
earlier instant. A number in a document stands for seconds, a whole one for those nearest to it in
binary64, and nothing else does; an optional member reads the same numbers in the same way. -/
theorem seconds_decode_in_order :
    (∀ s ms, Accepts s ms → ∃ t, ofSeconds s = .ok t ∧ t.At ms) ∧
    (∀ s, (¬ ∃ ms, Accepts s ms) → ofSeconds s = .error (.timestampOutOfRange s)) ∧
    (∀ (s : Binary binary64) x, s.value? = some x → Nearest (x * 1000) (s.mul thousand)) ∧
    (∀ s ms, Accepts s ms → ∃ x y, s.value? = some x ∧ |x * 1000| < binary64.limit ∧
      (s.mul thousand).value? = some y ∧ -2 ^ 63 ≤ y ∧ y < 2 ^ 63) ∧
    (∀ s, ofSeconds? s = if s.isFinite then ofMillis? (toInt64 (s.mul thousand)) else none) ∧
    (∀ (s s' : Binary binary64) x x' t t', s.value? = some x → s'.value? = some x' → x ≤ x' →
      ofSeconds s = .ok t → ofSeconds s' = .ok t' → t ≤ t') ∧
    (∀ v, decode v = (Decoder.double v).bind ofSeconds) ∧
    (∀ s, decode (.number (.float s)) = ofSeconds s) ∧
    (∀ n, decode (.number (.int n)) = ofSeconds (Binary.ofInt binary64 n) ∧
      Nearest (n : ℚ) (Binary.ofInt binary64 n)) ∧
    (∀ v, (∀ n, v ≠ .number n) → decode v = .error (.mismatch "a number" v.kind)) ∧
    (∀ v, v ≠ .null → decodeOptional v = (decode v).map some) ∧
    decodeOptional .null = .ok none :=
  ⟨fun _ _ => ofSeconds_of_accepts, fun _ => ofSeconds_of_not_accepts,
    fun _ _ => mul_thousand_nearest, fun _ _ => Accepts.bounded, ofSeconds?_eq_cast,
    fun _ _ _ _ _ _ hx hx' hle h h' => ofSeconds_mono hx hx' hle h h', fun _ => rfl,
    fun _ => rfl, fun n => ⟨rfl, ofInt_nearest binary64_proper (by decide) n⟩,
    fun _ => decode_of_not_number, fun _ => decodeOptional_of_ne_null, rfl⟩

end Timestamp

end ServiceCodec
