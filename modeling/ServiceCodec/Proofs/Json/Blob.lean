import Mathlib.Data.List.Basic
import Mathlib.Data.Option.Basic
import ServiceCodec.Blob

/-!
# Bytes have one spelling

A blob is read exactly from the string that it is written as. So nothing is lost
when bytes are written, and a string that is read is the one that writing gives:
there is no second spelling with other padding, with blanks or line ends in it, or
with anything in the bits that the last symbol leaves over.

The string itself is described by its bits (`Base64.Spells`). Each symbol stands
for the six bits of its place in the alphabet; together they are the bits of the
bytes, filled up with zeros to the next symbol, and the symbols are filled up with
`=` to the next group of four. This leaves no choice, so it is enough to see that
the encoder writes such a string (`spells_encode`) and that the decoder undoes the
encoder and nothing else (`decode_eq_some_iff`). The encoder and the decoder do
arithmetic on whole groups instead of bits; `bits_split` takes the one apart into
the other.
-/

namespace ServiceCodec

namespace Base64

/-! ## Bits -/

/-- The last `k` bits of a number, the greatest first. -/
def bits : Nat → Nat → List Bool
  | 0, _ => []
  | k + 1, n => bits k (n / 2) ++ [decide (n % 2 = 1)]

theorem length_bits (k n : Nat) : (bits k n).length = k := by
  induction k generalizing n with
  | zero => rfl
  | succ k ih => rw [bits, List.length_append, ih, List.length_singleton]

theorem bits_append {k l m n : Nat} (h : n < twoTo l) :
    bits k m ++ bits l n = bits (k + l) (m * twoTo l + n) := by
  induction l generalizing n with
  | zero =>
      obtain rfl : n = 0 := Nat.lt_one_iff.mp h
      simp [bits]
  | succ l ih =>
      have hdouble : m * twoTo (l + 1) = 2 * (m * twoTo l) := by
        rw [twoTo_succ, Nat.mul_left_comm]
      rw [twoTo_succ] at h
      have hdiv : (m * twoTo (l + 1) + n) / 2 = m * twoTo l + n / 2 := by omega
      have hmod : (m * twoTo (l + 1) + n) % 2 = n % 2 := by omega
      rw [← Nat.add_assoc, bits, bits, hdiv, hmod, ← ih (by omega), List.append_assoc]

theorem bits_split (k l n : Nat) :
    bits (k + l) n = bits k (n / twoTo l) ++ bits l (n % twoTo l) := by
  rw [bits_append (Nat.mod_lt n (twoTo_pos l)), Nat.div_add_mod']

theorem eq_of_bits {k m n : Nat} (hm : m < twoTo k) (hn : n < twoTo k) (h : bits k m = bits k n) :
    m = n := by
  induction k generalizing m n with
  | zero => exact (Nat.lt_one_iff.mp hm).trans (Nat.lt_one_iff.mp hn).symm
  | succ k ih =>
      rw [twoTo_succ] at hm hn
      rw [bits, bits] at h
      obtain ⟨hinit, hlast⟩ := List.append_inj' h rfl
      have hhalf : m / 2 = n / 2 := ih (by omega) (by omega) hinit
      have hparity : m % 2 = 1 ↔ n % 2 = 1 := by simpa using hlast
      omega

/-- Blocks of six bits are told apart. -/
theorem eq_of_flatMap_bits {ms ns : List Nat} (hms : ∀ m ∈ ms, m < 64) (hns : ∀ n ∈ ns, n < 64)
    (h : ms.flatMap (bits 6) = ns.flatMap (bits 6)) : ms = ns := by
  induction ms generalizing ns with
  | nil =>
      cases ns with
      | nil => rfl
      | cons n ns => simp [List.flatMap_cons, bits] at h
  | cons m ms ih =>
      cases ns with
      | nil => simp [List.flatMap_cons, bits] at h
      | cons n ns =>
          rw [List.flatMap_cons, List.flatMap_cons] at h
          have hlength : (bits 6 m).length = (bits 6 n).length := by rw [length_bits, length_bits]
          obtain ⟨hhead, htail⟩ := List.append_inj h hlength
          rw [eq_of_bits (hms m List.mem_cons_self) (hns n List.mem_cons_self) hhead,
            ih (fun x hx => hms x (List.mem_cons_of_mem _ hx))
              (fun x hx => hns x (List.mem_cons_of_mem _ hx)) htail]

/-! ## Spelling -/

/-- The symbols in the order of their values. -/
def alphabet : List Char :=
  "ABCDEFGHIJKLMNOPQRSTUVWXYZabcdefghijklmnopqrstuvwxyz0123456789+/".toList

/-- The text of the bytes: their bits in symbols of six, with zeros in the bits that the last
symbol has to spare, and padding up to a group of four. -/
inductive Spells : List Char → Bytes → Prop where
  | mk {symbols : List Char} {sextets : List Nat} {bytes : Bytes} {spare padding : Nat}
      (hsymbols : symbols.map some = sextets.map (alphabet[·]?))
      (hbits : sextets.flatMap (bits 6) =
        bytes.flatMap (fun b => bits 8 b.toNat) ++ List.replicate spare false)
      (hspare : spare < 6) (hgroups : (symbols.length + padding) % 4 = 0) (hpadding : padding < 4) :
      Spells (symbols ++ List.replicate padding '=') bytes

theorem length_flatMap_bits (ns : List Nat) : (ns.flatMap (bits 6)).length = 6 * ns.length := by
  induction ns with
  | nil => rfl
  | cons n ns ih =>
      rw [List.flatMap_cons, List.length_append, length_bits, ih, List.length_cons]
      omega

theorem length_alphabet : alphabet.length = 64 := by decide

theorem lt_of_symbols {symbols : List Char} {sextets : List Nat}
    (h : symbols.map some = sextets.map (alphabet[·]?)) : ∀ n ∈ sextets, n < 64 := by
  intro n hn
  have hmem : alphabet[n]? ∈ symbols.map some := by
    rw [h]
    exact List.mem_map_of_mem hn
  obtain ⟨c, -, hc⟩ := List.mem_map.mp hmem
  obtain ⟨hlt, -⟩ := List.getElem?_eq_some_iff.mp hc.symm
  rwa [length_alphabet] at hlt

/-- Bytes have one text at most. -/
theorem Spells.unique {text text' : List Char} {bytes : Bytes} (h : Spells text bytes)
    (h' : Spells text' bytes) : text = text' := by
  cases h with
  | @mk symbols sextets _ spare padding hsymbols hbits hspare hgroups hpadding =>
      cases h' with
      | @mk symbols' sextets' _ spare' padding' hsymbols' hbits' hspare' hgroups' hpadding' =>
          have hlength := congrArg List.length hbits
          have hlength' := congrArg List.length hbits'
          rw [length_flatMap_bits, List.length_append, List.length_replicate] at hlength hlength'
          obtain rfl : spare = spare' := by omega
          obtain rfl : sextets = sextets' :=
            eq_of_flatMap_bits (lt_of_symbols hsymbols) (lt_of_symbols hsymbols')
              (hbits.trans hbits'.symm)
          obtain rfl : symbols = symbols' :=
            List.map_injective_iff.mpr (Option.some_injective Char)
              (hsymbols.trans hsymbols'.symm)
          obtain rfl : padding = padding' := by omega
          rfl

/-! ## Writing -/

theorem alphabet_getElem? : ∀ n < 64, alphabet[n]? = some (symbol n) := by decide

theorem map_alphabet {ns : List Nat} (h : ∀ n ∈ ns, n < 64) :
    (ns.map symbol).map some = ns.map (alphabet[·]?) := by
  rw [List.map_map]
  exact List.map_congr_left fun n hn => (alphabet_getElem? n (h n hn)).symm

section Groups

variable {a b c : UInt8} {n : Nat}

theorem bits_of_one (hn : n = a.toNat * 16) :
    bits 6 (n / 64) ++ bits 6 (n % 64) = bits 8 a.toNat ++ List.replicate 4 false := by
  have hzeros : bits 4 0 = List.replicate 4 false := rfl
  have hsplit : bits 12 n = bits 6 (n / 64) ++ bits 6 (n % 64) := bits_split 6 6 n
  rw [← hsplit, hn, ← hzeros, bits_append (twoTo_pos 4)]
  rfl

theorem bits_of_two (hn : n = (a.toNat * 256 + b.toNat) * 4) :
    bits 6 (n / 4096) ++ (bits 6 (n / 64 % 64) ++ bits 6 (n % 64)) =
      bits 8 a.toNat ++ (bits 8 b.toNat ++ List.replicate 2 false) := by
  have hzeros : bits 2 0 = List.replicate 2 false := rfl
  have hlast : bits 18 n = bits 12 (n / 64) ++ bits 6 (n % 64) := bits_split 12 6 n
  have hinit : bits 12 (n / 64) = bits 6 (n / 64 / 64) ++ bits 6 (n / 64 % 64) :=
    bits_split 6 6 (n / 64)
  have hdiv : n / 4096 = n / 64 / 64 := by omega
  rw [hdiv, ← List.append_assoc, ← hinit, ← hlast, hn, ← hzeros,
    ← List.append_assoc (bits 8 a.toNat), bits_append b.toNat_lt, bits_append (twoTo_pos 2)]
  rfl

theorem bits_of_three (hn : n = (a.toNat * 256 + b.toNat) * 256 + c.toNat) :
    bits 6 (n / 262144) ++ (bits 6 (n / 4096 % 64) ++ (bits 6 (n / 64 % 64) ++ bits 6 (n % 64))) =
      bits 8 a.toNat ++ (bits 8 b.toNat ++ bits 8 c.toNat) := by
  have hlast : bits 24 n = bits 18 (n / 64) ++ bits 6 (n % 64) := bits_split 18 6 n
  have hinner : bits 18 (n / 64) = bits 12 (n / 64 / 64) ++ bits 6 (n / 64 % 64) :=
    bits_split 12 6 (n / 64)
  have hinit : bits 12 (n / 64 / 64) = bits 6 (n / 64 / 64 / 64) ++ bits 6 (n / 64 / 64 % 64) :=
    bits_split 6 6 (n / 64 / 64)
  have hdiv : n / 4096 = n / 64 / 64 := by omega
  have hdiv' : n / 262144 = n / 64 / 64 / 64 := by omega
  rw [hdiv, hdiv', ← List.append_assoc, ← hinit, ← List.append_assoc, ← hinner, ← hlast, hn,
    ← List.append_assoc (bits 8 a.toNat), bits_append b.toNat_lt, bits_append c.toNat_lt]

theorem spells_one (hn : n = a.toNat * 16) :
    Spells [symbol (n / 64), symbol (n % 64), '=', '='] [a] := by
  have ha := a.toNat_lt
  have hlt : ∀ m ∈ [n / 64, n % 64], m < 64 := by
    intro m hm
    simp only [List.mem_cons, List.not_mem_nil, or_false] at hm
    omega
  have hbits : [n / 64, n % 64].flatMap (bits 6) =
      [a].flatMap (fun b => bits 8 b.toNat) ++ List.replicate 4 false := by
    simpa using bits_of_one hn
  have hmk := @Spells.mk _ _ [a] 4 2 (map_alphabet hlt) hbits (by decide) (by simp) (by decide)
  exact hmk

theorem spells_two (hn : n = (a.toNat * 256 + b.toNat) * 4) :
    Spells [symbol (n / 4096), symbol (n / 64 % 64), symbol (n % 64), '='] [a, b] := by
  have ha := a.toNat_lt
  have hb := b.toNat_lt
  have hlt : ∀ m ∈ [n / 4096, n / 64 % 64, n % 64], m < 64 := by
    intro m hm
    simp only [List.mem_cons, List.not_mem_nil, or_false] at hm
    omega
  have hbits : [n / 4096, n / 64 % 64, n % 64].flatMap (bits 6) =
      [a, b].flatMap (fun b => bits 8 b.toNat) ++ List.replicate 2 false := by
    simpa using bits_of_two hn
  have hmk := @Spells.mk _ _ [a, b] 2 1 (map_alphabet hlt) hbits (by decide) (by simp) (by decide)
  exact hmk

theorem spells_three (hn : n = (a.toNat * 256 + b.toNat) * 256 + c.toNat) {text : List Char}
    {rest : Bytes} (h : Spells text rest) :
    Spells (symbol (n / 262144) :: symbol (n / 4096 % 64) :: symbol (n / 64 % 64) ::
      symbol (n % 64) :: text) (a :: b :: c :: rest) := by
  have ha := a.toNat_lt
  have hb := b.toNat_lt
  have hc := c.toNat_lt
  have hlt : ∀ m ∈ [n / 262144, n / 4096 % 64, n / 64 % 64, n % 64], m < 64 := by
    intro m hm
    simp only [List.mem_cons, List.not_mem_nil, or_false] at hm
    omega
  cases h with
  | @mk symbols sextets _ spare padding hsymbols hbits hspare hgroups hpadding =>
      have hsymbols' := congrArg₂ (· ++ ·) (map_alphabet hlt) hsymbols
      have hbits' : ([n / 262144, n / 4096 % 64, n / 64 % 64, n % 64] ++ sextets).flatMap (bits 6) =
          (a :: b :: c :: rest).flatMap (fun b => bits 8 b.toNat) ++
            List.replicate spare false := by
        simp only [List.flatMap_append, List.flatMap_cons, List.flatMap_nil, List.append_nil,
          hbits, bits_of_three hn, List.append_assoc]
      rw [← List.map_append, ← List.map_append] at hsymbols'
      have hmk := Spells.mk hsymbols' hbits' hspare (by simp; omega) hpadding
      exact hmk

end Groups

theorem spells_encode (bytes : Bytes) : Spells (encode bytes) bytes := by
  induction bytes using encode.induct with
  | case1 => exact @Spells.mk [] [] [] 0 0 rfl rfl (by decide) rfl (by decide)
  | case2 a => exact spells_one rfl
  | case3 a b => exact spells_two rfl
  | case4 a b c rest ih => exact spells_three rfl ih

/-! ## Reading -/

theorem value?_symbol : ∀ n < 64, value? (symbol n) = some n := by decide

theorem symbol_ne_padding : ∀ n < 64, symbol n ≠ '=' := by decide

theorem value?_eq_some {c : Char} {n : Nat} (h : value? c = some n) : n < 64 ∧ symbol n = c := by
  have hchar (m : Nat) (hm : m = c.toNat) : Char.ofNat m = c := by rw [hm, Char.ofNat_toNat]
  rw [value?] at h
  split at h
  · obtain rfl := Option.some_inj.mp h
    rw [symbol, if_pos (by omega)]
    exact ⟨by omega, hchar _ (by omega)⟩
  · split at h
    · obtain rfl := Option.some_inj.mp h
      rw [symbol, if_neg (by omega), if_pos (by omega)]
      exact ⟨by omega, hchar _ (by omega)⟩
    · split at h
      · obtain rfl := Option.some_inj.mp h
        rw [symbol, if_neg (by omega), if_neg (by omega), if_pos (by omega)]
        exact ⟨by omega, hchar _ (by omega)⟩
      · split at h
        · next hplus =>
            obtain rfl := Option.some_inj.mp h
            exact ⟨by decide, hplus.symm⟩
        · split at h
          · next hslash =>
              obtain rfl := Option.some_inj.mp h
              exact ⟨by decide, hslash.symm⟩
          · cases h

theorem toNat_byte {n : Nat} (h : n < 256) : (UInt8.ofNat n).toNat = n :=
  UInt8.toNat_ofNat_of_lt' h

section Decode

variable {a b c : UInt8} {w x y z : Char} {n : Nat} {bytes : Bytes}

theorem decodeOne_symbol (hn : n = a.toNat * 16) :
    decodeOne (symbol (n / 64)) (symbol (n % 64)) = some [a] := by
  have ha := a.toNat_lt
  have hjoin : n / 64 * 64 + n % 64 = n := by omega
  have hspare : n % 16 = 0 := by omega
  have hbyte : n / 16 = a.toNat := by omega
  rw [decodeOne, value?_symbol _ (by omega), value?_symbol _ (by omega)]
  simp [hjoin, hspare, hbyte]

theorem decodeTwo_symbol (hn : n = (a.toNat * 256 + b.toNat) * 4) :
    decodeTwo (symbol (n / 4096)) (symbol (n / 64 % 64)) (symbol (n % 64)) = some [a, b] := by
  have ha := a.toNat_lt
  have hb := b.toNat_lt
  have hjoin : (n / 4096 * 64 + n / 64 % 64) * 64 + n % 64 = n := by omega
  have hspare : n % 4 = 0 := by omega
  have hbyte : n / 1024 = a.toNat := by omega
  have hbyte' : n / 4 % 256 = b.toNat := by omega
  rw [decodeTwo, value?_symbol _ (by omega), value?_symbol _ (by omega),
    value?_symbol _ (by omega)]
  simp [hjoin, hspare, hbyte, hbyte']

theorem decodeThree_symbol (hn : n = (a.toNat * 256 + b.toNat) * 256 + c.toNat) :
    decodeThree (symbol (n / 262144)) (symbol (n / 4096 % 64)) (symbol (n / 64 % 64))
      (symbol (n % 64)) = some [a, b, c] := by
  have ha := a.toNat_lt
  have hb := b.toNat_lt
  have hc := c.toNat_lt
  have hjoin : ((n / 262144 * 64 + n / 4096 % 64) * 64 + n / 64 % 64) * 64 + n % 64 = n := by
    omega
  have hbyte : n / 65536 = a.toNat := by omega
  have hbyte' : n / 256 % 256 = b.toNat := by omega
  have hbyte'' : n % 256 = c.toNat := by omega
  rw [decodeThree, value?_symbol _ (by omega), value?_symbol _ (by omega),
    value?_symbol _ (by omega), value?_symbol _ (by omega)]
  simp [hjoin, hbyte, hbyte', hbyte'']

theorem eq_encode_of_decodeOne (h : decodeOne w x = some bytes) :
    [w, x, '=', '='] = encode bytes := by
  simp only [decodeOne, Option.bind_eq_bind, Option.bind_eq_some_iff] at h
  obtain ⟨m, hm, n, hn, h⟩ := h
  split at h
  · next hspare =>
      obtain rfl := Option.some_inj.mp h
      obtain ⟨hm, rfl⟩ := value?_eq_some hm
      obtain ⟨hn, rfl⟩ := value?_eq_some hn
      have hbyte := toNat_byte (n := (m * 64 + n) / 16) (by omega)
      have hleft : (m * 64 + n) / 16 * 16 / 64 = m := by omega
      have hright : (m * 64 + n) / 16 * 16 % 64 = n := by omega
      simp [encode, hbyte, hleft, hright]
  · cases h

theorem eq_encode_of_decodeTwo (h : decodeTwo w x y = some bytes) :
    [w, x, y, '='] = encode bytes := by
  simp only [decodeTwo, Option.bind_eq_bind, Option.bind_eq_some_iff] at h
  obtain ⟨k, hk, m, hm, n, hn, h⟩ := h
  split at h
  · next hspare =>
      obtain rfl := Option.some_inj.mp h
      obtain ⟨hk, rfl⟩ := value?_eq_some hk
      obtain ⟨hm, rfl⟩ := value?_eq_some hm
      obtain ⟨hn, rfl⟩ := value?_eq_some hn
      generalize hjoin : (k * 64 + m) * 64 + n = joined at hspare
      have hbyte := toNat_byte (n := joined / 1024) (by omega)
      have hbyte' := toNat_byte (n := joined / 4 % 256) (by omega)
      have hback : (joined / 1024 * 256 + joined / 4 % 256) * 4 = joined := by omega
      have hfirst : joined / 4096 = k := by omega
      have hsecond : joined / 64 % 64 = m := by omega
      have hthird : joined % 64 = n := by omega
      rw [encode, hbyte, hbyte', hback, hfirst, hsecond, hthird]
  · cases h

/-- A full group can have anything behind it. -/
theorem encode_append_of_decodeThree (h : decodeThree w x y z = some bytes) (rest : Bytes) :
    encode (bytes ++ rest) = w :: x :: y :: z :: encode rest := by
  simp only [decodeThree, Option.bind_eq_bind, Option.bind_eq_some_iff] at h
  obtain ⟨j, hj, k, hk, m, hm, n, hn, h⟩ := h
  obtain rfl := Option.some_inj.mp h
  obtain ⟨hj, rfl⟩ := value?_eq_some hj
  obtain ⟨hk, rfl⟩ := value?_eq_some hk
  obtain ⟨hm, rfl⟩ := value?_eq_some hm
  obtain ⟨hn, rfl⟩ := value?_eq_some hn
  generalize hjoin : ((j * 64 + k) * 64 + m) * 64 + n = joined
  have hbyte := toNat_byte (n := joined / 65536) (by omega)
  have hbyte' := toNat_byte (n := joined / 256 % 256) (by omega)
  have hbyte'' := toNat_byte (n := joined % 256) (by omega)
  have hback : (joined / 65536 * 256 + joined / 256 % 256) * 256 + joined % 256 = joined := by
    omega
  have hfirst : joined / 262144 = j := by omega
  have hsecond : joined / 4096 % 64 = k := by omega
  have hthird : joined / 64 % 64 = m := by omega
  have hfourth : joined % 64 = n := by omega
  show encode (_ :: _ :: _ :: rest) = _
  rw [encode, hbyte, hbyte', hbyte'', hback, hfirst, hsecond, hthird, hfourth]

end Decode

theorem decode_encode (bytes : Bytes) : decode (encode bytes) = some bytes := by
  induction bytes using encode.induct with
  | case1 => rfl
  | case2 a =>
      rw [encode, decode, if_pos ⟨rfl, rfl⟩, if_pos rfl]
      exact decodeOne_symbol rfl
  | case3 a b =>
      have hpadding := symbol_ne_padding ((a.toNat * 256 + b.toNat) * 4 % 64) (by omega)
      rw [encode, decode, if_pos ⟨rfl, rfl⟩, if_neg hpadding]
      exact decodeTwo_symbol rfl
  | case4 a b c rest ih =>
      have hpadding := symbol_ne_padding
        (((a.toNat * 256 + b.toNat) * 256 + c.toNat) % 64) (by omega)
      rw [encode, decode, if_neg fun h => hpadding h.1, decodeThree_symbol rfl, ih]
      rfl

theorem eq_encode_of_decode {text : List Char} {bytes : Bytes} (h : decode text = some bytes) :
    text = encode bytes := by
  induction text using decode.induct generalizing bytes with
  | case1 =>
      cases h
      rfl
  | case2 w x z rest hlast =>
      rw [decode, if_pos hlast, if_pos rfl] at h
      obtain ⟨rfl, rfl⟩ := hlast
      exact eq_encode_of_decodeOne h
  | case3 w x y z rest hlast htwo =>
      rw [decode, if_pos hlast, if_neg htwo] at h
      obtain ⟨rfl, rfl⟩ := hlast
      exact eq_encode_of_decodeTwo h
  | case4 w x y z rest hmore ih =>
      rw [decode, if_neg hmore] at h
      simp only [Option.bind_eq_bind, Option.bind_eq_some_iff, Option.pure_def,
        Option.some_inj] at h
      obtain ⟨group, hgroup, rest', hrest, rfl⟩ := h
      rw [encode_append_of_decodeThree hgroup, ← ih hrest]
  | case5 text hnil hgroup =>
      rw [decode] at h
      · cases h
      · exact hnil
      · exact hgroup

theorem decode_eq_some_iff {text : List Char} {bytes : Bytes} :
    decode text = some bytes ↔ text = encode bytes := by
  constructor
  · exact eq_encode_of_decode
  · intro h
    rw [h, decode_encode]

theorem spells_iff {text : List Char} {bytes : Bytes} :
    Spells text bytes ↔ text = encode bytes := by
  constructor
  · exact fun h => h.unique (spells_encode bytes)
  · intro h
    rw [h]
    exact spells_encode bytes

end Base64

/-! ## Blobs -/

namespace Blob

variable {v : Json} {bytes : Bytes}

theorem decode_string (text : String) :
    decode (.string text) = match Base64.decode text.toList with
      | some bytes => .ok bytes
      | none => .error .badBase64 := rfl

theorem decode_eq_ok_iff : decode v = .ok bytes ↔ v = encode bytes := by
  cases v with
  | string text =>
      rw [decode_string, encode, Json.string.injEq, ← String.toList_inj, String.toList_ofList,
        ← Base64.decode_eq_some_iff]
      cases Base64.decode text.toList <;> simp
  | null | bool _ | number _ | array _ | object _ =>
      constructor
      · intro h
        cases h
      · intro h
        cases h

theorem decodeOptional_of_ne (h : v ≠ .null) : decodeOptional v = (decode v).map some := by
  cases v with
  | null => exact absurd rfl h
  | string _ | bool _ | number _ | array _ | object _ => rfl

theorem decodeOptional_eq_ok_iff {content : Option Bytes} :
    decodeOptional v = .ok content ↔ v = encodeOptional content := by
  by_cases hnull : v = .null
  · subst hnull
    cases content with
    | none => exact ⟨fun _ => rfl, fun _ => rfl⟩
    | some bytes =>
        constructor
        · intro h
          cases h
        · intro h
          cases h
  · rw [decodeOptional_of_ne hnull]
    cases content with
    | none =>
        constructor
        · cases decode v with
          | ok bytes => intro h; cases h
          | error e => intro h; cases h
        · exact fun h => absurd h hnull
    | some bytes =>
        show (decode v).map some = .ok (some bytes) ↔ v = encode bytes
        rw [← decode_eq_ok_iff]
        cases decode v with
        | ok bytes' => simp [Except.map]
        | error e => simp [Except.map]

/-- Reading gives bytes for their own spelling, and for nothing else, be they optional or not.
The spelling of bytes is a string in base64. Where they are optional, `null` is read as absent
bytes, which are not the empty ones, and everything else as if they were not optional. -/
theorem spelling_canonical :
    (∀ v bytes, decode v = .ok bytes ↔ v = encode bytes) ∧
      (∀ v bytes, decode v = .ok bytes ↔
        ∃ text, v = .string text ∧ Base64.Spells text.toList bytes) ∧
      (∀ v content, decodeOptional v = .ok content ↔ v = encodeOptional content) ∧
      (∀ v bytes, decodeOptional v = .ok (some bytes) ↔ decode v = .ok bytes) ∧
      (∀ v, decodeOptional v = .ok none ↔ v = .null) ∧
      encodeOptional (some []) = .string "" ∧ encodeOptional (some []) ≠ encodeOptional none := by
  refine ⟨fun v bytes => decode_eq_ok_iff, ?_, fun v content => decodeOptional_eq_ok_iff,
    fun v bytes => ?_, fun v => decodeOptional_eq_ok_iff, rfl, ?_⟩
  · intro v bytes
    simp only [decode_eq_ok_iff, Base64.spells_iff]
    constructor
    · intro h
      exact ⟨_, h, String.toList_ofList⟩
    · intro ⟨text, hv, htext⟩
      rw [hv, encode, ← htext, String.ofList_toList]
  · exact decodeOptional_eq_ok_iff.trans decode_eq_ok_iff.symm
  · intro h
    cases h

end Blob

end ServiceCodec
