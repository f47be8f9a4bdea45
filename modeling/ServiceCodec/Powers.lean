/-!
# Powers of two and of ten
-/

namespace ServiceCodec

/-- `2 ^ n`. -/
abbrev twoTo (n : Nat) : Nat := Nat.pow 2 n

theorem twoTo_pos (n : Nat) : 0 < twoTo n := Nat.two_pow_pos n

theorem twoTo_succ (n : Nat) : twoTo (n + 1) = 2 * twoTo n := Nat.pow_succ'

/-- `10 ^ n`. -/
abbrev tenTo (n : Nat) : Nat := Nat.pow 10 n

end ServiceCodec
