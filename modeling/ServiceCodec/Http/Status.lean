/-!
# Status codes
-/

namespace ServiceCodec

/-- A three-digit status code. -/
structure StatusCode where
  code : Nat
  inRange : 100 ≤ code ∧ code ≤ 999
  deriving DecidableEq

namespace StatusCode

/-- Success. -/
def ok : StatusCode := ⟨200, by decide⟩

instance : Inhabited StatusCode := ⟨ok⟩

def ofNat? (n : Nat) : Option StatusCode :=
  if h : 100 ≤ n ∧ n ≤ 999 then some ⟨n, h⟩ else none

end StatusCode

end ServiceCodec
