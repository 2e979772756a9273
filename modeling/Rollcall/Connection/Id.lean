import Rollcall.Text.Quoted

/-!
Connection ids.

A connection is known by a random number of 122 bits, written as a version 4 identifier of 36
characters.
-/

namespace Rollcall.Connection

structure Id where
  random : Nat
deriving DecidableEq, Repr, Inhabited

namespace Id

def hex (width n : Nat) : String :=
  let digits := Text.hexText n
  "".pushn '0' (width - digits.length) ++ digits

/-- Five groups: 48 random bits in the first two, the version and 12 bits, the variant and 14 bits,
and the last 48 bits. -/
def text (id : Id) : String :=
  let r := id.random
  let high := r / Nat.pow 2 74 % Nat.pow 2 48
  "-".intercalate
    [hex 8 (high / Nat.pow 2 16), hex 4 (high % Nat.pow 2 16),
     hex 4 (4 * Nat.pow 2 12 + r / Nat.pow 2 62 % Nat.pow 2 12),
     hex 4 (2 * Nat.pow 2 14 + r / Nat.pow 2 48 % Nat.pow 2 14), hex 12 (r % Nat.pow 2 48)]

end Id
end Rollcall.Connection
