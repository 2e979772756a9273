/-!
Binary64.

Double-precision numbers in exact natural-number arithmetic. Every operation is computed as an exact
ratio and rounded once, to the nearest number of 53 binary digits, a tie going to the even one, so
each result follows from the definition of `ofRatio` and from nothing about a processor.
-/

namespace Rollcall

/-- A double-precision number. `finite s m e` stands for `m · 2 ^ e`, negated when `s` is set; the
operations keep `m < 2 ^ 53` and `-1074 ≤ e ≤ 971`, with `2 ^ 52 ≤ m` unless `e = -1074`. -/
inductive Binary64 where
  | nan
  | infinite (negative : Bool)
  | finite (negative : Bool) (significand : Nat) (exponent : Int)
deriving DecidableEq, Repr

namespace Binary64

/-- The exponent of the last binary digit of a subnormal number. -/
def minExponent : Int := -1074

/-- The exponent of the last binary digit of the largest finite numbers. -/
def maxExponent : Int := 971

def zero (negative : Bool) : Binary64 := .finite negative 0 minExponent

instance : Inhabited Binary64 := ⟨zero false⟩

/-- `num / (den · 2 ^ e)` rounded to the nearest integer, a tie to the even one. -/
def nearest (num den : Nat) (e : Int) : Nat :=
  let n := num * Nat.pow 2 (-e).toNat
  let d := den * Nat.pow 2 e.toNat
  let q := n / d
  let r := n % d
  if 2 * r < d then q else if d < 2 * r then q + 1 else q + q % 2

/-- The exponent at which `num / den` has 53 binary digits before the point, or `minExponent` if
that would be smaller. -/
def exponentFor (num den : Nat) : Int :=
  let e : Int := (Nat.log2 num : Int) - Nat.log2 den - 53
  let e := if den * Nat.pow 2 e.toNat * Nat.pow 2 53 ≤ num * Nat.pow 2 (-e).toNat then e + 1 else e
  max e minExponent

/-- The number nearest to `num / den`, infinite when that has more binary digits than fit. -/
def ofRatio (negative : Bool) (num den : Nat) : Binary64 :=
  if num = 0 ∨ den = 0 then
    zero negative
  else
    let e := exponentFor num den
    let m := nearest num den e
    let (m, e) := if m = Nat.pow 2 53 then (Nat.pow 2 52, e + 1) else (m, e)
    if maxExponent < e then .infinite negative else .finite negative m e

def ofNat (n : Nat) : Binary64 := ofRatio false n 1

def ofInt (n : Int) : Binary64 := ofRatio (n < 0) n.natAbs 1

instance (n : Nat) : OfNat Binary64 n := ⟨ofNat n⟩

/-- `digits · 10 ^ exponent`, rounded once. Exponents beyond any finite or non-zero number are
settled without building the power. -/
def ofDecimal (negative : Bool) (digits : Nat) (exponent : Int) : Binary64 :=
  let magnitude : Int := exponent + Nat.log2 digits
  if digits = 0 then zero negative
  else if 400 < exponent then .infinite negative
  else if magnitude < -1500 then zero negative
  else if 0 ≤ exponent then ofRatio negative (digits * Nat.pow 10 exponent.toNat) 1
  else ofRatio negative digits (Nat.pow 10 (-exponent).toNat)

def isNan : Binary64 → Bool
  | .nan => true
  | _ => false

def isFinite : Binary64 → Bool
  | .finite .. => true
  | _ => false

def isZero : Binary64 → Bool
  | .finite _ m _ => m == 0
  | _ => false

def ratio (m : Nat) (e : Int) : Nat × Nat := (m * Nat.pow 2 e.toNat, Nat.pow 2 (-e).toNat)

def neg : Binary64 → Binary64
  | .nan => .nan
  | .infinite s => .infinite (!s)
  | .finite s m e => .finite (!s) m e

def mul : Binary64 → Binary64 → Binary64
  | .nan, _ => .nan
  | _, .nan => .nan
  | .infinite s, .infinite t => .infinite (s ^^ t)
  | .infinite s, .finite t m _ => if m = 0 then .nan else .infinite (s ^^ t)
  | .finite s m _, .infinite t => if m = 0 then .nan else .infinite (s ^^ t)
  | .finite s m e, .finite t n f =>
      let (a, b) := ratio m e
      let (c, d) := ratio n f
      ofRatio (s ^^ t) (a * c) (b * d)

def div : Binary64 → Binary64 → Binary64
  | .nan, _ => .nan
  | _, .nan => .nan
  | .infinite _, .infinite _ => .nan
  | .infinite s, .finite t _ _ => .infinite (s ^^ t)
  | .finite s _ _, .infinite t => zero (s ^^ t)
  | .finite s m e, .finite t n f =>
      if n = 0 then
        if m = 0 then .nan else .infinite (s ^^ t)
      else
        let (a, b) := ratio m e
        let (c, d) := ratio n f
        ofRatio (s ^^ t) (a * d) (b * c)

def signed (negative : Bool) (m : Nat) : Int := if negative then -(m : Int) else m

/-- The sum; two zeros of unlike sign, like any exact cancellation, give the positive zero. -/
def add : Binary64 → Binary64 → Binary64
  | .nan, _ => .nan
  | _, .nan => .nan
  | .infinite s, .infinite t => if s = t then .infinite s else .nan
  | .infinite s, .finite .. => .infinite s
  | .finite .., .infinite t => .infinite t
  | .finite s m e, .finite t n f =>
      let (a, b) := ratio m e
      let (c, d) := ratio n f
      let sum := signed s a * d + signed t c * b
      if sum = 0 then zero (s && t) else ofRatio (sum < 0) sum.natAbs (b * d)

instance : Neg Binary64 := ⟨neg⟩
instance : Add Binary64 := ⟨add⟩
instance : Mul Binary64 := ⟨mul⟩
instance : Div Binary64 := ⟨div⟩

/-- Strictly below; false as soon as one side is `nan`. -/
def blt : Binary64 → Binary64 → Bool
  | .nan, _ => false
  | _, .nan => false
  | .infinite s, .infinite t => s && !t
  | .infinite s, .finite .. => s
  | .finite .., .infinite t => !t
  | .finite s m e, .finite t n f =>
      let (a, b) := ratio m e
      let (c, d) := ratio n f
      signed s a * d < signed t c * b

/-- Below or equal; false as soon as one side is `nan`. -/
def ble (x y : Binary64) : Bool := !x.isNan && !y.isNan && !blt y x

/-- The smaller one; `nan` gives way to a number. -/
def min (x y : Binary64) : Binary64 :=
  if x.isNan then y else if y.isNan then x else if blt y x then y else x

/-- The larger one; `nan` gives way to a number. -/
def max (x y : Binary64) : Binary64 :=
  if x.isNan then y else if y.isNan then x else if blt x y then y else x

/-- `x` moved into `[low, high]`; `nan` stays. -/
def clamp (x low high : Binary64) : Binary64 :=
  if blt x low then low else if blt high x then high else x

def truncate : Binary64 → Int
  | .finite s m e =>
      let (a, b) := ratio m e
      signed s (a / b)
  | _ => 0

def roundHalfAway : Binary64 → Int
  | .finite s m e =>
      let (a, b) := ratio m e
      signed s ((2 * a + b) / (2 * b))
  | _ => 0

/-- An integer reading moved into `[low, high]`: an infinity goes to the end it points at, `nan`
becomes `0`. -/
def saturate (read : Binary64 → Int) (low high : Int) (x : Binary64) : Int :=
  match x with
  | .nan => 0
  | .infinite s => if s then low else high
  | .finite .. => Max.max low (Min.min high (read x))

def toUnsigned (x : Binary64) : Nat := (saturate truncate 0 (Nat.pow 2 64 - 1) x).toNat

def toSigned (x : Binary64) : Int := saturate truncate (-(Nat.pow 2 63)) (Nat.pow 2 63 - 1) x

end Binary64
end Rollcall
