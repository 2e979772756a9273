import Rollcall.Binary64

/-!
Shortest decimals.

The decimal with the fewest digits among those that read back as a given number, and of these the
nearest. Grids of 1, 2, … 17 digits are tried in turn; the first that has a point among the reals
that round to the number wins.
-/

namespace Rollcall

/-- The decimal `digits · 10 ^ exponent`. -/
structure Decimal where
  digits : Nat
  exponent : Int
deriving DecidableEq, Repr

namespace Decimal

/-- The power `p` with `10 ^ p ≤ num / den < 10 ^ (p + 1)`: an estimate from the binary lengths,
moved by at most one. -/
def leadingPower (num den : Nat) : Int :=
  let below (p : Int) : Bool := num * Nat.pow 10 (-p).toNat < den * Nat.pow 10 p.toNat
  let p : Int := (((Nat.log2 num : Int) - Nat.log2 den) * 1233).fdiv 4096
  if below p then p - 1 else if below (p + 1) then p else p + 1

/-- The reals that round to `m · 2 ^ e` in quarters of `2 ^ e`: the lower and the upper end. The gap
below a power of two is half as wide as the one above. -/
def quarterEnds (m : Nat) (e : Int) : Nat × Nat :=
  if m = Nat.pow 2 52 ∧ Binary64.minExponent < e then (4 * m - 1, 4 * m + 2)
  else (4 * m - 2, 4 * m + 2)

/-- Whether `c · 10 ^ k` rounds to `m · 2 ^ e`; the ends count exactly when `m` is even. -/
def roundsTo (m : Nat) (e : Int) (c : Nat) (k : Int) : Bool :=
  let (low, high) := quarterEnds m e
  let unit := Binary64.ratio 1 (e - 2)
  let point := c * Nat.pow 10 k.toNat * unit.2
  let low := low * unit.1 * Nat.pow 10 (-k).toNat
  let high := high * unit.1 * Nat.pow 10 (-k).toNat
  if m % 2 = 0 then low ≤ point && point ≤ high else low < point && point < high

/-- The point nearest to `m · 2 ^ e`, among those that round to it, of the grid of `10 ^ k`; the
upper one of two that are equally near. -/
def onGrid? (m : Nat) (e k : Int) : Option Nat :=
  let (a, b) := Binary64.ratio m e
  let n := a * Nat.pow 10 (-k).toNat
  let d := b * Nat.pow 10 k.toNat
  let q := n / d
  let down := roundsTo m e q k
  let up := roundsTo m e (q + 1) k
  if up && (!down || d ≤ 2 * (n % d)) then some (q + 1) else if down then some q else none

/-- The first grid with a hit, from `count` digits on, with `fuel` more digits to try. -/
def search (m : Nat) (e power : Int) : (fuel count : Nat) → Decimal
  | 0, count =>
      let k := power - count + 1
      let (a, b) := Binary64.ratio m e
      ⟨a * Nat.pow 10 (-k).toNat / (b * Nat.pow 10 k.toNat), k⟩
  | fuel + 1, count =>
      let k := power - count + 1
      match onGrid? m e k with
      | some c => ⟨c, k⟩
      | none => search m e power fuel (count + 1)

def trim (d : Decimal) : (fuel : Nat) → Decimal
  | 0 => d
  | fuel + 1 =>
      if d.digits ≠ 0 ∧ d.digits % 10 = 0 then
        trim ⟨d.digits / 10, d.exponent + 1⟩ fuel
      else
        d

def shortest (m : Nat) (e : Int) : Decimal :=
  if m = 0 then
    ⟨0, 0⟩
  else
    let (a, b) := Binary64.ratio m e
    (search m e (leadingPower a b) 17 1).trim 18

end Decimal
end Rollcall
