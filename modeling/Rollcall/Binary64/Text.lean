import Rollcall.Binary64.Decimal

/-!
Texts of numbers.

How numbers are written and read: integers with an optional sign, and doubles in positional form
(`Binary64.plain`), in the form that keeps a point or an exponent (`Binary64.pointed`), and as
decimals of any length (`Binary64.read?`).
-/

namespace Rollcall

def readDigits? (cs : List Char) : Option Nat :=
  if cs.isEmpty || !cs.all Char.isDigit then none
  else some (cs.foldl (fun n c => 10 * n + (c.toNat - '0'.toNat)) 0)

/-- A sign, if there is one, taken off: whether it was a minus, and the rest. -/
def splitSign : List Char → Bool × List Char
  | '-' :: cs => (true, cs)
  | '+' :: cs => (false, cs)
  | cs => (false, cs)

def readSigned? (low high : Int) (text : String) : Option Int :=
  let (negative, cs) := splitSign text.toList
  match readDigits? cs with
  | some n =>
      let value := Binary64.signed negative n
      if low ≤ value ∧ value ≤ high then some value else none
  | none => none

def readUnsigned? (high : Nat) (text : String) : Option Nat :=
  let cs := match text.toList with
    | '+' :: cs => cs
    | cs => cs
  match readDigits? cs with
  | some n => if n ≤ high then some n else none
  | none => none

namespace Decimal

/-- Digits with a point before the last `places` of them, filled up with zeros at the front. -/
def withPoint (digits : String) (places : Nat) : String :=
  if places = 0 then
    digits
  else
    let padded := "".pushn '0' (places + 1 - digits.length) ++ digits
    let cs := padded.toList
    String.ofList (cs.take (cs.length - places)) ++ "." ++
      String.ofList (cs.drop (cs.length - places))

/-- Positional form: no exponent, no point after an integer. -/
def positional (d : Decimal) : String :=
  let digits := toString d.digits
  if 0 ≤ d.exponent then
    if d.digits = 0 then digits else digits ++ "".pushn '0' d.exponent.toNat
  else
    withPoint digits (-d.exponent).toNat

def scientific (d : Decimal) : String :=
  let digits := toString d.digits
  let places := digits.length - 1
  withPoint digits places ++ "e" ++ toString (d.exponent + places)

def leading (d : Decimal) : Int := d.exponent + (toString d.digits).length - 1

end Decimal

namespace Binary64

def signText (negative : Bool) : String := if negative then "-" else ""

/-- The fewest digits that read back, always positional: `1`, `0.1`, `-0`, `1000000`. -/
def plain : Binary64 → String
  | .nan => "NaN"
  | .infinite s => signText s ++ "inf"
  | .finite s m e => signText s ++ (Decimal.shortest m e).positional

/-- The fewest digits that read back, with a point in positional form, and an exponent from `1e16`
up and below `10 ^ lowest`: `1.0`, `0.1`, `1e16`. -/
def pointedDownTo (lowest : Int) : Binary64 → String
  | .nan => "NaN"
  | .infinite s => signText s ++ "inf"
  | .finite s m e =>
      let d := Decimal.shortest m e
      let digits :=
        if d.digits = 0 then "0.0"
        else if 16 ≤ d.leading ∨ d.leading < lowest then d.scientific
        else if 0 ≤ d.exponent then d.positional ++ ".0"
        else d.positional
      signText s ++ digits

/-- The form with a point that is positional down to a ten-thousandth. -/
def pointed (x : Binary64) : String := x.pointedDownTo (-4)

/-- The exponent of a decimal text: nothing, or `e` with an optional sign and at least one digit. -/
def readExponent? : List Char → Option Int
  | [] => some 0
  | c :: cs =>
      if c = 'e' ∨ c = 'E' then
        let (negative, cs) := splitSign cs
        (readDigits? cs).map (signed negative)
      else
        none

/-- A decimal without its sign: digits with at most one point, at least one digit, and an
exponent. -/
def readMagnitude? (negative : Bool) (cs : List Char) : Option Binary64 :=
  let whole := cs.takeWhile Char.isDigit
  let rest := cs.dropWhile Char.isDigit
  let (places, rest) := match rest with
    | '.' :: cs => (cs.takeWhile Char.isDigit, cs.dropWhile Char.isDigit)
    | _ => ([], rest)
  match readDigits? (whole ++ places), readExponent? rest with
  | some digits, some exponent => some (ofDecimal negative digits (exponent - places.length))
  | _, _ => none

/-- The number nearest to a decimal text, or one of the words `inf`, `infinity` and `nan` in any
case. -/
def read? (text : String) : Option Binary64 :=
  let (negative, cs) := splitSign text.toList
  let word := String.ofList (cs.map Char.toLower)
  if word = "inf" ∨ word = "infinity" then some (.infinite negative)
  else if word = "nan" then some .nan
  else readMagnitude? negative cs

end Binary64
end Rollcall
