import Rollcall.Json

/-!
JSON documents before they are evaluated.

What a document says, kept close enough to the text that a reader who skips a part need not
evaluate it: numbers keep their digits, and a string literal that leaves a surrogate unpaired is
kept without a value. `JsonTree.value?` evaluates a whole tree.
-/

namespace Rollcall

structure Numeral where
  negative : Bool
  whole : List Char
  /-- The digits after the point, none if there is no point. -/
  fraction : List Char
  /-- Whether the exponent has a minus sign, and its digits. -/
  exponent : Option (Bool × List Char)

inductive JsonTree where
  | null
  | bool (value : Bool)
  | number (numeral : Numeral)
  | string (value : Option String)
  | array (items : List JsonTree)
  | object (fields : List (Option String × JsonTree))
deriving Inhabited

namespace Numeral

def digitOf (c : Char) : Nat := c.toNat - '0'.toNat

/-- The largest significand that is kept; digits that would exceed it are dropped. -/
def maxSignificand : Nat := Nat.pow 2 64 - 1

/-- Digits appended to `n` as long as `maxSignificand` allows: the number, how many digits were
taken, and whether one was refused. -/
def appendDigits (n taken : Nat) : List Char → Nat × Nat × Bool
  | [] => (n, taken, false)
  | c :: cs =>
      let next := 10 * n + digitOf c
      if maxSignificand < next then (n, taken, true) else appendDigits next (taken + 1) cs

/-- The largest exponent that is read; a longer one settles the number without its value. -/
def maxExponent : Nat := Nat.pow 2 31 - 1

/-- `significand · 10 ^ exponent` in two roundings, one of the significand and one of the product or
quotient; none where the result is not finite. An exponent below `-308` is split once or twice. -/
def scale? (significand : Nat) (exponent : Int) : Option Binary64 :=
  let x := Binary64.ofNat significand
  let power (k : Nat) : Binary64 := Binary64.ofDecimal false 1 k
  let shrink (x : Binary64) (k : Nat) : Binary64 := x / power k
  if exponent.natAbs ≤ 308 then
    if 0 ≤ exponent then
      let y := x * power exponent.toNat
      if y.isFinite then some y else none
    else
      some (shrink x (-exponent).toNat)
  else if significand = 0 then
    some x
  else if 0 ≤ exponent then
    none
  else
    let k := (-exponent).toNat
    if k ≤ 616 then some (shrink (shrink x 308) (k - 308)) else some (Binary64.zero false)

def float? (n : Numeral) : Option Binary64 :=
  let (significand, taken, _) := appendDigits 0 0 n.whole
  let dropped := n.whole.length - taken
  let (significand, places, _) := appendDigits significand 0 n.fraction
  let start : Int := (dropped : Int) - places
  let magnitude? := match n.exponent with
    | none => scale? significand start
    | some (negative, digits) =>
        let e := digits.foldl (fun e c => 10 * e + digitOf c) 0
        if e ≤ maxExponent then
          scale? significand (start + Binary64.signed negative e)
        else if significand ≠ 0 ∧ !negative then none
        else some (Binary64.zero false)
  magnitude?.map fun x => if n.negative then -x else x

/-- A numeral without point and exponent is an integer as long as it fits into 64 bits, signed or
not; `-0` and all else is a double. -/
def value? (n : Numeral) : Option Json :=
  let (significand, _, refused) := appendDigits 0 0 n.whole
  if n.fraction.isEmpty && n.exponent.isNone && !refused then
    if !n.negative then some (.int significand)
    else if significand ≠ 0 ∧ significand ≤ Nat.pow 2 63 then some (.int (-(significand : Int)))
    else some (.float (-Binary64.ofNat significand))
  else
    n.float?.map Json.float

end Numeral

namespace JsonTree

/-- How many arrays and objects may be open at once in a tree that is evaluated. -/
def maxDepth : Nat := 127

/-- A field set in a list that is sorted by name; the last value of a name stays. -/
def setField (name : String) (value : Json) : List (String × Json) → List (String × Json)
  | [] => [(name, value)]
  | (other, old) :: rest =>
      if name = other then (name, value) :: rest
      else if name < other then (name, value) :: (other, old) :: rest
      else (other, old) :: setField name value rest

mutual

/-- The value of a tree with at most `depth` more levels, its fields sorted by name. -/
def valueWithin? (depth : Nat) : JsonTree → Option Json
  | .null => some .null
  | .bool b => some (.bool b)
  | .number n => n.value?
  | .string s => s.map Json.string
  | .array items =>
      if depth = 0 then none else (itemsWithin? (depth - 1) items).map Json.array
  | .object fields =>
      if depth = 0 then none else (fieldsWithin? (depth - 1) [] fields).map Json.object

def itemsWithin? (depth : Nat) : List JsonTree → Option (List Json)
  | [] => some []
  | item :: rest =>
      match valueWithin? depth item, itemsWithin? depth rest with
      | some item, some rest => some (item :: rest)
      | _, _ => none

def fieldsWithin? (depth : Nat) (done : List (String × Json)) :
    List (Option String × JsonTree) → Option (List (String × Json))
  | [] => some done
  | (name, value) :: rest =>
      match name, valueWithin? depth value with
      | some name, some value => fieldsWithin? depth (setField name value done) rest
      | _, _ => none

end

/-- The value of a tree, if every number is in range, every string has a value and no part is nested
too deeply. -/
def value? (tree : JsonTree) : Option Json := valueWithin? maxDepth tree

end JsonTree
end Rollcall
