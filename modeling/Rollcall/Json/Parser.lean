import Rollcall.Json.Tree

/-!
Reading JSON.

`JsonTree.parse?` reads one document: a value with blanks around it and nothing after it. The
readers take the characters that are left and return what follows their part; `fuel` bounds how many
values may still be begun and starts at the length of the text.
-/

namespace Rollcall
namespace JsonTree

def skipBlanks : List Char → List Char
  | c :: cs => if c = ' ' ∨ c = '\n' ∨ c = '\t' ∨ c = '\r' then skipBlanks cs else c :: cs
  | [] => []

def hexValue? (c : Char) : Option Nat :=
  if c.isDigit then some (c.toNat - '0'.toNat)
  else if 'a' ≤ c ∧ c ≤ 'f' then some (c.toNat - 'a'.toNat + 10)
  else if 'A' ≤ c ∧ c ≤ 'F' then some (c.toNat - 'A'.toNat + 10)
  else none

def readUnit? : List Char → Option (Nat × List Char)
  | a :: b :: c :: d :: rest =>
      match hexValue? a, hexValue? b, hexValue? c, hexValue? d with
      | some a, some b, some c, some d => some (((a * 16 + b) * 16 + c) * 16 + d, rest)
      | _, _, _, _ => none
  | _ => none

def isHighSurrogate (n : Nat) : Bool := 0xD800 ≤ n && n < 0xDC00

def isLowSurrogate (n : Nat) : Bool := 0xDC00 ≤ n && n < 0xE000

/-- The character a one-letter escape stands for. -/
def simpleEscape? (c : Char) : Option Char :=
  if c = '"' ∨ c = '\\' ∨ c = '/' then some c
  else if c = 'b' then some '\x08'
  else if c = 'f' then some '\x0c'
  else if c = 'n' then some '\n'
  else if c = 'r' then some '\r'
  else if c = 't' then some '\t'
  else none

/-- A string literal after its opening quote: the characters so far in `done`, last first, or none
once a surrogate was left alone. The outer result is none where the literal itself is malformed. -/
def readString? (fuel : Nat) (done : Option (List Char)) (cs : List Char) :
    Option (Option String × List Char) :=
  match fuel with
  | 0 => none
  | fuel + 1 =>
      match cs with
      | [] => none
      | '"' :: rest => some (done.map fun done => String.ofList done.reverse, rest)
      | '\\' :: 'u' :: rest =>
          match readUnit? rest with
          | none => none
          | some (high, rest) =>
              if isHighSurrogate high then
                match rest with
                | '\\' :: 'u' :: more =>
                    match readUnit? more with
                    | none => none
                    | some (low, after) =>
                        if isLowSurrogate low then
                          let c := Char.ofNat (0x10000 + (high - 0xD800) * 0x400 + (low - 0xDC00))
                          readString? fuel (done.map (c :: ·)) after
                        else
                          readString? fuel none rest
                | _ => readString? fuel none rest
              else if isLowSurrogate high then readString? fuel none rest
              else readString? fuel (done.map (Char.ofNat high :: ·)) rest
      | '\\' :: c :: rest =>
          match simpleEscape? c with
          | some c => readString? fuel (done.map (c :: ·)) rest
          | none => none
      | c :: rest => if c.toNat < 0x20 then none else readString? fuel (done.map (c :: ·)) rest

/-- The part of a number after the digits before the point. -/
def readTail? (negative : Bool) (whole cs : List Char) : Option (Numeral × List Char) :=
  let (point, fraction, cs) := match cs with
    | '.' :: rest => (true, rest.takeWhile Char.isDigit, rest.dropWhile Char.isDigit)
    | _ => (false, [], cs)
  if point && fraction.isEmpty then
    none
  else
    match cs with
    | c :: rest =>
        if c = 'e' ∨ c = 'E' then
          let (minus, rest) := splitSign rest
          let digits := rest.takeWhile Char.isDigit
          if digits.isEmpty then none
          else some (⟨negative, whole, fraction, some (minus, digits)⟩, rest.dropWhile Char.isDigit)
        else
          some (⟨negative, whole, fraction, none⟩, cs)
    | [] => some (⟨negative, whole, fraction, none⟩, [])

/-- A number; no zero may stand before another digit. -/
def readNumber? (cs : List Char) : Option (Numeral × List Char) :=
  let (negative, cs) := match cs with
    | '-' :: rest => (true, rest)
    | _ => (false, cs)
  let whole := cs.takeWhile Char.isDigit
  if whole.isEmpty || (whole.head? == some '0' && whole.length != 1) then none
  else readTail? negative whole (cs.dropWhile Char.isDigit)

/-- The characters after `word`, if the text starts with it. -/
def afterWord? : (word cs : List Char) → Option (List Char)
  | [], cs => some cs
  | w :: word, c :: cs => if w = c then afterWord? word cs else none
  | _ :: _, [] => none

mutual

def readValue? (fuel : Nat) (cs : List Char) : Option (JsonTree × List Char) :=
  match fuel with
  | 0 => none
  | fuel + 1 =>
      match skipBlanks cs with
      | '"' :: rest =>
          (readString? (rest.length + 1) (some []) rest).map fun (s, rest) => (.string s, rest)
      | '[' :: rest =>
          match skipBlanks rest with
          | ']' :: rest => some (.array [], rest)
          | rest => (readItems? fuel [] rest).map fun (items, rest) => (.array items, rest)
      | '\x7b' :: rest =>
          match skipBlanks rest with
          | '\x7d' :: rest => some (.object [], rest)
          | rest => (readFields? fuel [] rest).map fun (fields, rest) => (.object fields, rest)
      | 'n' :: rest => (afterWord? ['u', 'l', 'l'] rest).map fun rest => (.null, rest)
      | 't' :: rest => (afterWord? ['r', 'u', 'e'] rest).map fun rest => (.bool true, rest)
      | 'f' :: rest => (afterWord? ['a', 'l', 's', 'e'] rest).map fun rest => (.bool false, rest)
      | rest => (readNumber? rest).map fun (n, rest) => (.number n, rest)

def readItems? (fuel : Nat) (done : List JsonTree) (cs : List Char) :
    Option (List JsonTree × List Char) :=
  match fuel with
  | 0 => none
  | fuel + 1 =>
      match readValue? fuel cs with
      | none => none
      | some (item, rest) =>
          match skipBlanks rest with
          | ',' :: rest => readItems? fuel (item :: done) rest
          | ']' :: rest => some ((item :: done).reverse, rest)
          | _ => none

def readFields? (fuel : Nat) (done : List (Option String × JsonTree)) (cs : List Char) :
    Option (List (Option String × JsonTree) × List Char) :=
  match fuel with
  | 0 => none
  | fuel + 1 =>
      match skipBlanks cs with
      | '"' :: rest =>
          match readString? (rest.length + 1) (some []) rest with
          | none => none
          | some (name, rest) =>
              match skipBlanks rest with
              | ':' :: rest =>
                  match readValue? fuel rest with
                  | none => none
                  | some (value, rest) =>
                      match skipBlanks rest with
                      | ',' :: rest => readFields? fuel ((name, value) :: done) rest
                      | '\x7d' :: rest => some (((name, value) :: done).reverse, rest)
                      | _ => none
              | _ => none
      | _ => none

end

def parse? (text : String) : Option JsonTree :=
  let cs := text.toList
  match readValue? (2 * cs.length + 2) cs with
  | some (tree, rest) => if (skipBlanks rest).isEmpty then some tree else none
  | none => none

end JsonTree

def Json.parse? (text : String) : Option Json :=
  match JsonTree.parse? text with
  | some tree => tree.value?
  | none => none

end Rollcall
