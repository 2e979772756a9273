import Rollcall.Text.Utf8

/-!
Percent escapes and forms.

A percent sign with two hexadecimal digits stands for a byte. A form is a list of names with values,
joined by ampersands, in which a plus sign stands for a space.
-/

namespace Rollcall.Text

def hexDigit? (b : UInt8) : Option UInt8 :=
  if 0x30 ≤ b ∧ b ≤ 0x39 then some (b - 0x30)
  else if 0x41 ≤ b ∧ b ≤ 0x46 then some (b - 0x41 + 10)
  else if 0x61 ≤ b ∧ b ≤ 0x66 then some (b - 0x61 + 10)
  else none

/-- The bytes with every escape replaced; a percent sign that starts none stays. -/
def unescape : List UInt8 → List UInt8
  | [] => []
  | 0x25 :: a :: b :: rest =>
      match hexDigit? a, hexDigit? b with
      | some high, some low => (high * 16 + low) :: unescape rest
      | _, _ => 0x25 :: unescape (a :: b :: rest)
  | b :: rest => b :: unescape rest

def utf8 (text : String) : List UInt8 := text.toUTF8.toList

def unescaped (text : String) : Except Utf8Fault String := decodeStrict (unescape (utf8 text))

def formText (text : String) : String :=
  let spaced := (utf8 text).map fun b => if b = 0x2B then 0x20 else b
  String.ofList (decodeLenient (unescape spaced))

/-- A text cut at the first place where a character stands, which belongs to neither part. -/
def cutAt (c : Char) (text : String) : String × Option String :=
  let cs := text.toList
  (String.ofList (cs.takeWhile (· ≠ c)),
    match cs.dropWhile (· ≠ c) with
    | [] => none
    | _ :: rest => some (String.ofList rest))

/-- The names and values of a form. A part without an equals sign is a name with an empty value. -/
def formPairs (form : String) : List (String × String) :=
  ((form.splitOn "&").filter (· ≠ "")).map fun part =>
    let (name, value) := cutAt '=' part
    (formText name, formText (value.getD ""))

end Rollcall.Text
