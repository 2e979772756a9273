import Rollcall.Binary64.Text

/-!
JSON values.

A value and its compact text: no blanks, fields in the order they are held, characters beyond ASCII
left as they are.
-/

namespace Rollcall

inductive Json where
  | null
  | bool (value : Bool)
  | int (value : Int)
  | float (value : Binary64)
  | string (value : String)
  | array (items : List Json)
  | object (fields : List (String × Json))
deriving Inhabited

namespace Json

def hexDigit (n : Nat) : Char :=
  if n < 10 then Char.ofNat ('0'.toNat + n) else Char.ofNat ('a'.toNat + (n - 10))

/-- A character inside a string literal: quote, backslash and the controls are escaped, five of the
controls by a letter. -/
def escape (c : Char) : String :=
  if c = '"' then "\\\""
  else if c = '\\' then "\\\\"
  else if c = '\n' then "\\n"
  else if c = '\r' then "\\r"
  else if c = '\t' then "\\t"
  else if c = '\x08' then "\\b"
  else if c = '\x0c' then "\\f"
  else if c.toNat < 0x20 then
    "\\u00" ++ String.ofList [hexDigit (c.toNat / 16), hexDigit (c.toNat % 16)]
  else c.toString

def quote (text : String) : String :=
  text.foldl (fun out c => out ++ escape c) "\"" ++ "\""

/-- A number that is no integer, positional down to a hundred-thousandth; there is no text for one
that is not finite. -/
def floatText (x : Binary64) : String := if x.isFinite then x.pointedDownTo (-5) else "null"

mutual

/-- The text of a value, written after `out`. -/
def write (out : String) : Json → String
  | .null => out ++ "null"
  | .bool b => out ++ (if b then "true" else "false")
  | .int n => out ++ toString n
  | .float x => out ++ floatText x
  | .string s => out ++ quote s
  | .array items => writeItems (out ++ "[") true items ++ "]"
  | .object fields => writeFields (out ++ "\x7b") true fields ++ "\x7d"

def writeItems (out : String) (first : Bool) : List Json → String
  | [] => out
  | item :: rest => writeItems (write (if first then out else out ++ ",") item) false rest

def writeFields (out : String) (first : Bool) : List (String × Json) → String
  | [] => out
  | (name, value) :: rest =>
      let out := if first then out else out ++ ","
      writeFields (write (out ++ quote name ++ ":") value) false rest

end

def text (value : Json) : String := write "" value

def unitEscape (n : Nat) : String :=
  "\\u" ++ String.ofList ([n / 0x1000, n / 0x100, n / 0x10, n].map fun n => hexDigit (n % 0x10))

/-- A character as ASCII: one beyond is escaped, by two halves where four digits do not suffice. -/
def asciiChar (c : Char) : String :=
  let n := c.toNat
  if n < 0x80 then c.toString
  else if n < 0x10000 then unitEscape n
  else
    unitEscape (0xD800 + (n - 0x10000) / 0x400) ++ unitEscape (0xDC00 + (n - 0x10000) % 0x400)

def asciiText (value : Json) : String := value.text.foldl (fun out c => out ++ asciiChar c) ""

def nat (n : Nat) : Json := .int n

def ofOption {α : Type} (encode : α → Json) : Option α → Json
  | some a => encode a
  | none => .null

end Json
end Rollcall
