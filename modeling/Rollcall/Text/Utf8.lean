/-!
UTF-8.

Bytes read as characters. Bytes that are no character are a fault for the strict reader; the lenient
reader puts one replacement character for each of the longest starts of a character it cannot
finish.
-/

namespace Rollcall.Text

inductive Head where
  | char (c : Char) (width : Nat)
  /-- Bytes that no character starts with. -/
  | invalid (width : Nat)
  /-- The bytes end within a character. -/
  | cut (width : Nat)
deriving DecidableEq, Repr

/-- Where the bytes after the first one have to lie. -/
def following (first : Nat) : Option (List (Nat × Nat)) :=
  let any := (0x80, 0xBF)
  if first < 0x80 then some []
  else if first < 0xC2 then none
  else if first < 0xE0 then some [any]
  else if first = 0xE0 then some [(0xA0, 0xBF), any]
  else if first = 0xED then some [(0x80, 0x9F), any]
  else if first < 0xF0 then some [any, any]
  else if first = 0xF0 then some [(0x90, 0xBF), any, any]
  else if first < 0xF4 then some [any, any, any]
  else if first = 0xF4 then some [(0x80, 0x8F), any, any]
  else none

/-- The bits of the first byte that belong to the character, given how many bytes follow it. -/
def firstBits (first : Nat) : (tail : Nat) → Nat
  | 0 => first
  | 1 => first % 0x20
  | 2 => first % 0x10
  | _ => first % 0x08

/-- The rest of a character of which `width` bytes gave the bits `n`. -/
def finish (n width : Nat) : List (Nat × Nat) → List UInt8 → Head
  | [], _ => .char (Char.ofNat n) width
  | _ :: _, [] => .cut width
  | (low, high) :: ranges, b :: bytes =>
      if low ≤ b.toNat ∧ b.toNat ≤ high then
        finish (n * 0x40 + b.toNat % 0x40) (width + 1) ranges bytes
      else
        .invalid width

def head (b : UInt8) (bytes : List UInt8) : Head :=
  match following b.toNat with
  | none => .invalid 1
  | some ranges => finish (firstBits b.toNat ranges.length) 1 ranges bytes

def decodeLenient : List UInt8 → List Char
  | [] => []
  | b :: bytes =>
      match head b bytes with
      | .char c width => c :: decodeLenient (bytes.drop (width - 1))
      | .invalid width => '\uFFFD' :: decodeLenient (bytes.drop (width - 1))
      | .cut _ => ['\uFFFD']
termination_by bytes => bytes.length
decreasing_by all_goals simp only [List.length_drop, List.length_cons]; omega

/-- Why bytes are not text: where, and how many bytes are no character, if they do not just end. -/
structure Utf8Fault where
  index : Nat
  width : Option Nat
deriving DecidableEq, Repr, Inhabited

def Utf8Fault.text (f : Utf8Fault) : String :=
  match f.width with
  | some n =>
      "invalid utf-8 sequence of " ++ toString n ++ " bytes from index " ++ toString f.index
  | none => "incomplete utf-8 byte sequence from index " ++ toString f.index

/-- The first fault of the bytes, counted from `index`. -/
def utf8Fault? (index : Nat) : List UInt8 → Option Utf8Fault
  | [] => none
  | b :: bytes =>
      match head b bytes with
      | .char _ width => utf8Fault? (index + width) (bytes.drop (width - 1))
      | .invalid width => some ⟨index, some width⟩
      | .cut _ => some ⟨index, none⟩
termination_by bytes => bytes.length
decreasing_by simp only [List.length_drop, List.length_cons]; omega

def decodeStrict (bytes : List UInt8) : Except Utf8Fault String :=
  match utf8Fault? 0 bytes with
  | some fault => .error fault
  | none => .ok (String.ofList (decodeLenient bytes))

end Rollcall.Text
