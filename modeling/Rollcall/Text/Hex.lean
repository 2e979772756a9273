import Rollcall.Text.Percent

/-!
Hexadecimal bytes.

Bytes written with two lower-case digits each. The reader takes digits of both cases, and stops
where there is no pair of them.
-/

namespace Rollcall.Text

def hexChar (n : Nat) : Char :=
  if n < 10 then Char.ofNat ('0'.toNat + n) else Char.ofNat ('a'.toNat + (n - 10))

def hex (bytes : List UInt8) : String :=
  String.ofList (bytes.flatMap fun b => [hexChar (b.toNat / 16), hexChar (b.toNat % 16)])

def pairBytes : List UInt8 → List UInt8
  | a :: b :: rest =>
      match hexDigit? a, hexDigit? b with
      | some high, some low => (high * 16 + low) :: pairBytes rest
      | _, _ => []
  | _ => []

def unhex (text : String) : List UInt8 := pairBytes (utf8 text)

end Rollcall.Text
