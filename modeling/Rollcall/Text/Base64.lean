/-!
Base64.

Bytes written with sixty-four characters, three bytes to four of them; a group that is not full is
filled up with equals signs.
-/

namespace Rollcall.Text

def base64Char (n : Nat) : Char :=
  if n < 26 then Char.ofNat ('A'.toNat + n)
  else if n < 52 then Char.ofNat ('a'.toNat + (n - 26))
  else if n < 62 then Char.ofNat ('0'.toNat + (n - 52))
  else if n = 62 then '+'
  else '/'

def base64Group (a b c : UInt8) : List Char :=
  let n := (a.toNat * 256 + b.toNat) * 256 + c.toNat
  [n / 0x40000, n / 0x1000 % 0x40, n / 0x40 % 0x40, n % 0x40].map base64Char

def base64Chars : List UInt8 → List Char
  | a :: b :: c :: rest => base64Group a b c ++ base64Chars rest
  | [a, b] => (base64Group a b 0).take 3 ++ ['=']
  | [a] => (base64Group a 0 0).take 2 ++ ['=', '=']
  | [] => []

def base64 (bytes : List UInt8) : String := String.ofList (base64Chars bytes)

end Rollcall.Text
