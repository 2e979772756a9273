import Rollcall.Binary64.Text
import Rollcall.Text.Quoted

/-!
Network addresses.

Addresses of both families, their canonical texts, and endpoints made of an address and a port. The
readers take the characters that are left and return what follows their part.
-/

namespace Rollcall.Net

inductive Address where
  /-- Four bytes. -/
  | v4 (bytes : List Nat)
  /-- Eight groups of sixteen bits. -/
  | v6 (groups : List Nat)
deriving DecidableEq, Repr, Inhabited

namespace Address

def dotted (bytes : List Nat) : String := ".".intercalate (bytes.map toString)

def leadingZeros : List Nat → Nat
  | 0 :: rest => leadingZeros rest + 1
  | _ => 0

/-- Start and length of the first longest run of zero groups, looked for from index `i` on, given
the best one so far. -/
def longestRun (i : Nat) (best : Nat × Nat) : List Nat → Nat × Nat
  | [] => best
  | g :: rest =>
      let n := leadingZeros (g :: rest)
      longestRun (i + 1) (if best.2 < n then (i, n) else best) rest

def groupText (groups : List Nat) : String := ":".intercalate (groups.map Text.hexText)

/-- The canonical text: lower case, the first longest run of at least two zero groups written `::`,
and a mapped address of the other family with its bytes. -/
def text : Address → String
  | .v4 bytes => dotted bytes
  | .v6 groups =>
      match groups with
      | [0, 0, 0, 0, 0, 0xFFFF, a, b] =>
          "::ffff:" ++ dotted [a / 256, a % 256, b / 256, b % 256]
      | _ =>
          let (start, length) := longestRun 0 (0, 0) groups
          if 2 ≤ length then
            groupText (groups.take start) ++ "::" ++ groupText (groups.drop (start + length))
          else
            groupText groups

def digitValue? (radix : Nat) (c : Char) : Option Nat :=
  let value? :=
    if c.isDigit then some (c.toNat - '0'.toNat)
    else if 'a' ≤ c ∧ c ≤ 'f' then some (c.toNat - 'a'.toNat + 10)
    else if 'A' ≤ c ∧ c ≤ 'F' then some (c.toNat - 'A'.toNat + 10)
    else none
  value?.filter (· < radix)

/-- A number of at most `high`, with as many digits as there are but no more than `digits`. -/
def readNumber? (radix digits high : Nat) (cs : List Char) : Option (Nat × List Char) :=
  let run := cs.takeWhile fun c => (digitValue? radix c).isSome
  let n := run.foldl (fun n c => n * radix + (digitValue? radix c).getD 0) 0
  if run.isEmpty ∨ digits < run.length ∨ high < n then none else some (n, cs.drop run.length)

/-- A byte in decimal, with no zero before another digit. -/
def readByte? (cs : List Char) : Option (Nat × List Char) :=
  match cs, readNumber? 10 3 255 cs with
  | '0' :: _, some (n, rest) => if cs.length = rest.length + 1 then some (n, rest) else none
  | _, result => result

/-- `separator` and then a part, or the part alone where it is the first. -/
def readAfter? {α : Type} (separator : Char) (first : Bool)
    (read : List Char → Option (α × List Char)) (cs : List Char) : Option (α × List Char) :=
  if first then read cs
  else match cs with
    | c :: rest => if c = separator then read rest else none
    | [] => none

def readV4? (cs : List Char) : Option (List Nat × List Char) :=
  match readByte? cs with
  | none => none
  | some (a, cs) =>
    match readAfter? '.' false readByte? cs with
    | none => none
    | some (b, cs) =>
      match readAfter? '.' false readByte? cs with
      | none => none
      | some (c, cs) => (readAfter? '.' false readByte? cs).map fun (d, cs) => ([a, b, c, d], cs)

/-- Up to `limit` groups, the last two of which may be four bytes: the groups, whether there were
such bytes, and the rest. -/
def readGroups (first : Bool) : (limit : Nat) → List Char → List Nat × Bool × List Char
  | 0, cs => ([], false, cs)
  | limit + 1, cs =>
      let bytes? := if limit = 0 then none else readAfter? ':' first readV4? cs
      match bytes? with
      | some ([a, b, c, d], cs) => ([a * 256 + b, c * 256 + d], true, cs)
      | _ =>
          match readAfter? ':' first (readNumber? 16 4 0xFFFF) cs with
          | none => ([], false, cs)
          | some (g, cs) =>
              let (groups, bytes, cs) := readGroups false limit cs
              (g :: groups, bytes, cs)

/-- Eight groups, or fewer around a `::` that stands for at least one zero group. -/
def readV6? (cs : List Char) : Option (List Nat × List Char) :=
  let (head, bytes, cs) := readGroups true 8 cs
  if head.length = 8 then
    some (head, cs)
  else if bytes then
    none
  else
    match cs with
    | ':' :: ':' :: cs =>
        let (tail, _, cs) := readGroups true (7 - head.length) cs
        some (head ++ List.replicate (8 - head.length - tail.length) 0 ++ tail, cs)
    | _ => none

end Address

structure Endpoint where
  address : Address
  port : Nat
deriving DecidableEq, Repr

namespace Endpoint

def readPort? : List Char → Option Nat
  | ':' :: cs =>
      match Address.readNumber? 10 cs.length 65535 cs with
      | some (port, []) => some port
      | _ => none
  | _ => none

/-- A zone after the address, which is of no interest, and the closing bracket. -/
def skipZone? : List Char → Option (List Char)
  | ']' :: cs => some cs
  | '%' :: cs =>
      match Address.readNumber? 10 cs.length (Nat.pow 2 32 - 1) cs with
      | some (_, ']' :: cs) => some cs
      | _ => none
  | _ => none

/-- `a.b.c.d:port` or `[groups]:port`. -/
def parse? (text : String) : Option Endpoint :=
  match text.toList with
  | '[' :: cs =>
      match Address.readV6? cs with
      | none => none
      | some (groups, cs) =>
          match skipZone? cs with
          | none => none
          | some cs => (readPort? cs).map fun port => ⟨.v6 groups, port⟩
  | cs =>
      match Address.readV4? cs with
      | none => none
      | some (bytes, cs) => (readPort? cs).map fun port => ⟨.v4 bytes, port⟩

end Endpoint
end Rollcall.Net
