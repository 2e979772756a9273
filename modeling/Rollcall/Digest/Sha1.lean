/-!
SHA-1.

The digest of a message: the message with its length behind it, in blocks of sixteen words, each of
which changes five words of state in eighty rounds.
-/

namespace Rollcall.Digest

/-- The number `n` in `width` bytes, the highest first. -/
def bytesOf : (width : Nat) → Nat → List UInt8
  | 0, _ => []
  | width + 1, n => bytesOf width (n / 256) ++ [UInt8.ofNat (n % 256)]

/-- The message followed by a set bit, by zeros up to a whole number of blocks, and by its length in
bits. -/
def padded (message : List UInt8) : List UInt8 :=
  let zeros := (119 - message.length % 64) % 64
  message ++ 0x80 :: List.replicate zeros 0 ++ bytesOf 8 (message.length * 8)

def words : List UInt8 → List UInt32
  | a :: b :: c :: d :: rest =>
      (a.toUInt32 <<< 24 ||| b.toUInt32 <<< 16 ||| c.toUInt32 <<< 8 ||| d.toUInt32) :: words rest
  | _ => []

def rotate (x : UInt32) (n : UInt32) : UInt32 := x <<< n ||| x >>> (32 - n)

/-- The words of a block and those made from them, last first, up to eighty. -/
def schedule (block : List UInt32) : List UInt32 :=
  ((List.range 64).foldl (fun (made : List UInt32) _ =>
    let word (i : Nat) : UInt32 := made.getD i 0
    rotate (word 2 ^^^ word 7 ^^^ word 13 ^^^ word 15) 1 :: made) block.reverse).reverse

structure State where
  a : UInt32
  b : UInt32
  c : UInt32
  d : UInt32
  e : UInt32
deriving DecidableEq, Repr

def State.initial : State := ⟨0x67452301, 0xEFCDAB89, 0x98BADCFE, 0x10325476, 0xC3D2E1F0⟩

def mixture (round : Nat) (b c d : UInt32) : UInt32 × UInt32 :=
  if round < 20 then ((b &&& c) ||| (~~~b &&& d), 0x5A827999)
  else if round < 40 then (b ^^^ c ^^^ d, 0x6ED9EBA1)
  else if round < 60 then ((b &&& c) ||| (b &&& d) ||| (c &&& d), 0x8F1BBCDC)
  else (b ^^^ c ^^^ d, 0xCA62C1D6)

def State.round (s : State) (i : Nat) (word : UInt32) : State :=
  let (f, k) := mixture i s.b s.c s.d
  ⟨rotate s.a 5 + f + s.e + k + word, s.a, rotate s.b 30, s.c, s.d⟩

def State.addBlock (s : State) (block : List UInt32) : State :=
  let t := (schedule block).zipIdx.foldl (fun t (word, i) => t.round i word) s
  ⟨s.a + t.a, s.b + t.b, s.c + t.c, s.d + t.d, s.e + t.e⟩

def State.addBlocks (s : State) : List UInt32 → State
  | [] => s
  | word :: rest => addBlocks (s.addBlock (word :: rest.take 15)) (rest.drop 15)
termination_by ws => ws.length
decreasing_by simp only [List.length_drop, List.length_cons]; omega

def sha1 (message : List UInt8) : List UInt8 :=
  let s := State.initial.addBlocks (words (padded message))
  [s.a, s.b, s.c, s.d, s.e].flatMap fun w => bytesOf 4 w.toNat

end Rollcall.Digest
