import Rollcall.Binary64.Text

/-!
Spans of time.

A span is a whole number of nanoseconds. Moments are spans since the start of the clock that the
caller reads.
-/

namespace Rollcall

structure Span where
  nanos : Nat
deriving DecidableEq, Repr, Inhabited

namespace Span

def zero : Span := ⟨0⟩

/-- The longest span that is ever measured or asked for, a nanosecond short of `2 ^ 64` seconds. -/
def longest : Span := ⟨Nat.pow 2 64 * 1000000000 - 1⟩

def ofMillis (ms : Nat) : Span := ⟨ms * 1000000⟩

def ofSeconds (s : Nat) : Span := ⟨s * 1000000000⟩

def millis (d : Span) : Nat := d.nanos / 1000000

def wholeSeconds (d : Span) : Nat := d.nanos / 1000000000

instance : LE Span := ⟨fun a b => a.nanos ≤ b.nanos⟩
instance : LT Span := ⟨fun a b => a.nanos < b.nanos⟩
instance (a b : Span) : Decidable (a ≤ b) := inferInstanceAs (Decidable (a.nanos ≤ b.nanos))
instance (a b : Span) : Decidable (a < b) := inferInstanceAs (Decidable (a.nanos < b.nanos))

theorem le_trans {a b c : Span} (hab : a ≤ b) (hbc : b ≤ c) : a ≤ c := Nat.le_trans hab hbc

theorem eq_of_le_of_le {a b : Span} (hab : a ≤ b) (hba : b ≤ a) : a = b := by
  cases a
  cases b
  exact congrArg mk (Nat.le_antisymm hab hba)

instance : Add Span := ⟨fun a b => ⟨a.nanos + b.nanos⟩⟩
instance : Sub Span := ⟨fun a b => ⟨a.nanos - b.nanos⟩⟩

/-- The length in seconds: whole seconds and the fraction are rounded, then their sum. -/
def seconds (d : Span) : Binary64 :=
  Binary64.ofNat d.wholeSeconds +
    Binary64.ofNat (d.nanos % 1000000000) / Binary64.ofNat 1000000000

/-- `whole` and the fraction `rest / 10 ^ places`, written without zeros at the end, and a unit. -/
def decimalText (whole rest places : Nat) (unit : String) : String :=
  let d := (Decimal.mk rest (-(places : Int))).trim places
  let fraction :=
    if rest = 0 then "" else
      let digits := toString d.digits
      "." ++ "".pushn '0' ((-d.exponent).toNat - digits.length) ++ digits
  toString whole ++ fraction ++ unit

/-- The length in the largest of `s`, `ms`, `µs` and `ns` that it reaches, with as many decimal
places as it needs. -/
def text (d : Span) : String :=
  if 1000000000 ≤ d.nanos then
    decimalText (d.nanos / 1000000000) (d.nanos % 1000000000) 9 "s"
  else if 1000000 ≤ d.nanos then
    decimalText (d.nanos / 1000000) (d.nanos % 1000000) 6 "ms"
  else if 1000 ≤ d.nanos then
    decimalText (d.nanos / 1000) (d.nanos % 1000) 3 "µs"
  else
    decimalText d.nanos 0 0 "ns"

end Span
end Rollcall
