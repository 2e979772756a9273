import Rollcall.Redis.Client
import Rollcall.Stats.Gauge
import Rollcall.Text.Blank

/-!
Gauges of the shared store.

The figures that the stats page shows about the store.
-/

namespace Rollcall.Redis

def CallFailure.toGauge : CallFailure → Stats.GaugeFailure
  | .circuitOpen => Stats.GaugeFailure.circuitOpen
  | .failed cause => Stats.GaugeFailure.ofRedis cause

namespace Gauges

/-- The lines of a text; a carriage return before the end of a line is not part of it. -/
def lines (text : String) : List String :=
  (text.splitOn "\n").map fun line =>
    let cs := line.toList
    String.ofList (if cs.getLast? = some '\r' then cs.dropLast else cs)

def trim (cs : List Char) : String :=
  String.ofList (Text.trimEnd (cs.dropWhile Text.isBlank))

def memoryLabel : String := "used_memory:"

/-- The number on the first line with the label. -/
def usedMemory? (info : String) : Option Nat :=
  match (lines info).find? fun line => memoryLabel.toList.isPrefixOf line.toList with
  | none => none
  | some line => readUnsigned? (Nat.pow 2 64 - 1) (trim (line.toList.drop memoryLabel.length))

def missingMemory : Stats.GaugeFailure := .backend "used_memory missing from INFO"

def usedMemory (info : Except CallFailure String) : Except Stats.GaugeFailure Nat :=
  match info with
  | .error failure => .error failure.toGauge
  | .ok info =>
      match usedMemory? info with
      | some n => .ok n
      | none => .error missingMemory

/-- A count of keys under way: the patterns still to be counted, the cursor of the next page of the
first of them, and the keys so far. -/
structure Count where
  patterns : List String
  cursor : Nat
  total : Nat
deriving DecidableEq, Repr

def Count.start (patterns : List String) : Count := ⟨patterns, 0, 0⟩

/-- The count after a page. Cursor zero ends a pattern. -/
def Count.add (c : Count) (page : Nat × List String) : Count :=
  { patterns := if page.1 = 0 then c.patterns.drop 1 else c.patterns
    cursor := page.1
    total := c.total + page.2.length }

end Gauges

namespace Client

variable {σ : Type} [Network σ]

def usedMemory (c : Client σ) : Except Stats.GaugeFailure Nat × Client σ :=
  let (info, c) := c.execute Dialog.memoryInfo
  (Gauges.usedMemory info, c)

/-- A count of keys with at most `limit` pages; one that needs more has no result. -/
def countKeys : (limit : Nat) → Gauges.Count → Client σ →
    Option (Except CallFailure Nat) × Client σ
  | limit, n, c =>
      match n.patterns with
      | [] => (some (.ok n.total), c)
      | pattern :: _ =>
          match limit with
          | 0 => (none, c)
          | limit + 1 =>
              match c.execute (Dialog.page n.cursor pattern) with
              | (.ok page, c) => countKeys limit (n.add page) c
              | (.error failure, c) => (some (.error failure), c)

/-- The keys that match the patterns, those that match several counted for each of them. -/
def cachedKeys (c : Client σ) (limit : Nat) (patterns : List String) :
    Option (Except CallFailure Nat) × Client σ :=
  countKeys limit (Gauges.Count.start patterns) c

end Client
end Rollcall.Redis
