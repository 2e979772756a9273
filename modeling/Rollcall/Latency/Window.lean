import Rollcall.Span

/-!
The latency window.

The durations of the most recent requests, at most `capacity` of them, and the number of all
requests. Samples are held in two lists, the older ones in order of arrival and the newer ones
reversed, so that both ends are cheap; `samples` is the window they stand for.
-/

namespace Rollcall.Latency

structure Window where
  capacity : Nat
  older : List Span
  newer : List Span
  total : Nat
deriving Repr

namespace Window

def defaultCapacity : Nat := 1000

/-- The largest capacity for which the window can be laid out: sixteen bytes a sample, fewer than
`2 ^ 63` bytes in all. There is taken to be memory enough for that. -/
def maxCapacity : Nat := (Nat.pow 2 63 - 1) / 16

def overflow : String := "capacity overflow"

/-- A window for `capacity` samples, at least one, before the first request. -/
def empty (capacity : Nat) : Window := ⟨max capacity 1, [], [], 0⟩

/-- The empty window that is asked for, if it can be laid out. -/
def create (capacity : Nat) : Except String Window :=
  if maxCapacity < capacity then .error overflow else .ok (empty capacity)

def samples (w : Window) : List Span := w.older ++ w.newer.reverse

def count (w : Window) : Nat := w.older.length + w.newer.length

def dropOldest (w : Window) : Window :=
  match w.older with
  | _ :: rest => { w with older := rest }
  | [] => { w with older := w.newer.reverse.tail, newer := [] }

/-- One more request; a full window loses its oldest sample. -/
def record (w : Window) (d : Span) : Window :=
  let w := if w.capacity ≤ w.total then w.dropOldest else w
  { w with newer := d :: w.newer, total := w.total + 1 }

def recordAll (w : Window) (ds : List Span) : Window := ds.foldl record w

theorem create_eq_ok_iff {capacity : Nat} {w : Window} :
    create capacity = .ok w ↔ capacity ≤ maxCapacity ∧ w = empty capacity := by
  unfold create
  split
  case isTrue hlarge => simp [Nat.not_le_of_lt hlarge]
  case isFalse hfits => simp [Nat.le_of_not_lt hfits, eq_comm]

theorem samples_empty (capacity : Nat) : (empty capacity).samples = [] := rfl

theorem length_samples (w : Window) : w.samples.length = w.count := by
  simp [samples, count]

theorem samples_dropOldest (w : Window) : w.dropOldest.samples = w.samples.tail := by
  unfold dropOldest samples
  cases w.older <;> simp

theorem capacity_dropOldest (w : Window) : w.dropOldest.capacity = w.capacity := by
  unfold dropOldest
  cases w.older <;> rfl

theorem total_dropOldest (w : Window) : w.dropOldest.total = w.total := by
  unfold dropOldest
  cases w.older <;> rfl

theorem capacity_record (w : Window) (d : Span) : (w.record d).capacity = w.capacity := by
  unfold record
  by_cases h : w.capacity ≤ w.total
  · rw [if_pos h]
    exact w.capacity_dropOldest
  · rw [if_neg h]

theorem total_record (w : Window) (d : Span) : (w.record d).total = w.total + 1 := by
  unfold record
  by_cases h : w.capacity ≤ w.total
  · rw [if_pos h]
    exact congrArg (· + 1) w.total_dropOldest
  · rw [if_neg h]

/-- The new sample comes last, and a full window loses its first one. -/
theorem samples_record (w : Window) (d : Span) :
    (w.record d).samples =
      (if w.capacity ≤ w.total then w.samples.tail else w.samples) ++ [d] := by
  unfold record
  by_cases h : w.capacity ≤ w.total
  · rw [if_pos h, if_pos h, ← samples_dropOldest]
    simp [samples]
  · rw [if_neg h, if_neg h]
    simp [samples]

/-- The mean of a list of durations, rounded down and capped at `2 ^ 64 - 1` nanoseconds. -/
def mean (ds : List Span) : Span :=
  ⟨min (ds.foldl (fun n d => n + d.nanos) 0 / ds.length) (Nat.pow 2 64 - 1)⟩

def average (w : Window) : Span := mean w.samples

def sorted (w : Window) : List Span := w.samples.mergeSort (fun a b => a.nanos ≤ b.nanos)

end Window

/-- The place of the `p`-th percentile among `count` samples in ascending order: `count · p / 100`
in double precision, product before quotient, cut to an integer and to the last place. `p` is moved
into `[0, 100]`, `nan` to `0`. -/
def percentileIndex (count : Nat) (p : Binary64) : Nat :=
  let p := if p.isNan then Binary64.zero false else p.clamp (Binary64.zero false) 100
  min (Binary64.ofNat count * p / 100).toUnsigned (count - 1)

/-- The `p`-th percentile of samples in ascending order, zero if there are none. -/
def nearestRank (sorted : List Span) (p : Binary64) : Span :=
  (sorted[percentileIndex sorted.length p]?).getD Span.zero

structure Summary where
  average : Span
  p50 : Span
  p95 : Span
  p99 : Span
  count : Nat
  total : Nat
deriving Repr

namespace Window

def percentile (w : Window) (p : Binary64) : Span := nearestRank w.sorted p

def summary (w : Window) : Summary :=
  let sorted := w.sorted
  { average := w.average
    p50 := nearestRank sorted 50
    p95 := nearestRank sorted 95
    p99 := nearestRank sorted 99
    count := sorted.length
    total := w.total }

/-- Requests per second over an uptime, zero before any time has passed. -/
def rate (total : Nat) (uptime : Span) : Binary64 :=
  let seconds := uptime.seconds
  if seconds.ble (Binary64.zero false) then Binary64.zero false
  else Binary64.ofNat total / seconds

end Window
end Rollcall.Latency
