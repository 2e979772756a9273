import Mathlib.Data.List.DropRight
import Rollcall.Latency.Window

/-!
The window against the full history.

A window is used by calls, each of which records a duration or reads something. Whatever the calls
are, every read is answered as by someone who keeps all durations and looks at the latest ones when
asked (`History.reply`); so the window forgets nothing that a read could ask for, and the reads
leave no trace (`Window.follows_history`).
-/

namespace Rollcall.Latency

inductive Query where
  | samples
  | count
  | total
  | average
  | percentile (p : Binary64)
  | summary

inductive Answer where
  | samples (ds : List Span)
  | number (n : Nat)
  | duration (d : Span)
  | summary (s : Summary)

inductive Call where
  | record (d : Span)
  | read (q : Query)

def Call.recorded? : Call → Option Span
  | .record d => some d
  | .read _ => none

def recorded (calls : List Call) : List Span := calls.filterMap Call.recorded?

def ascending (ds : List Span) : List Span := ds.mergeSort fun a b => a.nanos ≤ b.nanos

namespace Window

def answer (w : Window) : Query → Answer
  | .samples => .samples w.samples
  | .count => .number w.count
  | .total => .number w.total
  | .average => .duration w.average
  | .percentile p => .duration (w.percentile p)
  | .summary => .summary w.summary

def after (w : Window) : List Call → Window
  | [] => w
  | .record d :: rest => (w.record d).after rest
  | .read _ :: rest => w.after rest

/-- The answers to the reads among calls. -/
def replies (w : Window) : List Call → List Answer
  | [] => []
  | .record d :: rest => (w.record d).replies rest
  | .read q :: rest => w.answer q :: w.replies rest

end Window

namespace History

/-- The last durations of a history, as many as a window of this capacity has room for. -/
def latest (room : Nat) (history : List Span) : List Span := history.rtake (max room 1)

/-- What a read gives to someone who has the full history. -/
def reply (room : Nat) (history : List Span) : Query → Answer
  | .samples => .samples (latest room history)
  | .count => .number (min history.length (max room 1))
  | .total => .number history.length
  | .average => .duration (Window.mean (latest room history))
  | .percentile p => .duration (nearestRank (ascending (latest room history)) p)
  | .summary => .summary
      { average := Window.mean (latest room history)
        p50 := nearestRank (ascending (latest room history)) 50
        p95 := nearestRank (ascending (latest room history)) 95
        p99 := nearestRank (ascending (latest room history)) 99
        count := min history.length (max room 1)
        total := history.length }

def replies (room : Nat) (history : List Span) : List Call → List Answer
  | [] => []
  | .record d :: rest => replies room (history ++ [d]) rest
  | .read q :: rest => reply room history q :: replies room history rest

theorem length_latest (room : Nat) (history : List Span) :
    (latest room history).length = min history.length (max room 1) := by
  simp only [latest, List.rtake, List.length_drop]
  omega

/-- One more duration comes last, and the first of the latest gives way to it if there is no
room. -/
theorem latest_concat (room : Nat) (history : List Span) (d : Span) :
    latest room (history ++ [d]) =
      (if max room 1 ≤ history.length then (latest room history).tail
        else latest room history) ++ [d] := by
  obtain ⟨places, hplaces⟩ : ∃ places, max room 1 = places + 1 := ⟨max room 1 - 1, by omega⟩
  simp only [latest, hplaces, List.rtake_concat_succ, List.append_cancel_right_eq]
  simp only [List.rtake]
  split
  case isTrue hfull =>
    rw [List.tail_drop]
    congr 1
    omega
  case isFalse hspace =>
    congr 1
    omega

end History

namespace Window

variable {room : Nat} {history : List Span} {w : Window}

/-- A window of a requested capacity that has seen a history. -/
structure Reflects (room : Nat) (history : List Span) (w : Window) : Prop where
  capacity : w.capacity = max room 1
  total : w.total = history.length
  samples : w.samples = History.latest room history

theorem reflects_empty (room : Nat) : Reflects room [] (empty room) :=
  ⟨rfl, rfl, by simp [History.latest, samples_empty]⟩

/-- The mean and the ranks are read off the ascending samples, which are as many as the samples. -/
theorem summary_eq (w : Window) :
    w.summary =
      ⟨w.average, w.percentile 50, w.percentile 95, w.percentile 99, w.count, w.total⟩ := by
  have hcount : w.sorted.length = w.count := by
    rw [sorted, List.length_mergeSort, length_samples]
  simp only [summary, percentile, hcount]

namespace Reflects

/-- One more duration is seen by both, and both forget the same one. -/
theorem record (hreflects : Reflects room history w) (d : Span) :
    Reflects room (history ++ [d]) (w.record d) where
  capacity := (w.capacity_record d).trans hreflects.capacity
  total := by rw [total_record, hreflects.total, List.length_append, List.length_singleton]
  samples := by
    rw [samples_record, History.latest_concat, hreflects.capacity, hreflects.total,
      hreflects.samples]

theorem count (hreflects : Reflects room history w) :
    w.count = min history.length (max room 1) := by
  rw [← length_samples, hreflects.samples, History.length_latest]

/-- A window answers each read as the history does. -/
theorem answer (hreflects : Reflects room history w) (q : Query) :
    w.answer q = History.reply room history q := by
  have haverage : w.average = mean (History.latest room history) := by
    rw [average, hreflects.samples]
  have hrank (p : Binary64) :
      w.percentile p = nearestRank (ascending (History.latest room history)) p := by
    rw [percentile, sorted, hreflects.samples, ascending]
  cases q with
  | samples => exact congrArg Answer.samples hreflects.samples
  | count => exact congrArg Answer.number hreflects.count
  | total => exact congrArg Answer.number hreflects.total
  | average => exact congrArg Answer.duration haverage
  | percentile p => exact congrArg Answer.duration (hrank p)
  | summary =>
      simp only [Window.answer, History.reply, summary_eq, haverage, hrank, hreflects.count,
        hreflects.total]

/-- By induction on the calls: reads change nothing, and each record is one step. -/
theorem after (hreflects : Reflects room history w) (calls : List Call) :
    Reflects room (history ++ recorded calls) (w.after calls) := by
  induction calls generalizing history w with
  | nil => simpa [recorded, Window.after] using hreflects
  | cons call rest ih =>
      cases call with
      | record d =>
          have hrest := ih (hreflects.record d)
          rwa [List.append_assoc] at hrest
      | read q => exact ih hreflects

theorem replies (hreflects : Reflects room history w) (calls : List Call) :
    w.replies calls = History.replies room history calls := by
  induction calls generalizing history w with
  | nil => rfl
  | cons call rest ih =>
      cases call with
      | record d => exact ih (hreflects.record d)
      | read q => exact congrArg₂ List.cons (hreflects.answer q) (ih hreflects)

end Reflects

/-- Reads leave a window as it was. -/
theorem after_reads (w : Window) (reads : List Query) : w.after (reads.map Call.read) = w := by
  induction reads with
  | nil => rfl
  | cons q rest ih => exact ih

/-- A window that can be laid out is there. After any calls it holds the latest durations, as many
as it was asked to have room for but at least one, and has counted all of them; a summary says what
the single reads say. All later calls are answered as from the full history, and as if nothing had
been read before them. -/
theorem follows_history (room : Nat) (hfits : room ≤ maxCapacity) :
    ∃ start, create room = .ok start ∧ ∀ calls : List Call,
      (start.after calls).samples =
        (recorded calls).drop ((recorded calls).length - min (recorded calls).length (max 1 room)) ∧
      (start.after calls).count = (start.after calls).samples.length ∧
      (start.after calls).total = (recorded calls).length ∧
      (start.after calls).summary =
        { average := (start.after calls).average
          p50 := (start.after calls).percentile 50
          p95 := (start.after calls).percentile 95
          p99 := (start.after calls).percentile 99
          count := (start.after calls).count
          total := (start.after calls).total } ∧
      ∀ later : List Call,
        (start.after calls).replies later = History.replies room (recorded calls) later ∧
          ∀ reads : List Query,
            ((start.after calls).after (reads.map Call.read)).replies later =
              (start.after calls).replies later := by
  refine ⟨empty room, create_eq_ok_iff.mpr ⟨hfits, rfl⟩, fun calls => ?_⟩
  have hreflects : Reflects room (recorded calls) ((empty room).after calls) := by
    simpa using (reflects_empty room).after calls
  generalize (empty room).after calls = w at hreflects
  refine ⟨?_, w.length_samples.symm, hreflects.total, w.summary_eq, fun later => ?_⟩
  · rw [hreflects.samples, History.latest, List.rtake]
    congr 1
    omega
  · refine ⟨hreflects.replies later, fun reads => ?_⟩
    rw [after_reads]

/-- A window without room for anything keeps the last sample, and the largest one can be laid
out. -/
theorem follows_history_extremes :
    (0 ≤ maxCapacity ∧ ∃ start, create 0 = .ok start ∧
      (start.after [.record ⟨1⟩, .read .average, .record ⟨2⟩]).samples = [⟨2⟩]) ∧
      maxCapacity ≤ maxCapacity ∧ ∃ start, create maxCapacity = .ok start := by
  obtain ⟨none, hnone, hcalls⟩ := follows_history 0 (Nat.zero_le _)
  obtain ⟨largest, hlargest, _⟩ := follows_history maxCapacity (Nat.le_refl _)
  exact ⟨⟨Nat.zero_le _, none, hnone, (hcalls _).1⟩, Nat.le_refl _, largest, hlargest⟩

/-- Not every window that can be asked for can be laid out. -/
theorem oversized_window_refused :
    create (Nat.pow 2 63) = .error overflow ∧
      ¬ ∀ room, ∃ start, create room = .ok start ∧ ∀ calls : List Call,
        (start.after calls).count = min (recorded calls).length (max 1 room) := by
  have hrefused : create (Nat.pow 2 63) = .error overflow := if_pos (by decide)
  refine ⟨hrefused, fun hclaim => ?_⟩
  obtain ⟨start, hcreated, _⟩ := hclaim (Nat.pow 2 63)
  rw [hrefused] at hcreated
  cases hcreated

end Window
end Rollcall.Latency
