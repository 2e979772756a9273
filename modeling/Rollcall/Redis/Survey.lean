import Rollcall.Presence.Tracker
import Rollcall.Redis.Gauges
import Rollcall.Stats.Snapshot

/-!
A survey of the shared store.

All figures that one stats page needs from the store, read by calls that overlap: each of them takes
one step in turn.
-/

namespace Rollcall.Redis

structure Survey (σ : Type) where
  client : Client σ
  /-- The key of the members. -/
  key : String
  online : Call Nat
  roundTrip : Call Unit
  memory : Call String
  page : Call (Nat × List String)
  count : Gauges.Count

namespace Survey

variable {σ α : Type} [Network σ]

def start (client : Client σ) (key : String) (patterns : List String) : Survey σ :=
  ⟨client, key, .fresh, .fresh, .fresh, .fresh, Gauges.Count.start patterns⟩

def turn (dialog : Dialog α) (call : Call α) (c : Client σ) : Call α × Client σ :=
  (Client.step dialog call c).getD (call, c)

/-- One step of the count of keys. A page that has come in is counted, and the next one asked
for. -/
def turnCount (s : Survey σ) : Survey σ :=
  match s.count.patterns, s.page with
  | [], _ => s
  | _, .ended (.ok page) => { s with page := .fresh, count := s.count.add page }
  | pattern :: _, call =>
      let (page, client) := turn (Dialog.page s.count.cursor pattern) call s.client
      { s with page, client }

def round (s : Survey σ) : Survey σ :=
  let (online, client) := turn (Dialog.count s.key) s.online s.client
  let (roundTrip, client) := turn Dialog.ping s.roundTrip client
  let (memory, client) := turn Dialog.memoryInfo s.memory client
  turnCount { s with client, online, roundTrip, memory }

def rounds : (n : Nat) → Survey σ → Survey σ
  | 0, s => s
  | n + 1, s => rounds n s.round

/-- Enough rounds for every call to end, however long the calls before it held it up, if each
pattern has one page. -/
def enough (patterns : List String) : Nat := 40 + 10 * patterns.length

/-- How a call that had this outcome went; one without an outcome never returns. -/
def course {ε : Type} (outcome : Option (Except ε α)) : Course (Except ε α) :=
  match outcome with
  | some result => .returns 0 result
  | none => .never

def onlineCourse (s : Survey σ) : Course (Except Presence.Failure Nat) :=
  course (s.online.outcome?.map fun r => r.mapError Presence.Failure.ofCall)

/-- The count of keys, if it is complete or has failed. -/
def counted? (s : Survey σ) : Option (Except CallFailure Nat) :=
  match s.count.patterns, s.page with
  | [], _ => some (.ok s.count.total)
  | _, .ended (.error failure) => some (.error failure)
  | _, _ => none

def gauges (s : Survey σ) : Stats.CacheGauges where
  name := "Redis"
  roundTrip := course (s.roundTrip.outcome?.map fun r =>
    (r.mapError CallFailure.toGauge).map fun () => Span.zero)
  usedMemory := course (s.memory.outcome?.map Gauges.usedMemory)
  cachedKeys := fun _ => course (s.counted?.map fun r => r.mapError CallFailure.toGauge)

end Survey

def Client.survey {σ : Type} [Network σ] (c : Client σ) (key : String) (patterns : List String) :
    Survey σ :=
  (Survey.start c key patterns).rounds (Survey.enough patterns)

end Rollcall.Redis
