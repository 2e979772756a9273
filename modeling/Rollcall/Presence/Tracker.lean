import Rollcall.Metrics
import Rollcall.Presence.Store
import Rollcall.Redis.Pool

/-!
The presence tracker.

Handling a connection must not fail because the store is down. The tracker turns every failure of
the store into a flag and a count, and hands on a value where there is one.
-/

namespace Rollcall

/-- How a call to a collaborator goes: it returns after a wait in milliseconds, or never. -/
inductive Course (α : Type) where
  | returns (wait : Nat) (result : α)
  | never
deriving Repr

/-- What is returned within `limit` milliseconds; a tie counts. -/
def Course.within? {α : Type} (limit : Nat) : Course α → Option α
  | .returns wait result => if wait ≤ limit then some result else none
  | .never => none

namespace Presence

inductive Operation where
  | join
  | leave
  | count
  | ping
deriving DecidableEq, Repr

def Operation.name : Operation → String
  | .join => "join"
  | .leave => "leave"
  | .count => "count"
  | .ping => "ping"

inductive Failure where
  | redis (cause : Redis.Failure)
  | unavailable (cause : String)
  | timedOut (limit : Span)
deriving DecidableEq, Repr, Inhabited

def Failure.circuitOpen : Failure := .unavailable "Circuit breaker is open"

def Failure.ofCall : Redis.CallFailure → Failure
  | .circuitOpen => Failure.circuitOpen
  | .failed cause => .redis cause

def Failure.text : Failure → String
  | .redis cause => "Redis error: " ++ cause.text
  | .unavailable cause => "Presence store unavailable: " ++ cause
  | .timedOut limit => "Presence store call timed out after " ++ limit.text

/-- A way to the store: open, refusing every call, swallowing every call, or holding each call up
for some milliseconds. -/
inductive Gate where
  | up
  | down
  | hung
  | slow (wait : Nat)
deriving DecidableEq, Repr, Inhabited

def Gate.refusal : Failure := .unavailable "store down"

/-- How a call that starts now goes if it would give `result`. -/
def Gate.course {α : Type} (g : Gate) (result : α) : Course (Except Failure α) :=
  match g with
  | .up => .returns 0 (.ok result)
  | .down => .returns 0 (.error Gate.refusal)
  | .hung => .never
  | .slow wait => .returns wait (.ok result)

/-- The online figure, and whether it cannot be trusted. -/
structure Reading where
  onlineUsers : Nat
  degraded : Bool
deriving DecidableEq, Repr

def Reading.unavailable : Reading := ⟨0, true⟩

/-- The flag that the store failed last, beside the metrics that report on it. -/
structure Tracker where
  degraded : Bool
  metrics : Metrics
deriving Repr

namespace Tracker

def initial : Tracker := ⟨false, Metrics.initial⟩

/-- Take note of how a call went: its value if there is one, and the tracker after it. -/
def absorb {α : Type} (t : Tracker) (op : Operation) (result : Except Failure α) :
    Option α × Tracker :=
  match result with
  | .ok value =>
      let metrics := if t.degraded then t.metrics.setDegraded false else t.metrics
      (some value, ⟨false, metrics⟩)
  | .error _ =>
      let metrics := if t.degraded then t.metrics else t.metrics.setDegraded true
      (none, ⟨true, metrics.recordStoreError op.name⟩)

/-- Take note of a count, which also becomes the online figure. -/
def counted (t : Tracker) (result : Except Failure Nat) : Option Nat × Tracker :=
  match t.absorb .count result with
  | (some n, t) => (some n, { t with metrics := t.metrics.setOnlineUsers n })
  | (none, t) => (none, t)

/-- A call that did not return within `limit` milliseconds has failed. -/
def bounded {α : Type} (limit : Nat) (course : Course (Except Failure α)) : Except Failure α :=
  (course.within? limit).getD (.error (.timedOut (Span.ofMillis limit)))

/-- The count for display, within `limit` milliseconds. -/
def reading (t : Tracker) (limit : Nat) (course : Course (Except Failure Nat)) :
    Reading × Tracker :=
  match t.counted (bounded limit course) with
  | (some n, t) => (⟨n, false⟩, t)
  | (none, t) => (Reading.unavailable, t)

def ping (t : Tracker) (limit : Nat) (course : Course (Except Failure Unit)) : Bool × Tracker :=
  match t.absorb .ping (bounded limit course) with
  | (result, t) => (result.isSome, t)

end Tracker
end Presence
end Rollcall
