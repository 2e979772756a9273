import Rollcall.Database.Failure
import Rollcall.Presence.Tracker

/-!
Gauges.

The figures that come from collaborators outside the service, each read by a call that may fail,
take its time or never return.
-/

namespace Rollcall.Stats

inductive GaugeFailure where
  | timedOut (limit : Span)
  | unavailable (cause : String)
  | backend (cause : String)
deriving DecidableEq, Repr, Inhabited

namespace GaugeFailure

def text : GaugeFailure → String
  | .timedOut limit => "Gauge timed out after " ++ limit.text
  | .unavailable cause => "Gauge unavailable: " ++ cause
  | .backend cause => "Gauge backend error: " ++ cause

def circuitOpen : GaugeFailure := .unavailable "circuit breaker is open"

def ofRedis (cause : Redis.Failure) : GaugeFailure := .backend cause.text

def ofDatabase (cause : Database.Failure) : GaugeFailure := .backend cause.text

end GaugeFailure

abbrev GaugeCourse (α : Type) := Course (Except GaugeFailure α)

/-- A reading that did not arrive within `limit` milliseconds has failed. -/
def bounded {α : Type} (limit : Nat) (course : GaugeCourse α) : Except GaugeFailure α :=
  (course.within? limit).getD (.error (.timedOut (Span.ofMillis limit)))

end Rollcall.Stats
