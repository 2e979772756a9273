import Rollcall.Span

/-!
Figures for people.

The renderings used on the stats page: byte counts, uptimes and latencies in whole units.
-/

namespace Rollcall.Stats

/-- `value` units, moved on to the next unit as long as it fills one and there is one. -/
def scaleUnits (value : Nat) (unit : String) : List String → Nat × String
  | [] => (value, unit)
  | next :: rest =>
      if 1024 ≤ value then scaleUnits (value / 1024) next rest else (value, unit)

/-- Whole kibibytes and up, to `TB`; less than one is written as such. -/
def byteCount (bytes : Nat) : String :=
  if bytes < 1024 then
    "< 1KB"
  else
    let (value, unit) := scaleUnits (bytes / 1024) "KB" ["MB", "GB", "TB"]
    toString value ++ " " ++ unit

/-- The largest whole unit among seconds, minutes, hours and days. -/
def uptime (d : Span) : String :=
  let s := d.wholeSeconds
  if s < 60 then toString s ++ "s"
  else if s < 3600 then toString (s / 60) ++ "m"
  else if s < 86400 then toString (s / 3600) ++ "h"
  else toString (s / 86400) ++ "d"

/-- Whole milliseconds. -/
def latency (d : Span) : String := toString d.millis ++ "ms"

end Rollcall.Stats
