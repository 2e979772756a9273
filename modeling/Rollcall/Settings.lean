import Rollcall.Frame
import Rollcall.Span
import Rollcall.Stats.Snapshot

/-!
Settings.

Everything that can be set, by section, with its default.
-/

namespace Rollcall

namespace Settings

structure Server where
  host : String := "0.0.0.0"
  port : Nat := 8000
  corsOrigins : List String := []
  /-- Upper bound of the drain, in seconds. -/
  shutdownTimeout : Nat := 10
deriving Repr

structure Redis where
  url : String := "redis://localhost:6379"
  warmUpAttempts : Nat := 5
deriving Repr

inductive Backend where
  | redis
  | memory
deriving DecidableEq, Repr, Inhabited

def Backend.name : Backend → String
  | .redis => "redis"
  | .memory => "memory"

/-- The backend that is used where another may be wanted: without a connection to the shared store
presence is kept in memory. -/
def Backend.available (wanted : Backend) (hasPool : Bool) : Backend :=
  if hasPool then wanted else .memory

structure Presence where
  backend : Backend := .redis
  /-- The key of the sorted set of members. -/
  key : String := "online_users"
deriving Repr

structure Database where
  url : String
  poolSize : Nat := 10
  /-- How long to wait for a connection, in seconds. -/
  connectTimeout : Nat := 5
  viewsQuery : String := "SELECT COALESCE(SUM(view_count), 0)::BIGINT FROM article"
deriving Repr

structure Latency where
  windowSize : Nat := 1000
deriving Repr

structure WebSocket where
  /-- Places in the outbound channel of a connection. -/
  channelBuffer : Nat := 32
  /-- How long a send of a broadcast may wait, in milliseconds. -/
  broadcastTimeout : Nat := 2000
  messagePolicy : MessagePolicy := .echo
  maxUserIdLength : Nat := 128
deriving Repr

structure Stats where
  /-- How long a gauge may take, in milliseconds. -/
  gaugeTimeout : Nat := 500
  cacheKeyPatterns : List String := Rollcall.Stats.defaultPatterns
deriving Repr

structure Telemetry where
  enabled : Bool := false
  endpoint : String := "http://localhost:4317"
  serviceName : String := "presence-service"
  samplingRatio : Binary64 := 1
deriving Repr

end Settings

structure Settings where
  server : Settings.Server := {}
  redis : Settings.Redis := {}
  presence : Settings.Presence := {}
  database : Option Settings.Database := none
  latency : Settings.Latency := {}
  websocket : Settings.WebSocket := {}
  stats : Settings.Stats := {}
  telemetry : Settings.Telemetry := {}
deriving Repr

namespace Settings

def address (s : Settings) : String := s.server.host ++ ":" ++ toString s.server.port

end Settings
end Rollcall
