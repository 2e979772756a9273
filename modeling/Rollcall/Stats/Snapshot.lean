import Rollcall.Connection.Hub
import Rollcall.Json
import Rollcall.Latency.Window
import Rollcall.Stats.Figures
import Rollcall.Stats.Gauge

/-!
The stats snapshot.

One document about the whole service. Every collaborator is read within one limit; one that fails or
is late only marks its own section.
-/

namespace Rollcall.Stats

inductive Status where
  | normal
  | degraded
  /-- The collaborator is not configured. -/
  | disabled
deriving DecidableEq, Repr, Inhabited

def Status.name : Status → String
  | .normal => "normal"
  | .degraded => "degraded"
  | .disabled => "disabled"

def Status.ofOk (ok : Bool) : Status := if ok then .normal else .degraded

structure CacheGauges where
  name : String
  roundTrip : GaugeCourse Span
  usedMemory : GaugeCourse Nat
  cachedKeys : List String → GaugeCourse Nat

structure PoolFigures where
  maxOpen : Nat
  opened : Nat
  inUse : Nat
  idle : Nat
deriving DecidableEq, Repr

structure DatabaseGauges where
  pool : PoolFigures
  ping : GaugeCourse Unit
  views : GaugeCourse Int

structure Host where
  version : String
  toolchain : String
  kernel : String
  startedAt : String
  generatedAt : String
  uptime : Span
  memory : Option Nat
  liveTasks : Option Nat
  threads : Option Nat

/-- Everything a snapshot is made from, the presence reading apart. -/
structure Sources where
  backend : String
  latency : Latency.Summary
  connections : Connection.Counts
  cache : Option CacheGauges
  database : Option DatabaseGauges
  patterns : List String
  host : Host

structure BasicSection where
  onlineUsers : Nat
  presenceStatus : Status
  totalViews : Int
  viewsStatus : Status
deriving DecidableEq, Repr

structure CacheSection where
  status : Status
  latency : String
  cachedKeys : Option Nat
  backend : String
  memory : String
deriving DecidableEq, Repr

structure DatabaseSection where
  status : Status
  pool : PoolFigures
deriving DecidableEq, Repr

structure Snapshot where
  basic : BasicSection
  serviceStatus : Status
  cache : CacheSection
  database : DatabaseSection
  latency : Latency.Summary
  connections : Connection.Counts
  backend : String
  host : Host

/-- The key patterns that are counted unless others are set. -/
def defaultPatterns : List String := ["article*", "online*", "session*"]

def absent : String := "n/a"

def CacheSection.disabled : CacheSection := ⟨.disabled, absent, none, "none", absent⟩

/-- The cache section; a figure that did not arrive is replaced by a placeholder. -/
def CacheGauges.read (g : CacheGauges) (limit : Nat) (patterns : List String) : CacheSection :=
  let roundTrip := bounded limit g.roundTrip
  let memory := bounded limit g.usedMemory
  let keys := bounded limit (g.cachedKeys patterns)
  { status := .ofOk (roundTrip.toBool && memory.toBool && keys.toBool)
    latency := (roundTrip.toOption.map Stats.latency).getD absent
    cachedKeys := keys.toOption
    backend := g.name
    memory := (memory.toOption.map byteCount).getD absent }

def cacheSection (limit : Nat) (patterns : List String) : Option CacheGauges → CacheSection
  | none => .disabled
  | some g => g.read limit patterns

/-- The database section, and the number of views with its status. -/
def databaseSection (limit : Nat) : Option DatabaseGauges → DatabaseSection × Int × Status
  | none => (⟨.disabled, ⟨0, 0, 0, 0⟩⟩, 0, .disabled)
  | some g =>
      let views := bounded limit g.views
      (⟨.ofOk (bounded limit g.ping).toBool, g.pool⟩, views.toOption.getD 0, .ofOk views.toBool)

def snapshot (s : Sources) (limit : Nat) (presence : Presence.Reading) : Snapshot :=
  let (database, totalViews, viewsStatus) := databaseSection limit s.database
  { basic :=
      { onlineUsers := presence.onlineUsers
        presenceStatus := .ofOk (!presence.degraded)
        totalViews
        viewsStatus }
    serviceStatus := .ofOk (!presence.degraded && database.status != .degraded)
    cache := cacheSection limit s.patterns s.cache
    database
    latency := s.latency
    connections := s.connections
    backend := s.backend
    host := s.host }

namespace Snapshot

def optional (n : Option Nat) : Json := .ofOption .nat n

def status (s : Status) : Json := .string s.name

def basicJson (s : BasicSection) : Json := .object [
  ("onlineUsers", .nat s.onlineUsers),
  ("presenceStatus", status s.presenceStatus),
  ("totalViews", .int s.totalViews),
  ("viewsStatus", status s.viewsStatus)]

def cacheJson (s : CacheSection) : Json := .object [
  ("status", status s.status),
  ("latency", .string s.latency),
  ("cachedKeys", optional s.cachedKeys),
  ("cacheBackend", .string s.backend),
  ("memoryUsage", .string s.memory)]

def databaseJson (s : DatabaseSection) : Json := .object [
  ("status", status s.status),
  ("maxOpenConns", .nat s.pool.maxOpen),
  ("openConns", .nat s.pool.opened),
  ("inUse", .nat s.pool.inUse),
  ("idle", .nat s.pool.idle)]

def toJson (s : Snapshot) : Json :=
  let uptime := Json.string (Stats.uptime s.host.uptime)
  .object [
    ("basicStats", basicJson s.basic),
    ("serviceInfo", .object [
      ("status", status s.serviceStatus),
      ("version", .string s.host.version),
      ("rustVersion", .string s.host.toolchain),
      ("kernelVersion", .string s.host.kernel),
      ("startedAt", .string s.host.startedAt),
      ("uptime", uptime)]),
    ("cacheInfo", cacheJson s.cache),
    ("performanceInfo", .object [
      ("memoryUsage", .string ((s.host.memory.map byteCount).getD absent)),
      ("liveTasks", optional s.host.liveTasks),
      ("threads", optional s.host.threads),
      ("gcPauseTotal", .string absent),
      ("averageLatency", .string (Stats.latency s.latency.average))]),
    ("requestStats", .object [
      ("totalRequests", .nat s.latency.total),
      ("qps", .float (Latency.Window.rate s.latency.total s.host.uptime)),
      ("uptime", uptime),
      ("p50Latency", .string (Stats.latency s.latency.p50)),
      ("p95Latency", .string (Stats.latency s.latency.p95)),
      ("p99Latency", .string (Stats.latency s.latency.p99)),
      ("windowSize", .nat s.latency.count)]),
    ("databaseStats", databaseJson s.database),
    ("connectionStats", .object [
      ("localConnections", .nat s.connections.total),
      ("uniqueUsers", .nat s.connections.uniqueUsers),
      ("presenceBackend", .string s.backend)]),
    ("generatedAt", .string s.host.generatedAt)]

end Snapshot
end Rollcall.Stats
