import Rollcall.Http.Envelope
import Rollcall.Metrics.Exposition
import Rollcall.Redis.Survey
import Rollcall.Service

/-!
The pages of the service.

What the service tells about itself: whether it is well, its metrics and its stats. Every page is
answered, whatever the collaborators do.
-/

namespace Rollcall.Service

open Http

variable {σ : Type} [Redis.Network σ]

def storeReport (c : Redis.Client σ) : Json × Redis.Client σ :=
  let now := Redis.Network.now c.net
  let (connected, pool) := c.pool.isHealthy now
  let ((circuit, failures), pool) := pool.circuit now
  (.object [
    ("status", .string pool.health.status.name),
    ("connected", .bool connected),
    ("circuit_breaker_state", .string circuit.name),
    ("circuit_breaker_failures", .nat failures),
    ("total_reconnections", .nat pool.health.reconnections)], { c with pool })

/-- The document on the service's health, given whether the store answers. -/
def healthJson (s : Service σ) (answers : Bool) (store : Option Json) : Json :=
  .object ([
    ("status", .string (if answers then "ok" else "degraded")),
    ("version", .string s.host.version),
    ("uptime_seconds", .nat s.host.uptime.wholeSeconds),
    ("presence", .object [
      ("backend", .string s.backend.name),
      ("status", .string (Stats.Status.ofOk answers).name)])] ++
    (store.map fun report => ("redis", report)).toList ++
    [("connections", .object [
      ("total", .nat s.counts.total),
      ("unique_users", .nat s.counts.uniqueUsers)])])

def health (s : Service σ) : Response × Service σ :=
  let (answers, s) := s.pingStore
  match s.store with
  | none => (.json 200 (s.healthJson answers none), s)
  | some client =>
      let (report, client) := storeReport client
      let s := { s with store := some client }
      (.json 200 (s.healthJson answers (some report)), s)

def metricsType : String := "text/plain; version=0.0.4; charset=utf-8"

def circuitCode : Circuit → Nat
  | .closed => 0
  | .opened => 1
  | .halfOpen => 2

/-- The service with the figures brought up to date that are read only when someone looks. -/
def sampled (s : Service σ) : Service σ :=
  let s := s.mapMetrics fun m => m.setConnectionsOpen s.counts.total
  match s.store with
  | none => s
  | some client =>
      let ((circuit, _), pool) := client.pool.circuit (Redis.Network.now client.net)
      let s := { s with store := some { client with pool } }
      s.mapMetrics fun m =>
        m.setRedis pool.health.isHealthy pool.health.reconnections (circuitCode circuit)

def metricsPage (s : Service σ) : Response × Service σ :=
  let s := s.sampled
  (⟨200, [("content-type", metricsType)], s.metrics.exposition⟩, s)

/-- How long the slowest gauge keeps a snapshot waiting. -/
def gaugeWait (s : Service σ) : Nat :=
  let cache := match s.cache with
    | none => 0
    | some g =>
        max (waiting s.limit g.roundTrip)
          (max (waiting s.limit g.usedMemory)
            (waiting s.limit (g.cachedKeys s.settings.stats.cacheKeyPatterns)))
  let database := match s.database with
    | none => 0
    | some g => max (waiting s.limit g.ping) (waiting s.limit g.views)
  max cache database

def snapshotOf (s : Service σ) (reading : Presence.Reading) (cache : Option Stats.CacheGauges) :
    Stats.Snapshot :=
  let sources : Stats.Sources :=
    { backend := s.backend.name
      latency := s.latency.summary
      connections := s.counts
      cache
      database := s.database
      patterns := s.settings.stats.cacheKeyPatterns
      host := s.host }
  Stats.snapshot sources s.limit reading

/-- A snapshot of the service. All collaborators are asked at the same time. -/
def snapshot (s : Service σ) : Stats.Snapshot × Service σ :=
  match s.store with
  | some client =>
      let survey := client.survey s.settings.presence.key s.settings.stats.cacheKeyPatterns
      let (reading, tracker) := s.tracker.reading s.limit survey.onlineCourse
      let s := { s with store := some survey.client }.setTracker tracker
      let s := s.pass s.gaugeWait
      (s.snapshotOf reading (some survey.gauges), s)
  | none =>
      let course := s.presence.start
      let wait := waiting s.limit course
      let s := s.pass wait
      let (reading, tracker) := s.tracker.reading s.limit (lateResult s.presence.store.count course)
      let s := (s.setTracker tracker).pass (s.gaugeWait - wait)
      (s.snapshotOf reading s.cache, s)

def overview (s : Service σ) : Response × Service σ :=
  let (snapshot, s) := s.snapshot
  ((Envelope.success snapshot.toJson).response, s)

end Rollcall.Service
