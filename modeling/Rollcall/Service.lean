import Rollcall.Http.Cors
import Rollcall.Redis.Client
import Rollcall.Service.Wiring
import Rollcall.Session.World
import Rollcall.Settings
import Rollcall.Stats.Snapshot

/-!
The service.

All parts of a running service: its settings, the connections with the presence service, the latency
window, and what it reads from outside. Presence is kept in memory unless there is a client of the
shared store.
-/

namespace Rollcall

structure Service (σ : Type) where
  settings : Settings
  origins : Http.Cors.Origins
  latency : Latency.Window
  world : Session.World
  cache : Option Stats.CacheGauges
  database : Option Stats.DatabaseGauges
  /-- The client of the shared store, if presence is kept there. -/
  store : Option (Redis.Client σ)
  host : Stats.Host

namespace Service

variable {σ α : Type}

def siteOf (s : Settings) : Session.Instance :=
  Session.Instance.create s.websocket.messagePolicy s.websocket.channelBuffer
    s.websocket.broadcastTimeout

/-- A service that nobody has called yet, with the latency window of its wiring. -/
def create (settings : Settings) (latency : Latency.Window) (origins : Http.Cors.Origins)
    (host : Stats.Host) : Service σ where
  settings := settings
  origins := origins
  latency := latency
  world := Session.World.create (siteOf settings)
  cache := none
  database := none
  store := none
  host := host

/-- The gauges of a pool whose database is out of reach: every call fails as soon as it may no
longer wait for a connection. -/
def gaugesOf (pool : Database.Pool) (d : Settings.Database) : Stats.DatabaseGauges :=
  let wait := d.connectTimeout * 1000
  ⟨pool.figures, .returns wait (.error Database.Pool.atOnce),
    .returns wait (.error Database.Pool.atOnce)⟩

def wiredDatabase (s : Settings) (w : Wiring) : Option Stats.DatabaseGauges :=
  match w.database, s.database with
  | some pool, some d => some (gaugesOf pool d)
  | _, _ => none

/-- How long a gauge may take, in milliseconds. -/
def limit (s : Service σ) : Nat := s.settings.stats.gaugeTimeout

def backend (s : Service σ) : Settings.Backend := if s.store.isSome then .redis else .memory

def presence (s : Service σ) : Presence.Service := s.world.site.presence

def tracker (s : Service σ) : Presence.Tracker := s.presence.tracker

def mapWorld (s : Service σ) (change : Session.World → Session.World) : Service σ :=
  { s with world := change s.world }

def setTracker (s : Service σ) (tracker : Presence.Tracker) : Service σ :=
  s.mapWorld fun w => w.mapPresence fun p => { p with tracker }

def metrics (s : Service σ) : Metrics := s.tracker.metrics

def mapMetrics (s : Service σ) (change : Metrics → Metrics) : Service σ :=
  s.mapWorld fun w => { w with site := w.site.mapMetrics change }

def counts (s : Service σ) : Connection.Counts := s.world.site.hub.counts

/-- Let everyone go on for some milliseconds, if it is any. -/
def pass (s : Service σ) (millis : Nat) : Service σ :=
  if millis = 0 then s else s.mapWorld fun w => w.sleep millis

/-- How long a caller waits for a call that may take `limit` milliseconds. -/
def waiting (limit : Nat) : Course α → Nat
  | .returns wait _ => min wait limit
  | .never => limit

/-- What a course gives if it is asked when it returns. -/
def lateResult {β : Type} (result : β) : Course (Except Presence.Failure Unit) →
    Course (Except Presence.Failure β)
  | .returns wait passed => .returns wait (passed.map fun () => result)
  | .never => .never

def pingStore [Redis.Network σ] (s : Service σ) : Bool × Service σ :=
  match s.store with
  | some client =>
      let (result, client) := client.ping
      let result := result.mapError Presence.Failure.ofCall
      let (answers, tracker) := s.tracker.ping s.limit (.returns 0 result)
      (answers, { s with store := some client }.setTracker tracker)
  | none =>
      let course := s.presence.start
      let s := s.pass (waiting s.limit course)
      let (answers, tracker) := s.tracker.ping s.limit course
      (answers, s.setTracker tracker)

/-- One more connection of a member: the new score, if the store tells it. -/
def join [Redis.Network σ] (s : Service σ) (member : String) : Option Int × Service σ :=
  match s.store with
  | some client =>
      let (result, client) := client.execute (.join s.settings.presence.key member)
      let (score, tracker) := s.tracker.absorb .join (result.mapError Presence.Failure.ofCall)
      (score, { s with store := some client }.setTracker tracker)
  | none =>
      match s.presence.start with
      | .returns wait passed =>
          let s := s.pass wait
          let (score, presence) := s.presence.finishJoin member passed
          (score.map Int.ofNat, s.mapWorld fun w => w.mapPresence fun _ => presence)
      | .never => (none, s)

/-- One connection of a member less: what remains of the score, if the store tells it. -/
def leave [Redis.Network σ] (s : Service σ) (member : String) : Option Int × Service σ :=
  match s.store with
  | some client =>
      let (result, client) := client.execute (.leave s.settings.presence.key member)
      let (score, tracker) := s.tracker.absorb .leave (result.mapError Presence.Failure.ofCall)
      (score, { s with store := some client }.setTracker tracker)
  | none =>
      match s.presence.start with
      | .returns wait passed =>
          let s := s.pass wait
          let (score, presence) := s.presence.finishLeave member passed
          (score.map Int.ofNat, s.mapWorld fun w => w.mapPresence fun _ => presence)
      | .never => (none, s)

end Service
end Rollcall
