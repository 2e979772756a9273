import Rollcall.Settings

/-!
Reading settings.

A format for settings is a type of values with the readings that a section is made of. `read?` is
the one reading of all settings, for any format: a field that is left out has its default, one that
cannot be read makes the whole unreadable.
-/

namespace Rollcall.Settings

structure Format (σ : Type) where
  isNull : σ → Bool
  text : σ → Option String
  /-- A natural number of at most the given size. -/
  natural : Nat → σ → Option Nat
  flag : σ → Option Bool
  number : σ → Option Binary64
  list : σ → Option (List σ)
  /-- One of several names. -/
  choice : List String → σ → Option String
  /-- The values of the named fields of a section, none where a field is left out. -/
  fields : List String → σ → Option (List (Option σ))

namespace Format

variable {σ : Type}

def max16 : Nat := Nat.pow 2 16 - 1
def max32 : Nat := Nat.pow 2 32 - 1
def max64 : Nat := Nat.pow 2 64 - 1

/-- A field, or its default where it is left out. -/
def field {α : Type} (read : σ → Option α) (default : α) : Option σ → Option α
  | none => some default
  | some value => read value

def texts (n : Format σ) (value : σ) : Option (List String) := (n.list value).bind (·.mapM n.text)

def server (n : Format σ) (value : σ) : Option Server :=
  match n.fields ["host", "port", "cors_origins", "shutdown_timeout_seconds"] value with
  | some [host, port, corsOrigins, shutdownTimeout] => do
      let d : Server := {}
      return {
        host := ← field n.text d.host host
        port := ← field (n.natural max16) d.port port
        corsOrigins := ← field n.texts d.corsOrigins corsOrigins
        shutdownTimeout := ← field (n.natural max64) d.shutdownTimeout shutdownTimeout }
  | _ => none

def redis (n : Format σ) (value : σ) : Option Redis :=
  match n.fields ["url", "warm_up_attempts"] value with
  | some [url, attempts] => do
      let d : Redis := {}
      return {
        url := ← field n.text d.url url
        warmUpAttempts := ← field (n.natural max32) d.warmUpAttempts attempts }
  | _ => none

def backend (n : Format σ) (value : σ) : Option Backend :=
  (n.choice ["redis", "memory"] value).map fun name =>
    if name = "redis" then .redis else .memory

def policy (n : Format σ) (value : σ) : Option MessagePolicy :=
  (n.choice ["echo", "relay"] value).map fun name =>
    if name = "echo" then .echo else .relay

def presence (n : Format σ) (value : σ) : Option Presence :=
  match n.fields ["backend", "key"] value with
  | some [backend, key] => do
      let d : Presence := {}
      return {
        backend := ← field n.backend d.backend backend
        key := ← field n.text d.key key }
  | _ => none

/-- The database section, whose address must be given. -/
def database (n : Format σ) (value : σ) : Option Database :=
  match n.fields ["url", "pool_size", "connect_timeout_seconds", "views_query"] value with
  | some [some url, poolSize, connectTimeout, viewsQuery] => do
      let d : Database := { url := "" }
      return {
        url := ← n.text url
        poolSize := ← field (n.natural max32) d.poolSize poolSize
        connectTimeout := ← field (n.natural max32) d.connectTimeout connectTimeout
        viewsQuery := ← field n.text d.viewsQuery viewsQuery }
  | _ => none

def latency (n : Format σ) (value : σ) : Option Latency :=
  match n.fields ["window_size"] value with
  | some [windowSize] => do
      let d : Latency := {}
      return { windowSize := ← field (n.natural max64) d.windowSize windowSize }
  | _ => none

def websocket (n : Format σ) (value : σ) : Option WebSocket :=
  match n.fields ["channel_buffer", "broadcast_timeout_ms", "message_policy", "max_user_id_len"]
      value with
  | some [channelBuffer, broadcastTimeout, messagePolicy, maxUserIdLength] => do
      let d : WebSocket := {}
      return {
        channelBuffer := ← field (n.natural max64) d.channelBuffer channelBuffer
        broadcastTimeout := ← field (n.natural max64) d.broadcastTimeout broadcastTimeout
        messagePolicy := ← field n.policy d.messagePolicy messagePolicy
        maxUserIdLength := ← field (n.natural max64) d.maxUserIdLength maxUserIdLength }
  | _ => none

def stats (n : Format σ) (value : σ) : Option Stats :=
  match n.fields ["gauge_timeout_ms", "cache_key_patterns"] value with
  | some [gaugeTimeout, cacheKeyPatterns] => do
      let d : Stats := {}
      return {
        gaugeTimeout := ← field (n.natural max64) d.gaugeTimeout gaugeTimeout
        cacheKeyPatterns := ← field n.texts d.cacheKeyPatterns cacheKeyPatterns }
  | _ => none

def telemetry (n : Format σ) (value : σ) : Option Telemetry :=
  match n.fields ["enabled", "endpoint", "service_name", "sampling_ratio"] value with
  | some [enabled, endpoint, serviceName, samplingRatio] => do
      let d : Telemetry := {}
      return {
        enabled := ← field n.flag d.enabled enabled
        endpoint := ← field n.text d.endpoint endpoint
        serviceName := ← field n.text d.serviceName serviceName
        samplingRatio := ← field n.number d.samplingRatio samplingRatio }
  | _ => none

def read? (n : Format σ) (value : σ) : Option Settings :=
  match n.fields
      ["server", "redis", "presence", "database", "latency", "websocket", "stats", "otel"]
      value with
  | some [server, redis, presence, database, latency, websocket, stats, telemetry] => do
      let optional (value : σ) : Option (Option Database) :=
        if n.isNull value then some none else (n.database value).map some
      return {
        server := ← field n.server {} server
        redis := ← field n.redis {} redis
        presence := ← field n.presence {} presence
        database := ← field optional none database
        latency := ← field n.latency {} latency
        websocket := ← field n.websocket {} websocket
        stats := ← field n.stats {} stats
        telemetry := ← field n.telemetry {} telemetry }
  | _ => none

end Format
end Rollcall.Settings
