import Rollcall.Json
import Rollcall.Settings

/-!
Report of the settings.

The settings in effect as one document. Numbers that may exceed 53 bits are written as texts.
-/

namespace Rollcall.Settings

def large (n : Nat) : Json := .string (toString n)

def texts (items : List String) : Json := .array (items.map .string)

def databaseReport (d : Database) : Json := .object [
  ("url", .string d.url),
  ("pool_size", .nat d.poolSize),
  ("connect_timeout_seconds", .nat d.connectTimeout),
  ("views_query", .string d.viewsQuery)]

def report (s : Settings) : Json := .object [
  ("server", .object [
    ("host", .string s.server.host),
    ("port", .nat s.server.port),
    ("cors_origins", texts s.server.corsOrigins),
    ("shutdown_timeout_seconds", large s.server.shutdownTimeout)]),
  ("redis", .object [
    ("url", .string s.redis.url),
    ("warm_up_attempts", .nat s.redis.warmUpAttempts)]),
  ("presence", .object [
    ("backend", .string s.presence.backend.name),
    ("key", .string s.presence.key)]),
  ("database", .ofOption databaseReport s.database),
  ("latency", .object [("window_size", large s.latency.windowSize)]),
  ("websocket", .object [
    ("channel_buffer", large s.websocket.channelBuffer),
    ("broadcast_timeout_ms", large s.websocket.broadcastTimeout),
    ("broadcast_timeout_ns", large (Span.ofMillis s.websocket.broadcastTimeout).nanos),
    ("message_policy", .string s.websocket.messagePolicy.name),
    ("max_user_id_len", large s.websocket.maxUserIdLength)]),
  ("stats", .object [
    ("gauge_timeout_ms", large s.stats.gaugeTimeout),
    ("gauge_timeout_ns", large (Span.ofMillis s.stats.gaugeTimeout).nanos),
    ("cache_key_patterns", texts s.stats.cacheKeyPatterns)]),
  ("otel", .object [
    ("enabled", .bool s.telemetry.enabled),
    ("endpoint", .string s.telemetry.endpoint),
    ("service_name", .string s.telemetry.serviceName),
    ("sampling_ratio", .string s.telemetry.samplingRatio.pointed)]),
  ("server_addr", .string s.address)]

end Rollcall.Settings
