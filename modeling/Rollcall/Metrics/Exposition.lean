import Rollcall.Metrics

/-!
Text exposition of the metrics.

The metrics as lines of the exposition text format, version 0.0.4: families by name, children by
label values, labels by name. A labelled family without a child is left out.
-/

namespace Rollcall.Metrics

inductive FamilyKind where
  | counter
  | gauge
  | histogram
deriving DecidableEq, Repr

def FamilyKind.name : FamilyKind → String
  | .counter => "counter"
  | .gauge => "gauge"
  | .histogram => "histogram"

/-- One child of a family: its labels and what it measures. -/
inductive Sample where
  | number (labels : List (String × String)) (value : Int)
  | observations (labels : List (String × String)) (histogram : Histogram)
deriving Repr

def Sample.labels : Sample → List (String × String)
  | .number labels _ => labels
  | .observations labels _ => labels

structure Family where
  name : String
  help : String
  kind : FamilyKind
  samples : List Sample
deriving Repr

def escapeLabel (text : String) : String :=
  text.foldl (fun out c => out ++
    (if c = '\\' then "\\\\" else if c = '\n' then "\\n" else if c = '"' then "\\\""
      else c.toString)) ""

def labelText (labels : List (String × String)) : String :=
  if labels.isEmpty then "" else
    "\x7b" ++ ",".intercalate (labels.map fun (n, v) => n ++ "=\"" ++ escapeLabel v ++ "\"") ++
      "\x7d"

def sampleLine (name : String) (labels : List (String × String)) (value : String) : String :=
  name ++ labelText labels ++ " " ++ value

/-- Every figure is written as a double. -/
def figure (n : Int) : String := (Binary64.ofInt n).plain

def Sample.lines (name : String) : Sample → List String
  | .number labels value => [sampleLine name labels (figure value)]
  | .observations labels h =>
      let bucket (bound : String) (n : Nat) :=
        sampleLine (name ++ "_bucket") (labels ++ [("le", bound)]) (figure n)
      h.buckets.map (fun (b, n) => bucket b.plain n) ++
        [bucket "+Inf" h.count,
         sampleLine (name ++ "_sum") labels h.sum.plain,
         sampleLine (name ++ "_count") labels (figure h.count)]

/-- Whether the label values of `a` come before those of `b`, or are the same. -/
def labelsBefore (a b : Sample) : Bool :=
  let values (s : Sample) : List String := s.labels.map Prod.snd
  !(decide (values b < values a))

def Family.lines (f : Family) : List String :=
  if f.samples.isEmpty then [] else
    ["# HELP " ++ f.name ++ " " ++ f.help, "# TYPE " ++ f.name ++ " " ++ f.kind.name] ++
      (f.samples.mergeSort labelsBefore).flatMap (Sample.lines f.name)

def single (name help : String) (kind : FamilyKind) (value : Int) : Family :=
  ⟨name, help, kind, [.number [] value]⟩

def byLabel (name help label : String) (counts : List (String × Nat)) : Family :=
  ⟨name, help, .counter, counts.map fun (key, n) => .number [(label, key)] n⟩

def lifetimeName : String := "presence_ws_connection_duration_seconds"

def requestName : String := "presence_http_request_duration_seconds"

def families (m : Metrics) : List Family :=
  [ single "presence_broadcast_delivered_total" "Broadcast frames queued to a connection"
      .counter m.broadcastDelivered,
    single "presence_broadcast_failed_total" "Broadcast sends that failed or timed out"
      .counter m.broadcastFailed,
    ⟨requestName, "HTTP request duration in seconds", .histogram,
      m.requests.map fun s =>
        .observations [("method", s.method), ("status", toString s.status)] s.durations⟩,
    single "presence_online_users" "Distinct online users reported by the presence store"
      .gauge m.onlineUsers,
    single "presence_redis_circuit_breaker_state"
      "Redis circuit breaker state (0=closed, 1=open, 2=half-open)" .gauge m.circuitState,
    single "presence_redis_connection_status"
      "Redis connection status (1=connected, 0=disconnected)" .gauge m.redisConnected.toNat,
    single "presence_redis_reconnections" "Redis reconnections since startup"
      .gauge m.redisReconnections,
    single "presence_store_degraded" "Presence store degraded (1=degraded, 0=normal)"
      .gauge m.storeDegraded.toNat,
    byLabel "presence_store_errors_total" "Presence store call failures" "operation" m.storeErrors,
    ⟨lifetimeName, "WebSocket connection lifetime in seconds", .histogram,
      [.observations [] m.lifetimes]⟩,
    single "presence_ws_connections_closed_total" "Total WebSocket connections closed"
      .counter m.connectionsClosed,
    single "presence_ws_connections_open" "WebSocket connections currently open on this instance"
      .gauge m.connectionsOpen,
    single "presence_ws_connections_opened_total" "Total WebSocket connections opened"
      .counter m.connectionsOpened,
    byLabel "presence_ws_messages_received_total" "Total WebSocket frames received" "type"
      m.framesReceived ]

def lines (m : Metrics) : List String := m.families.flatMap Family.lines

def exposition (m : Metrics) : String := m.lines.foldl (fun out line => out ++ line ++ "\n") ""

end Rollcall.Metrics
