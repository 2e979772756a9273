import Rollcall.Span

/-!
Metrics.

What the service counts about itself: presence, sockets, broadcasts, requests and the shared store.
A figure that is set, or that grows by more than one at a time, wraps around at 64 bits. What is
counted one by one is taken never to get there.
-/

namespace Rollcall

/-- Observations in buckets: each bound with how many observations do not exceed it. -/
structure Histogram where
  buckets : List (Binary64 × Nat)
  sum : Binary64
  count : Nat
deriving Repr

namespace Histogram

def empty (bounds : List Binary64) : Histogram :=
  ⟨bounds.map fun b => (b, 0), Binary64.zero false, 0⟩

def observe (h : Histogram) (x : Binary64) : Histogram :=
  { buckets := h.buckets.map fun (b, n) => (b, if x.ble b then n + 1 else n)
    sum := h.sum + x
    count := h.count + 1 }

end Histogram

structure RequestSeries where
  method : String
  status : Nat
  durations : Histogram
deriving Repr

structure Metrics where
  onlineUsers : Int
  storeErrors : List (String × Nat)
  storeDegraded : Bool
  connectionsOpen : Int
  connectionsOpened : Nat
  connectionsClosed : Nat
  lifetimes : Histogram
  framesReceived : List (String × Nat)
  broadcastDelivered : Nat
  broadcastFailed : Nat
  requests : List RequestSeries
  redisConnected : Bool
  /-- 0 closed, 1 open, 2 half open. -/
  circuitState : Nat
  redisReconnections : Nat
deriving Repr

namespace Metrics

/-- Bounds of the histogram of connection lifetimes, in seconds. -/
def lifetimeBounds : List Binary64 := [1, 10, 60, 300, 900, 3600, 14400]

/-- Bounds of the histogram of request durations, in seconds. -/
def requestBounds : List Binary64 :=
  [(1, -3), (5, -3), (1, -2), (25, -3), (5, -2), (1, -1), (25, -2), (5, -1), (1, 0), (25, -1)].map
    fun (digits, exponent) => Binary64.ofDecimal false digits exponent

def initial : Metrics where
  onlineUsers := 0
  storeErrors := []
  storeDegraded := false
  connectionsOpen := 0
  connectionsOpened := 0
  connectionsClosed := 0
  lifetimes := Histogram.empty lifetimeBounds
  framesReceived := []
  broadcastDelivered := 0
  broadcastFailed := 0
  requests := []
  redisConnected := false
  circuitState := 0
  redisReconnections := 0

/-- A number read as a signed 64-bit one. -/
def wrapSigned (n : Int) : Int := n.bmod (Nat.pow 2 64)

/-- A number read as an unsigned 64-bit one. -/
def wrapUnsigned (n : Nat) : Nat := n % Nat.pow 2 64

def bump (key : String) : List (String × Nat) → List (String × Nat)
  | [] => [(key, 1)]
  | (other, n) :: rest =>
    if key = other then (other, n + 1) :: rest else (other, n) :: bump key rest

def setOnlineUsers (m : Metrics) (count : Nat) : Metrics :=
  { m with onlineUsers := wrapSigned count }

def recordStoreError (m : Metrics) (operation : String) : Metrics :=
  { m with storeErrors := bump operation m.storeErrors }

def setDegraded (m : Metrics) (degraded : Bool) : Metrics := { m with storeDegraded := degraded }

def recordOpened (m : Metrics) : Metrics :=
  { m with connectionsOpened := m.connectionsOpened + 1, connectionsOpen := m.connectionsOpen + 1 }

def recordClosed (m : Metrics) (lifetime : Span) : Metrics :=
  { m with
    connectionsClosed := m.connectionsClosed + 1
    connectionsOpen := m.connectionsOpen - 1
    lifetimes := m.lifetimes.observe lifetime.seconds }

def setConnectionsOpen (m : Metrics) (count : Nat) : Metrics := { m with connectionsOpen := count }

def recordReceived (m : Metrics) (kind : String) : Metrics :=
  { m with framesReceived := bump kind m.framesReceived }

def recordBroadcast (m : Metrics) (delivered failed : Nat) : Metrics :=
  { m with
    broadcastDelivered := wrapUnsigned (m.broadcastDelivered + delivered)
    broadcastFailed := wrapUnsigned (m.broadcastFailed + failed) }

/-- The label values of a series, joined: series are told apart by this text alone. -/
def RequestSeries.key (method : String) (status : Nat) : String := method ++ toString status

/-- One more request in its series; a new series is added at the end. -/
def observeSeries (method : String) (status : Nat) (duration : Span) :
    List RequestSeries → List RequestSeries
  | [] => [⟨method, status, (Histogram.empty requestBounds).observe duration.seconds⟩]
  | s :: rest =>
      if RequestSeries.key method status = RequestSeries.key s.method s.status then
        { s with durations := s.durations.observe duration.seconds } :: rest
      else
        s :: observeSeries method status duration rest

def recordRequest (m : Metrics) (method : String) (status : Nat) (duration : Span) : Metrics :=
  { m with requests := observeSeries method status duration m.requests }

def requestCount (m : Metrics) : Nat :=
  m.requests.foldl (fun n s => n + s.durations.count) 0

def setRedis (m : Metrics) (connected : Bool) (reconnections circuitState : Nat) : Metrics :=
  { m with
    redisConnected := connected
    redisReconnections := reconnections
    circuitState := circuitState }

end Metrics
end Rollcall
