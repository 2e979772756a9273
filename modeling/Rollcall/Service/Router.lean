import Rollcall.Http.Handshake
import Rollcall.Service.Pages
import Rollcall.UserId

/-!
Answering requests.

A request goes through layers. The outermost one deals with other origins, and answers those who
only ask by itself. The next one takes the time of everything that gets as far. Then the path
decides.
-/

namespace Rollcall.Service

open Http

inductive Route where
  | socket
  | health
  | metrics
  | overview
deriving DecidableEq, Repr

namespace Route

/-- The route of a path. Paths are compared as they stand. -/
def ofPath? (path : String) : Option Route :=
  match path with
  | "/v1/ws" => some .socket
  | "/health" => some .health
  | "/metrics" => some .metrics
  | "/v1/stats/overview" => some .overview
  | _ => none

end Route

def isMethod (method : String) : Bool := method = "GET" || method = "HEAD"

/-- The user that a request for a socket names, unless it names several. -/
def userOf (query : Option String) : Except Response String :=
  match (Text.formPairs (query.getD "")).filter fun (name, _) => name = "userId" with
  | [] => .ok ""
  | [(_, user)] => .ok user
  | _ => .error (.plain 400 "Failed to deserialize query string: duplicate field `userId`")

variable {σ : Type} [Redis.Network σ]

/-- A socket for whom the request names; the connection starts with the answer. -/
def openSocket (s : Service σ) (r : Request) : Response × Service σ :=
  match Handshake.key r with
  | .error refusal => (refusal.response, s)
  | .ok key =>
      match userOf r.query with
      | .error response => (response, s)
      | .ok user =>
          match UserId.validate user s.settings.websocket.maxUserIdLength with
          | .error fault => (fault.response false, s)
          | .ok user =>
              (Handshake.opened key, s.mapWorld fun w =>
                (w.connect user ⟨[], false⟩ (.create .accepting none)).2)

def serve (s : Service σ) (route : Route) (r : Request) : Response × Service σ :=
  match route with
  | .socket => s.openSocket r
  | .health => s.health
  | .metrics => s.metricsPage
  | .overview => s.overview

def notFound : Response := (Fault.notFound "Resource not found").response false

def answer (s : Service σ) (r : Request) : Response × Service σ :=
  let (response, s) :=
    match Route.ofPath? r.path with
    | none => (notFound, s)
    | some route => if isMethod r.method then s.serve route r else (.empty 405, s)
  (if r.method = "HEAD" then response.head else response, s)

/-- The answer, and the time that it took noted. -/
def timed (s : Service σ) (r : Request) : Response × Service σ :=
  let start := s.world.site.now
  let (response, s) := s.answer r
  let duration := Span.ofMillis (s.world.site.now - start)
  let s := { s with latency := s.latency.record duration }
  (response, s.mapMetrics fun m => m.recordRequest r.method response.status duration)

/-- The answer with what a browser has to know. -/
def shared (s : Service σ) (r : Request) : Response × Service σ :=
  if r.method = Cors.asks then (Cors.preflight s.origins r, s)
  else
    let (response, s) := s.timed r
    (Cors.mark s.origins r response, s)

/-- What the service answers to a request. Where the path is known and the method is not, the
methods that are known are told. -/
def handle (s : Service σ) (r : Request) : Response × Service σ :=
  let (response, s) := s.shared r
  if (Route.ofPath? r.path).isSome && !isMethod r.method then
    (response.addHeader "allow" "GET,HEAD", s)
  else
    (response, s)

end Rollcall.Service
