import Rollcall.Database.Pool
import Rollcall.Http.Fault
import Rollcall.Latency.Window
import Rollcall.Redis.Address
import Rollcall.Redis.Pool
import Rollcall.Settings

/-!
Wiring.

What the settings ask for outside the service, checked before anything is started. Nothing is
connected to: an address that cannot be used is a fault, an unreachable one is not.
-/

namespace Rollcall.Service

structure Wiring where
  /-- Where the shared store is, if presence is kept there. -/
  store : Option Redis.Address
  database : Option Database.Pool
  latency : Latency.Window
deriving Repr

inductive StartFailure where
  | fault (fault : Http.Fault)
  /-- Something of a size that cannot be. -/
  | impossible (text : String)
deriving DecidableEq, Repr

def StartFailure.text : StartFailure → String
  | .fault cause => cause.text
  | .impossible text => text

namespace Wiring

def storeOf (s : Settings) : Except StartFailure (Option Redis.Address) :=
  match s.presence.backend with
  | .memory => .ok none
  | .redis =>
      match Redis.Address.parse s.redis.url with
      | .ok address => .ok (some address)
      | .error cause => .error (.fault (.internal (Redis.CallFailure.failed cause).text))

def databaseOf (s : Settings) : Except StartFailure (Option Database.Pool) :=
  match s.database with
  | none => .ok none
  | some d =>
      match Database.Pool.create d.url d.poolSize with
      | .ok pool => .ok (some pool)
      | .error .noPlace => .error (.impossible Database.PoolFailure.noPlace.text)
      | .error failure => .error (.fault (.internal failure.text))

def latencyOf (s : Settings) : Except StartFailure Latency.Window :=
  (Latency.Window.create s.latency.windowSize).mapError .impossible

/-- The wiring that the settings ask for. The store is looked at before the database, and the
latency window is laid out last. -/
def ofSettings (s : Settings) : Except StartFailure Wiring := do
  let store ← storeOf s
  let database ← databaseOf s
  let latency ← latencyOf s
  return ⟨store, database, latency⟩

end Wiring
end Rollcall.Service
