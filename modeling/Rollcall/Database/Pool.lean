import Rollcall.Database.Target
import Rollcall.Stats.Snapshot

/-!
Connections to the database.

The pool makes no connection before one is needed. The database is out of reach here, so what can be
told is the pool's size and that a call which may not wait fails.
-/

namespace Rollcall.Database

structure Pool where
  url : String
  size : Nat
deriving DecidableEq, Repr

inductive PoolFailure where
  | unusable (cause : Failure)
  /-- The pool has no place for a connection. -/
  | noPlace
deriving DecidableEq, Repr

def PoolFailure.text : PoolFailure → String
  | .unusable cause => "SQLx error: " ++ cause.text
  | .noPlace => "capacity must be non-zero"

namespace Pool

def create (url : String) (size : Nat) : Except PoolFailure Pool :=
  match checkUrl url with
  | .error cause => .error (.unusable cause)
  | .ok () => if size = 0 then .error .noPlace else .ok ⟨url, size⟩

/-- No connection is open. -/
def figures (p : Pool) : Stats.PoolFigures := ⟨p.size, 0, 0, 0⟩

/-- What a call that may not wait for a connection ends with. -/
def atOnce : Stats.GaugeFailure := Stats.GaugeFailure.ofDatabase .poolTimedOut

end Pool
end Rollcall.Database
