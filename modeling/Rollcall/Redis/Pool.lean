import Rollcall.Breaker
import Rollcall.Redis.Failure
import Rollcall.StoreHealth

/-!
The shared connection.

All calls to the store go over one connection, which is made when it is first needed and again when
it was lost. A circuit breaker stands before it, and its health is reported. While one call makes a
connection the others wait; nothing else holds a call up.

A call is a phase, and `Call.step` is everything that it does between two moments at which it may be
held up or has to wait for the network. A run of several calls is any order of their steps.
-/

namespace Rollcall.Redis

inductive CallFailure where
  | circuitOpen
  | failed (cause : Failure)
deriving DecidableEq, Repr, Inhabited

namespace CallFailure

def text : CallFailure → String
  | .circuitOpen => "Circuit breaker is open"
  | .failed cause => "Redis error: " ++ cause.text

end CallFailure

structure Pool where
  breaker : Breaker
  health : StoreHealth
  /-- The connection in use, by its number. -/
  cached : Option Nat
  /-- How many connections were made; the next one gets this number. -/
  made : Nat
  /-- Whether a call is making a connection. -/
  dialing : Bool
deriving Repr

namespace Pool

def create (policy : Breaker.Policy) (now : Span) : Pool :=
  ⟨Breaker.create policy now, StoreHealth.initial, none, 0, false⟩

/-- Whether a call may go on to the connection. One that may not leaves its mark on the health. -/
def grant (p : Pool) (now : Span) : Bool × Pool :=
  let (open?, breaker) := p.breaker.allow now
  (open?, { p with breaker, health := if open? then p.health else p.health.circuitOpened })

def beginDial (p : Pool) : Pool := { p with health := p.health.reconnecting, dialing := true }

/-- The connection is there: it is kept for all, and counts as a success. -/
def endDial (p : Pool) (now : Span) : Pool :=
  { breaker := p.breaker.recordSuccess now
    health := p.health.connected
    cached := some p.made
    made := p.made + 1
    dialing := false }

def failDial (p : Pool) (now : Span) : Pool :=
  { p with breaker := p.breaker.recordFailure now, dialing := false }

def discard (p : Pool) : Pool := { p with cached := none, health := p.health.reconnecting }

def recordSuccess (p : Pool) (now : Span) : Pool :=
  { p with breaker := p.breaker.recordSuccess now }

def recordFailure (p : Pool) (now : Span) : Pool :=
  { p with breaker := p.breaker.recordFailure now }

/-- The circuit with the number of failures, and the pool after the look. -/
def circuit (p : Pool) (now : Span) : (Circuit × Nat) × Pool :=
  let (circuit, breaker) := p.breaker.look now
  ((circuit, breaker.failures), { p with breaker })

def isHealthy (p : Pool) (now : Span) : Bool × Pool :=
  if p.health.isHealthy then
    let (open?, breaker) := p.breaker.allow now
    (open?, { p with breaker })
  else
    (false, p)

end Pool

inductive Call (α : Type) where
  /-- Not started yet. -/
  | fresh
  /-- Let through; about to look whether there is a connection. -/
  | looking
  /-- There was none; about to make one, unless another call was faster. -/
  | claiming
  /-- Waiting for the connection that it is making. -/
  | dialing
  /-- Waiting for the answer on a connection. -/
  | talking (conn : Nat)
  /-- The connection was lost; about to forget it. -/
  | discarding (cause : Failure)
  | ended (outcome : Except CallFailure α)

/-- What a call gets from the network when it takes a step. -/
inductive Signal (α : Type) where
  | nothing
  | dialed (result : Except Failure Unit)
  | answered (result : Except Failure α)

namespace Call

variable {α : Type}

def hasEnded : Call α → Bool
  | .ended _ => true
  | _ => false

def isTalking : Call α → Bool
  | .talking _ => true
  | _ => false

def outcome? : Call α → Option (Except CallFailure α)
  | .ended outcome => some outcome
  | _ => none

/-- One step of a call at the time `now`, none if it is held up or waits for another signal. -/
def step (call : Call α) (now : Span) (signal : Signal α) (p : Pool) : Option (Call α × Pool) :=
  match call, signal with
  | .fresh, .nothing =>
      match p.grant now with
      | (true, p) => some (.looking, p)
      | (false, p) => some (.ended (.error .circuitOpen), p)
  | .looking, .nothing =>
      if p.dialing then none
      else match p.cached with
        | some conn => some (.talking conn, p)
        | none => some (.claiming, p)
  | .claiming, .nothing =>
      if p.dialing then none
      else match p.cached with
        | some conn => some (.talking conn, p)
        | none => some (.dialing, p.beginDial)
  | .dialing, .dialed (.ok ()) => some (.talking p.made, p.endDial now)
  | .dialing, .dialed (.error cause) => some (.ended (.error (.failed cause)), p.failDial now)
  | .talking _, .answered (.ok value) => some (.ended (.ok value), p.recordSuccess now)
  | .talking _, .answered (.error cause) =>
      if cause.endsConnection then some (.discarding cause, p)
      else some (.ended (.error (.failed cause)), p.recordFailure now)
  | .discarding cause, .nothing =>
      if p.dialing then none
      else some (.ended (.error (.failed cause)), p.discard.recordFailure now)
  | _, _ => none

end Call
end Rollcall.Redis
