import Rollcall.Span

/-!
Circuit breaker.

Calls to the shared store fail fast while the circuit is open. Failures in a row open it, after a
rest a probe is let through, and enough probes in a row that succeed close it again. Every operation
takes the time at which it runs.
-/

namespace Rollcall

inductive Circuit where
  | closed
  | opened
  | halfOpen
deriving DecidableEq, Repr, Inhabited

def Circuit.name : Circuit → String
  | .closed => "closed"
  | .opened => "open"
  | .halfOpen => "half_open"

namespace Breaker

structure Policy where
  /-- Failures in a row that open the circuit. -/
  failureThreshold : Nat
  /-- Probes in a row that close it again. -/
  successThreshold : Nat
  /-- How long it stays open before a probe is let through. -/
  resetTimeout : Span
deriving DecidableEq, Repr

def Policy.default : Policy := ⟨5, 2, Span.ofSeconds 15⟩

end Breaker

structure Breaker where
  policy : Breaker.Policy
  circuit : Circuit
  failures : Nat
  successes : Nat
  changedAt : Span
deriving DecidableEq, Repr

namespace Breaker

def create (policy : Policy) (now : Span) : Breaker := ⟨policy, .closed, 0, 0, now⟩

def enter (b : Breaker) (now : Span) (next : Circuit) : Breaker :=
  { b with
    circuit := next
    changedAt := now
    successes := 0
    failures := if next = .closed then 0 else b.failures }

/-- An open circuit that has rested long enough becomes half open. -/
def refresh (b : Breaker) (now : Span) : Breaker :=
  if b.circuit = .opened ∧ b.policy.resetTimeout ≤ now - b.changedAt then
    b.enter now .halfOpen
  else
    b

/-- The circuit as a caller sees it, and the breaker after the look. -/
def look (b : Breaker) (now : Span) : Circuit × Breaker :=
  let b := b.refresh now
  (b.circuit, b)

/-- Whether a call may go through, and the breaker after the look. -/
def allow (b : Breaker) (now : Span) : Bool × Breaker :=
  let b := b.refresh now
  (b.circuit != .opened, b)

def recordSuccess (b : Breaker) (now : Span) : Breaker :=
  match b.circuit with
  | .closed => { b with failures := 0 }
  | .halfOpen =>
      let b := { b with successes := b.successes + 1 }
      if b.policy.successThreshold ≤ b.successes then b.enter now .closed else b
  | .opened => b

def recordFailure (b : Breaker) (now : Span) : Breaker :=
  match b.circuit with
  | .closed =>
      let b := { b with failures := b.failures + 1 }
      if b.policy.failureThreshold ≤ b.failures then b.enter now .opened else b
  | .halfOpen => b.enter now .opened
  | .opened => { b with changedAt := now }

end Breaker
end Rollcall
