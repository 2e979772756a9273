import Rollcall.Span

/-!
Health of the shared store.

What is reported about the connection to the shared store: its status, whether there ever was one,
and how often it was made anew.
-/

namespace Rollcall

namespace StoreHealth

inductive Status where
  | healthy
  | reconnecting
  | circuitOpen
deriving DecidableEq, Repr, Inhabited

def Status.name : Status → String
  | .healthy => "healthy"
  | .reconnecting => "reconnecting"
  | .circuitOpen => "circuit_open"

/-- The status a stored byte stands for; a byte out of range reads as reconnecting. -/
def Status.ofCode (code : Nat) : Status :=
  if code = 0 then .healthy else if code = 2 then .circuitOpen else .reconnecting

end StoreHealth

structure StoreHealth where
  status : StoreHealth.Status
  everConnected : Bool
  reconnections : Nat
deriving DecidableEq, Repr

namespace StoreHealth

def initial : StoreHealth := ⟨.reconnecting, false, 0⟩

/-- A connection was made. It counts as a reconnection unless it is the first one or the store was
healthy anyway. -/
def connected (h : StoreHealth) : StoreHealth :=
  { status := .healthy
    everConnected := true
    reconnections :=
      if h.status ≠ .healthy ∧ h.everConnected then (h.reconnections + 1) % Nat.pow 2 32
      else h.reconnections }

def reconnecting (h : StoreHealth) : StoreHealth := { h with status := .reconnecting }

def circuitOpened (h : StoreHealth) : StoreHealth := { h with status := .circuitOpen }

def isHealthy (h : StoreHealth) : Bool := h.status == .healthy

end StoreHealth
end Rollcall
