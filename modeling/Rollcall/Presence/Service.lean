import Rollcall.Presence.Tracker

/-!
Presence behind a gate.

The store in memory, the gate before it and the tracker that watches it. A call starts by passing
the gate, which settles how the call will go, and takes effect when it returns.
-/

namespace Rollcall.Presence

structure Service where
  gate : Gate
  store : Store
  tracker : Tracker
deriving Repr

namespace Service

def initial : Service := ⟨.up, Store.empty, Tracker.initial⟩

def backendName : String := "memory"

/-- How a call that starts now goes. -/
def start (p : Service) : Course (Except Failure Unit) := p.gate.course ()

/-- A join returns as the gate settled: the new score, if it took effect. -/
def finishJoin (p : Service) (member : String) (passed : Except Failure Unit) :
    Option Nat × Service :=
  match passed with
  | .ok () =>
      let (score, store) := p.store.join member
      let (result, tracker) := p.tracker.absorb .join (.ok score)
      (result, { p with store, tracker })
  | .error failure =>
      let (result, tracker) := p.tracker.absorb .join (.error failure : Except Failure Nat)
      (result, { p with tracker })

/-- A leave returns as the gate settled: what remains of the score, if it took effect. -/
def finishLeave (p : Service) (member : String) (passed : Except Failure Unit) :
    Option Nat × Service :=
  match passed with
  | .ok () =>
      let (score, store) := p.store.leave member
      let (result, tracker) := p.tracker.absorb .leave (.ok score)
      (result, { p with store, tracker })
  | .error failure =>
      let (result, tracker) := p.tracker.absorb .leave (.error failure : Except Failure Nat)
      (result, { p with tracker })

def finishCount (p : Service) (passed : Except Failure Unit) : Option Nat × Service :=
  let (result, tracker) := p.tracker.counted (passed.map fun () => p.store.count)
  (result, { p with tracker })

/-- A call that nothing else interferes with. One that never returns has no result and no effect. -/
def call {α : Type} (p : Service)
    (finish : Service → Except Failure Unit → Option α × Service) : Option α × Service :=
  match p.start with
  | .returns _ passed => finish p passed
  | .never => (none, p)

def join (p : Service) (member : String) : Option Nat × Service :=
  p.call fun p passed => p.finishJoin member passed

def leave (p : Service) (member : String) : Option Nat × Service :=
  p.call fun p passed => p.finishLeave member passed

def count (p : Service) : Option Nat × Service := p.call finishCount

def reading (p : Service) (limit : Nat) : Reading × Service :=
  let (result, tracker) := p.tracker.reading limit (p.gate.course p.store.count)
  (result, { p with tracker })

def ping (p : Service) (limit : Nat) : Bool × Service :=
  let (result, tracker) := p.tracker.ping limit p.start
  (result, { p with tracker })

end Service
end Rollcall.Presence
