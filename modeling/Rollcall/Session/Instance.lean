import Rollcall.Connection.Broadcast
import Rollcall.Presence.Service

/-!
What the connections of an instance share.

The clock, the hub, the presence service and the settings of a connection. Calls to the store and
broadcasts take time, so each is a value that stands for the part still to come.
-/

namespace Rollcall.Session

open Connection

structure Instance where
  /-- Milliseconds since the start. -/
  now : Nat
  hub : Hub
  presence : Presence.Service
  policy : MessagePolicy
  /-- Places in the outbound channel of a connection. -/
  buffer : Nat
deriving Repr

/-- How a piece of work stands after one step. -/
inductive Progress (α β : Type) where
  /-- Nothing can be done yet. -/
  | waits
  | goesOn (work : α)
  | ends (result : β)
deriving Repr

/-- A call to the store under way: when it returns, if ever, and how. -/
structure StoreCall where
  due : Option Nat
  passed : Except Presence.Failure Unit
deriving Repr

namespace StoreCall

def isDue (c : StoreCall) (now : Nat) : Bool := c.due.any fun moment => moment ≤ now

end StoreCall

namespace Instance

def create (policy : MessagePolicy) (buffer sendTimeout : Nat) : Instance :=
  ⟨0, Hub.create sendTimeout, Presence.Service.initial, policy, buffer⟩

def metrics (s : Instance) : Metrics := s.presence.tracker.metrics

def mapMetrics (s : Instance) (change : Metrics → Metrics) : Instance :=
  { s with presence :=
      { s.presence with tracker :=
          { s.presence.tracker with metrics := change s.presence.tracker.metrics } } }

def mapHub (s : Instance) (change : Hub → Hub) : Instance := { s with hub := change s.hub }

/-- Start a call to the store. The gate is looked at now. -/
def callStore (s : Instance) : StoreCall :=
  match s.presence.start with
  | .returns wait passed => ⟨some (s.now + wait), passed⟩
  | .never => ⟨none, .ok ()⟩

def beginBroadcast (s : Instance) (origin : Nat → Origin) (message : Outbound) :
    Broadcast × Instance :=
  let (b, hub) := Broadcast.start s.hub s.now origin message
  (b, { s with hub })

/-- Evict the peers that a finished broadcast failed to reach, and count. A broadcast to nobody is
not counted. -/
def settleBroadcast (s : Instance) (b : Broadcast) : Instance :=
  let r := b.result
  let s := s.mapHub b.evict
  if b.sends.isEmpty then s else s.mapMetrics fun m => m.recordBroadcast r.delivered r.failed

def pursueBroadcast (s : Instance) (b : Broadcast) :
    Progress Broadcast BroadcastResult × Instance :=
  if b.isOver then
    (.ends b.result, s.settleBroadcast b)
  else if b.canProceed s.hub s.now then
    let (b, hub) := b.resume s.hub s.now
    (.goesOn b, { s with hub })
  else
    (.waits, s)

end Instance

/-- Telling every peer the count: first the count is read, then it is broadcast. -/
inductive Announcement where
  | counting (call : StoreCall)
  | sending (broadcast : Broadcast)
deriving Repr

namespace Announcement

def start (s : Instance) : Announcement := .counting s.callStore

/-- One step. The announcement ends without a result where the count could not be read. -/
def step (a : Announcement) (s : Instance) :
    Progress Announcement (Option BroadcastResult) × Instance :=
  match a with
  | .counting call =>
      if call.isDue s.now then
        match s.presence.finishCount call.passed with
        | (none, presence) => (.ends none, { s with presence })
        | (some online, presence) =>
            let (b, s) := { s with presence }.beginBroadcast .announcement (.announcement online)
            (.goesOn (.sending b), s)
      else
        (.waits, s)
  | .sending b =>
      match s.pursueBroadcast b with
      | (.waits, s) => (.waits, s)
      | (.goesOn b, s) => (.goesOn (.sending b), s)
      | (.ends result, s) => (.ends (some result), s)

def abandon (a : Announcement) (s : Instance) : Instance :=
  match a with
  | .counting _ => s
  | .sending b => s.mapHub b.abandon

def holds (a : Announcement) (i : Nat) : Bool :=
  match a with
  | .counting _ => false
  | .sending b => b.holds i

def deadlines : Announcement → List Nat
  | .counting call => call.due.toList
  | .sending b => b.deadlines

end Announcement
end Rollcall.Session
