import Rollcall.Connection.Drain
import Rollcall.Schedule
import Rollcall.Session.Conn

/-!
Connections at work.

The instance with all its connections and an operator, who orders broadcasts, announcements and the
shutdown from outside. A run of the world is any order of steps of its tasks, of orders and of moves
of the clock; `World.machine` has the schedule pick one.
-/

namespace Rollcall.Session

open Connection

inductive Task where
  /-- An owner that listens looks at the branch `first` first. -/
  | owner (conn : Nat) (first : Branch)
  | writer (conn : Nat)
  | cleanup (conn : Nat)
deriving DecidableEq, Repr

/-- What the operator is waiting for, or what came of it. -/
inductive Operator where
  | idle
  | sleeping (wakesAt : Nat)
  | announcing (announcement : Announcement)
  | broadcasting (broadcast : Broadcast)
  | draining (drain : Drain)
  | announced (result : Option BroadcastResult)
  | drained (result : DrainResult)
deriving Repr

namespace Operator

def isFree : Operator → Bool
  | .idle => true
  | .announced _ => true
  | .drained _ => true
  | _ => false

def holds (o : Operator) (i : Nat) : Bool :=
  match o with
  | .announcing a => a.holds i
  | .broadcasting b => b.holds i
  | _ => false

def deadlines : Operator → List Nat
  | .sleeping wakesAt => [wakesAt]
  | .announcing a => a.deadlines
  | .broadcasting b => b.deadlines
  | .draining d => [d.nextLook]
  | _ => []

end Operator

structure World where
  site : Instance
  conns : List Conn
  operator : Operator
deriving Repr

namespace World

def create (site : Instance) : World := ⟨site, [], .idle⟩

/-- Whether anyone but a drain refers to the handle of connection `i`. -/
def isHeld (w : World) (i : Nat) : Bool :=
  w.site.hub.isRegistered i || (w.conns[i]?.map Conn.holdsOwn).getD false ||
    w.conns.any (fun c => c.holds i) || w.operator.holds i

def put (w : World) (i : Nat) (result : Conn × Instance) : World :=
  { w with conns := w.conns.set i result.1, site := result.2 }

def step (w : World) (t : Task) : Option World :=
  match t with
  | .owner i first => (w.conns[i]?.bind fun c => c.ownerStep i w.site first).map (w.put i)
  | .writer i => (w.conns[i]?.bind fun c => c.writerStep i w.site (w.isHeld i)).map (w.put i)
  | .cleanup i => (w.conns[i]?.bind fun c => c.cleanupStep i w.site).map (w.put i)

/-- The tasks there are, with every owner looking at the close signal first. -/
def tasks (w : World) : List Task :=
  (List.range w.conns.length).flatMap fun i => [.owner i .signal, .writer i, .cleanup i]

def operate (w : World) : Option World :=
  match w.operator with
  | .sleeping wakesAt => if wakesAt ≤ w.site.now then some { w with operator := .idle } else none
  | .announcing a =>
      match a.step w.site with
      | (.waits, _) => none
      | (.goesOn a, site) => some { w with operator := .announcing a, site }
      | (.ends r, site) => some { w with operator := .announced r, site }
  | .broadcasting b =>
      match w.site.pursueBroadcast b with
      | (.waits, _) => none
      | (.goesOn b, site) => some { w with operator := .broadcasting b, site }
      | (.ends r, site) => some { w with operator := .announced (some r), site }
  | .draining d =>
      if d.nextLook ≤ w.site.now then
        match d.look w.site.now w.isHeld with
        | (some r, _) => some { w with operator := .drained r }
        | (none, d) => some { w with operator := .draining d }
      else none
  | _ => none

def deadlines (w : World) : List Nat := w.conns.flatMap Conn.deadlines ++ w.operator.deadlines

def machine : Machine World Task where
  tasks := tasks
  step := step
  operate := operate
  now := fun w => w.site.now
  setNow := fun w now => { w with site := { w.site with now } }
  deadlines := deadlines

def await (w : World) : World :=
  machine.run (fun w => w.operator.isFree) Machine.patience [] w

def sleep (w : World) (millis : Nat) : World :=
  { w with operator := .sleeping (w.site.now + millis) }.await

def settle (w : World) : World := w.sleep 1

/-- Let the owner of a connection go on until it waits, and nobody else. -/
def turnOwner (w : World) (i : Nat) : World := machine.turn (.owner i .signal) Machine.patience w

/-- Drop the owner of a connection where no task can be started any more. -/
def orphan (w : World) (i : Nat) : World :=
  match w.conns[i]? with
  | some c => w.put i (c.drop i w.site false)
  | none => w

def mapConn (w : World) (i : Nat) (change : Conn → Conn) : World :=
  { w with conns := w.conns.modify i change }

def mapHub (w : World) (change : Hub → Hub) : World := { w with site := w.site.mapHub change }

/-- A client connects: its number, and the world in which the owner is about to start. -/
def connect (w : World) (user : String) (input : Input) (output : Output) : Nat × World :=
  (w.conns.length,
    { w with
      conns := w.conns ++ [Conn.create input output]
      site := w.site.mapHub fun h => h.connect user w.site.buffer })

def isRead (w : World) (i : Nat) : Bool :=
  match w.conns[i]? with
  | some c => !c.input.ended && !c.owner.hasEnded
  | none => false

/-- Something arrives: whether it will be read. -/
def arrive (w : World) (i : Nat) (arrivals : List Arrival) : Bool × World :=
  if w.isRead i then
    (true, w.mapConn i fun c =>
      { c with input := { c.input with waiting := c.input.waiting ++ arrivals } })
  else
    (false, w)

def endInput (w : World) (i : Nat) : World :=
  w.mapConn i fun c => { c with input := { c.input with ended := true } }

def setOutput (w : World) (i : Nat) (mode : OutputMode) (change : Option (Nat × OutputMode)) :
    World :=
  w.mapConn i fun c => { c with output := c.output.setMode mode change }

def abort (w : World) (i : Nat) : World := w.mapConn i fun c => { c with ownerDropped := true }

def mapPresence (w : World) (change : Presence.Service → Presence.Service) : World :=
  { w with site := { w.site with presence := change w.site.presence } }

def setGate (w : World) (gate : Presence.Gate) : World := w.mapPresence fun p => { p with gate }

/-- Another instance changes the store: the new score. -/
def changeStore (w : World) (change : Presence.Store → Nat × Presence.Store) : Nat × World :=
  let (score, store) := change w.site.presence.store
  (score, w.mapPresence fun p => { p with store })

def broadcast (w : World) (message : Outbound) : BroadcastResult × World :=
  let (b, site) := w.site.beginBroadcast .order message
  let w := { w with operator := .broadcasting b, site }.await
  match w.operator with
  | .announced (some r) => (r, w)
  | _ => (⟨0, 0⟩, w)

def announce (w : World) : Option BroadcastResult × World :=
  let w := { w with operator := .announcing (Announcement.start w.site) }.await
  match w.operator with
  | .announced r => (r, w)
  | _ => (none, w)

def close (w : World) (i : Nat) : Bool × World :=
  if w.site.hub.isRegistered i then (true, w.mapHub fun h => h.close i) else (false, w)

def remove (w : World) (i : Nat) : Bool × World :=
  (w.site.hub.isRegistered i, w.mapHub fun h => h.remove i)

/-- Ask every connection to close: how many were asked. -/
def closeAll (w : World) : Nat × World :=
  let (signalled, hub) := w.site.hub.closeAll
  (signalled.length, { w with site := { w.site with hub } })

/-- Ask every connection to close and wait until they are released or `limit` milliseconds have
passed on a clock that runs `pace` times slower. -/
def shutdown (w : World) (limit pace : Nat) : DrainResult × World :=
  let (signalled, hub) := w.site.hub.closeAll
  let site := { w.site with hub }
  let w := { w with operator := .draining (Drain.start site.now limit pace signalled), site }.await
  match w.operator with
  | .drained r => (r, w)
  | _ => (default, w)

end World
end Rollcall.Session
