import Rollcall.Connection.Drain
import Rollcall.Schedule
import Rollcall.Session.Instance

/-!
Connections served by hand.

The hub without sockets. The operator makes connections and keeps their handles and receivers, or
hands them over: a keeper takes a handle, deregisters the connection when it is asked to close and
lets go of the handle some time later; a drainer takes one parcel each time it has slept.
-/

namespace Rollcall.Session

open Connection

inductive Keeper where
  | absent
  /-- Not started yet. -/
  | unborn (delay : Nat)
  | waiting (delay : Nat)
  | lingering (moment : Nat)
  | released
deriving DecidableEq, Repr

inductive Receiver where
  | atHand
  /-- Sleeps until the moment given, then takes a parcel. -/
  | sleeping (every wakesAt : Nat)
  | receiving (every : Nat)
  | gone
deriving DecidableEq, Repr

structure Line where
  /-- Whether the operator keeps the handle. -/
  kept : Bool
  keeper : Keeper
  receiver : Receiver
deriving Repr

inductive DeskTask where
  | keeper (conn : Nat)
  | drainer (conn : Nat)
deriving DecidableEq, Repr

inductive DeskWork where
  | idle
  | sleeping (wakesAt : Nat)
  | broadcasting (broadcast : Broadcast)
  | sending (send : Send)
  | awaitingClose (conn deadline : Nat)
  | draining (drain : Drain)
  | broadcasted (result : BroadcastResult)
  | sent (result : SendState)
  | closeSeen (seen : Bool)
  | drained (result : DrainResult)
deriving Repr

structure Desk where
  site : Instance
  lines : List Line
  work : DeskWork
deriving Repr

namespace DeskWork

def isFree : DeskWork → Bool
  | .idle => true
  | .broadcasted _ => true
  | .sent _ => true
  | .closeSeen _ => true
  | .drained _ => true
  | _ => false

def holds (w : DeskWork) (i : Nat) : Bool :=
  match w with
  | .broadcasting b => b.holds i
  | _ => false

def deadlines : DeskWork → List Nat
  | .sleeping wakesAt => [wakesAt]
  | .broadcasting b => b.deadlines
  | .sending send => if send.state.isWaiting then [send.deadline] else []
  | .awaitingClose _ deadline => [deadline]
  | .draining d => [d.nextLook]
  | _ => []

end DeskWork

namespace Keeper

def holds : Keeper → Bool
  | .absent => false
  | .released => false
  | _ => true

def deadlines : Keeper → List Nat
  | .lingering moment => [moment]
  | _ => []

end Keeper

def Receiver.deadlines : Receiver → List Nat
  | .sleeping _ wakesAt => [wakesAt]
  | _ => []

namespace Desk

def create (sendTimeout : Nat) : Desk := ⟨Instance.create .echo 1 sendTimeout, [], .idle⟩

def mapHub (d : Desk) (change : Hub → Hub) : Desk := { d with site := d.site.mapHub change }

def mapLine (d : Desk) (i : Nat) (change : Line → Line) : Desk :=
  { d with lines := d.lines.modify i change }

def mapSignal (d : Desk) (i : Nat) (change : CloseSignal → CloseSignal) : Desk :=
  d.mapHub fun h => h.modify i fun p => { p with signal := change p.signal }

def signal (d : Desk) (i : Nat) : CloseSignal :=
  (d.site.hub.peers[i]?.map Peer.signal).getD CloseSignal.initial

/-- Whether anyone but a drain refers to the handle of connection `i`. -/
def isHeld (d : Desk) (i : Nat) : Bool :=
  d.site.hub.isRegistered i || d.work.holds i ||
    (d.lines[i]?.any fun l => l.kept || l.keeper.holds)

/-- The connections asked to close whose handles the operator keeps. -/
def closing (d : Desk) : List Nat :=
  (List.range d.lines.length).filter fun i =>
    d.site.hub.isClosing i && d.lines[i]?.any fun l => l.kept

def keeperStep (d : Desk) (i : Nat) (l : Line) : Option Desk :=
  let close (delay : Nat) (d : Desk) : Desk :=
    (d.mapHub fun h => h.remove i).mapLine i fun l =>
      { l with keeper := .lingering (d.site.now + delay) }
  match l.keeper with
  | .unborn delay =>
      let (ended, signal) := (d.signal i).begin
      let d := d.mapSignal i fun _ => signal
      some (if ended then close delay d
        else d.mapLine i fun l => { l with keeper := .waiting delay })
  | .waiting delay =>
      let (ended, signal) := (d.signal i).resume
      if ended then some (close delay (d.mapSignal i fun _ => signal)) else none
  | .lingering moment =>
      if moment ≤ d.site.now then some (d.mapLine i fun l => { l with keeper := .released })
      else none
  | _ => none

def drainerStep (d : Desk) (i : Nat) (l : Line) : Option Desk :=
  let sleep (every : Nat) (d : Desk) : Desk :=
    d.mapLine i fun l => { l with receiver := .sleeping every (d.site.now + every) }
  match l.receiver with
  | .sleeping every wakesAt =>
      if wakesAt ≤ d.site.now then
        some (d.mapLine i fun l => { l with receiver := .receiving every })
      else none
  | .receiving every =>
      match d.site.hub.receive i with
      | some (_, hub) => some (sleep every { d with site := { d.site with hub } })
      | none =>
          if d.isHeld i then none
          else some ((d.mapHub fun h => h.hangUp i).mapLine i fun l => { l with receiver := .gone })
  | _ => none

def step (d : Desk) (t : DeskTask) : Option Desk :=
  match t with
  | .keeper i => d.lines[i]?.bind (d.keeperStep i)
  | .drainer i => d.lines[i]?.bind (d.drainerStep i)

def tasks (d : Desk) : List DeskTask :=
  (List.range d.lines.length).flatMap fun i => [.keeper i, .drainer i]

def operate (d : Desk) : Option Desk :=
  match d.work with
  | .sleeping wakesAt => if wakesAt ≤ d.site.now then some { d with work := .idle } else none
  | .broadcasting b =>
      match d.site.pursueBroadcast b with
      | (.waits, _) => none
      | (.goesOn b, site) => some { d with work := .broadcasting b, site }
      | (.ends r, site) => some { d with work := .broadcasted r, site }
  | .sending send =>
      let (send, hub) := send.resume d.site.hub d.site.now
      if send.state.isWaiting then none
      else some { d with work := .sent send.state, site := { d.site with hub } }
  | .awaitingClose i deadline =>
      let (ended, signal) := (d.signal i).resume
      if ended then some { d.mapSignal i (fun _ => signal) with work := .closeSeen true }
      else if deadline ≤ d.site.now then
        some { d.mapSignal i CloseSignal.abandon with work := .closeSeen false }
      else none
  | .draining drain =>
      if drain.nextLook ≤ d.site.now then
        match drain.look d.site.now d.isHeld with
        | (some r, _) => some { d with work := .drained r }
        | (none, drain) => some { d with work := .draining drain }
      else none
  | _ => none

def deadlines (d : Desk) : List Nat :=
  (d.lines.flatMap fun l => l.keeper.deadlines ++ l.receiver.deadlines) ++ d.work.deadlines

def machine : Machine Desk DeskTask where
  tasks := tasks
  step := step
  operate := operate
  now := fun d => d.site.now
  setNow := fun d now => { d with site := { d.site with now } }
  deadlines := deadlines

def await (d : Desk) : Desk := machine.run (fun d => d.work.isFree) Machine.patience [] d

def sleep (d : Desk) (millis : Nat) : Desk :=
  { d with work := .sleeping (d.site.now + millis) }.await

/-- Make a connection, registered or not: its number. -/
def connect (d : Desk) (user : String) (capacity : Nat) (registered : Bool) : Nat × Desk :=
  let i := d.lines.length
  let line : Line := ⟨true, .absent, .atHand⟩
  let d := ({ d with lines := d.lines ++ [line] } : Desk).mapHub fun h => h.connect user capacity
  (i, if registered then d.mapHub fun h => h.add i else d)

def remove (d : Desk) (i : Nat) : Option String × Desk :=
  (if d.site.hub.isRegistered i then d.site.hub.peers[i]?.map Peer.user else none,
    d.mapHub fun h => h.remove i)

def find (d : Desk) (i : Nat) : Option String :=
  if d.site.hub.isRegistered i then d.site.hub.peers[i]?.map Peer.user else none

/-- How long a send by hand waits, in milliseconds. -/
def sendPatience : Nat := 10

def send (d : Desk) (i : Nat) (message : Outbound) : SendState × Desk :=
  let (send, hub) :=
    Send.start d.site.hub d.site.now i ⟨.direct, message⟩ (d.site.now + sendPatience)
  let d := { d with site := { d.site with hub } }
  if send.state.isWaiting then
    let d := { d with work := .sending send }.await
    match d.work with
    | .sent state => (state, d)
    | _ => (send.state, d)
  else
    (send.state, d)

def trySend (d : Desk) (i : Nat) (message : Outbound) : Sending × Desk :=
  let (outcome, hub) := d.site.hub.trySend i ⟨.direct, message⟩
  (outcome, { d with site := { d.site with hub } })

def receive (d : Desk) (i : Nat) : (fuel : Nat) → List Outbound × Desk
  | 0 => ([], d)
  | fuel + 1 =>
      match d.site.hub.receive i with
      | none => ([], d)
      | some (parcel, hub) =>
          let (rest, d) := receive { d with site := { d.site with hub } } i fuel
          (parcel.message :: rest, d)

/-- What waits for a connection, as long as its receiver is at hand. -/
def collect (d : Desk) (i : Nat) (most : Option Nat) : List Outbound × Desk :=
  if d.lines[i]?.any fun l => l.receiver == .atHand then
    let waiting := (d.site.hub.peers[i]?.map fun p => p.channel.queue.length).getD 0
    d.receive i (most.getD waiting)
  else
    ([], d)

def hangUp (d : Desk) (i : Nat) : Desk :=
  (d.mapHub fun h => h.hangUp i).mapLine i fun l => { l with receiver := .gone }

/-- From now on a task takes one parcel each time it has slept `every` milliseconds. -/
def drainLater (d : Desk) (i every : Nat) : Desk :=
  d.mapLine i fun l => { l with receiver := .sleeping every (d.site.now + every) }

/-- Wait for the close signal of a connection: whether it came within `millis`. -/
def closedWithin (d : Desk) (i millis : Nat) : Bool × Desk :=
  let (ended, signal) := (d.signal i).begin
  let d := d.mapSignal i fun _ => signal
  if ended then (true, d)
  else
    let d := { d with work := .awaitingClose i (d.site.now + millis) }.await
    match d.work with
    | .closeSeen seen => (seen, d)
    | _ => (false, d)

def broadcast (d : Desk) (message : Outbound) : BroadcastResult × Desk :=
  let (b, site) := d.site.beginBroadcast .order message
  let d := { d with work := .broadcasting b, site }.await
  match d.work with
  | .broadcasted r => (r, d)
  | _ => (⟨0, 0⟩, d)

def closeAll (d : Desk) : List Nat × Desk :=
  let (signalled, hub) := d.site.hub.closeAll
  (signalled, { d with site := { d.site with hub } })

def release (d : Desk) (i : Nat) : Desk := d.mapLine i fun l => { l with kept := false }

def own (d : Desk) (i delay : Nat) : Desk :=
  (d.mapLine i fun l => { l with kept := false, keeper := .unborn delay }).sleep 1

/-- Ask every connection to close and wait until the handles are released or `limit` milliseconds
have passed on a clock that runs `pace` times slower. -/
def shutdown (d : Desk) (limit pace : Nat) : DrainResult × Desk :=
  let (signalled, d) := d.closeAll
  let d := { d with work := .draining (Drain.start d.site.now limit pace signalled) }.await
  match d.work with
  | .drained r => (r, d)
  | _ => (default, d)

end Desk
end Rollcall.Session
