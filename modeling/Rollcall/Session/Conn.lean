import Rollcall.Connection.Lifecycle
import Rollcall.Session.Instance
import Rollcall.Session.Socket

/-!
The tasks of a connection.

Three tasks serve a connection. The owner registers it, joins presence, announces the count and then
reads until something ends the connection. The writer moves parcels from the outbound channel to the
socket. The cleanup undoes what the owner did: it takes the connection out of the registry, leaves
presence and announces. If the owner is aborted, the registry and the count of closed connections
are put right at once, and the cleanup does the rest.

Each task is a phase, and each step takes it from one phase to the next. Nothing happens between two
steps of the same task that others could not see.
-/

namespace Rollcall.Session

open Connection

/-- How long the writer may take to flush the farewell, in milliseconds. -/
def partingTime : Nat := 1000

/-- What an owner that listens goes on with: the close signal, the end of its writer or the next
arrival. -/
inductive Branch where
  | signal
  | writer
  | arrival
deriving DecidableEq, Repr

/-- The order in which the branches are looked at, from the first one on. -/
def Branch.order : Branch → List Branch
  | .signal => [.signal, .writer, .arrival]
  | .writer => [.writer, .arrival, .signal]
  | .arrival => [.arrival, .signal, .writer]

theorem Branch.mem_order (first b : Branch) : b ∈ first.order := by
  cases first <;> cases b <;> decide

inductive Owner where
  /-- Not started yet. -/
  | unborn
  | joining (call : StoreCall)
  | announcing (announcement : Announcement)
  /-- Waiting for one of the branches. -/
  | listening
  | echoing (send : Send)
  | relaying (broadcast : Broadcast)
  /-- Waiting for the cleanup. -/
  | finishing (reason : CloseReason)
  /-- Waiting for the writer. -/
  | parting (reason : CloseReason) (deadline : Nat)
  | done (reason : CloseReason)
  | aborted
deriving Repr

inductive Writer where
  | unborn
  | receiving
  | writing (message : Outbound) (deadline : Nat)
  | closing (deadline : Nat)
  | ended
deriving Repr

inductive Cleanup where
  | absent
  /-- Not started yet; `registered` tells whether the registry is still to be put right. -/
  | ready (registered : Bool)
  | leaving (call : StoreCall)
  | announcing (announcement : Announcement)
  | done
deriving Repr

/-- What was done for a connection, in the order in which it was done. -/
inductive Deed where
  | opened
  | joined
  | closed
  | leaveAsked
  | left
  | announced
deriving DecidableEq, Repr

structure Conn where
  owner : Owner
  writer : Writer
  cleanup : Cleanup
  /-- Whether the join gave a score. -/
  joined : Bool
  openedAt : Nat
  input : Input
  output : Output
  /-- Whether the owner, or the writer, is to be dropped at its next turn. -/
  ownerDropped : Bool
  writerDropped : Bool
  /-- The frames read so far. -/
  read : List Frame
  deeds : List Deed
deriving Repr

namespace Owner

/-- Whether the owner will take no further step. -/
def hasEnded : Owner → Bool
  | .done _ => true
  | .aborted => true
  | _ => false

/-- Whether the owner keeps the connection's handle. -/
def holdsOwn : Owner → Bool
  | .unborn => false
  | .parting .. => false
  | .done _ => false
  | .aborted => false
  | _ => true

def holds (o : Owner) (i : Nat) : Bool :=
  match o with
  | .announcing a => a.holds i
  | .relaying b => b.holds i
  | _ => false

def deadlines : Owner → List Nat
  | .joining call => call.due.toList
  | .announcing a => a.deadlines
  | .echoing send => if send.state.isWaiting then [send.deadline] else []
  | .relaying b => b.deadlines
  | .parting _ deadline => [deadline]
  | _ => []

def stage : Owner → Stage
  | .unborn => .connecting
  | .joining _ => .connecting
  | .finishing _ => .closing
  | .parting .. => .closing
  | .done _ => .closed
  | .aborted => .closed
  | _ => .opened

end Owner

namespace Writer

def hasEnded : Writer → Bool
  | .ended => true
  | _ => false

def deadlines : Writer → List Nat
  | .writing _ deadline => [deadline]
  | .closing deadline => [deadline]
  | _ => []

end Writer

namespace Cleanup

def isDone : Cleanup → Bool
  | .done => true
  | _ => false

def holdsOwn : Cleanup → Bool
  | .absent => false
  | .done => false
  | _ => true

def holds (c : Cleanup) (i : Nat) : Bool :=
  match c with
  | .announcing a => a.holds i
  | _ => false

def deadlines : Cleanup → List Nat
  | .leaving call => call.due.toList
  | .announcing a => a.deadlines
  | _ => []

end Cleanup

namespace Conn

def create (input : Input) (output : Output) : Conn where
  owner := .unborn
  writer := .unborn
  cleanup := .absent
  joined := false
  openedAt := 0
  input := input
  output := output
  ownerDropped := false
  writerDropped := false
  read := []
  deeds := []

def note (c : Conn) (deed : Deed) : Conn := { c with deeds := c.deeds ++ [deed] }

def member (s : Instance) (i : Nat) : String := (s.hub.peers[i]?.map Peer.member).getD ""

def mapSignal (s : Instance) (i : Nat) (change : CloseSignal → CloseSignal) : Instance :=
  s.mapHub fun h => h.modify i fun p => { p with signal := change p.signal }

def signal (s : Instance) (i : Nat) : CloseSignal :=
  (s.hub.peers[i]?.map Peer.signal).getD CloseSignal.initial

/-- The connection leaves the registry, and its end is counted. -/
def deregister (c : Conn) (i : Nat) (s : Instance) : Conn × Instance :=
  (c.note .closed,
    (s.mapHub fun h => h.remove i).mapMetrics fun m =>
      m.recordClosed (Span.ofMillis (s.now - c.openedAt)))

/-- The end of the reading loop: the cleanup is started and waited for. -/
def finish (c : Conn) (i : Nat) (s : Instance) (reason : CloseReason) : Conn × Instance :=
  ({ c with owner := .finishing reason, cleanup := .ready true }, mapSignal s i CloseSignal.abandon)

def listen (c : Conn) : Conn := { c with owner := .listening }

def handle (c : Conn) (i : Nat) (s : Instance) (frame : Frame) : Conn × Instance :=
  let c := { c with read := c.read ++ [frame] }
  let s := mapSignal s i CloseSignal.abandon
  let pass (message : Outbound) (s : Instance) : Conn × Instance :=
    match s.policy with
    | .echo =>
        let (send, hub) :=
          Send.start s.hub s.now i ⟨.echo, message⟩ (s.now + s.hub.sendTimeout)
        ({ c with owner := .echoing send }, { s with hub })
    | .relay =>
        let (b, s) := s.beginBroadcast (fun n => .relay n i) message
        ({ c with owner := .relaying b }, s)
  match frame with
  | .text content => pass (.text content) (s.mapMetrics fun m => m.recordReceived "text")
  | .binary content => pass (.binary content) (s.mapMetrics fun m => m.recordReceived "binary")
  | .ping _ => (c.listen, s.mapMetrics fun m => m.recordReceived "ping")
  | .pong _ => (c.listen, s.mapMetrics fun m => m.recordReceived "pong")
  | .close _ => c.finish i s .clientClosed

/-- What the owner does by a branch, if that is ready. -/
def heed (c : Conn) (i : Nat) (s : Instance) : Branch → Option (Conn × Instance)
  | .signal =>
      let (ended, signal) := (Conn.signal s i).poll
      if ended then some (c.finish i (mapSignal s i fun _ => signal) .serverClosed) else none
  | .writer => if c.writer.hasEnded then some (c.finish i s .writeFailed) else none
  | .arrival =>
      match c.input.waiting with
      | .frame frame :: rest =>
          some ({ c with input := { c.input with waiting := rest } }.handle i s frame)
      | .error detail :: rest =>
          some ({ c with input := { c.input with waiting := rest } }.finish i s (.readError detail))
      | [] => if c.input.ended then some (c.finish i s .streamEnded) else none

/-- The owner goes on with the first branch that is ready. Where none is, it waits for all of them,
and a wait for the signal has been registered. Whoever goes on with another branch gives that wait
up (`CloseSignal.abandon_poll`). -/
def hear (c : Conn) (i : Nat) (s : Instance) (first : Branch) : Option (Conn × Instance) :=
  match first.order.findSome? (c.heed i s) with
  | some result => some result
  | none =>
      let signal := Conn.signal s i
      if signal.wait = .none then some (c, mapSignal s i fun _ => signal.poll.2) else none

theorem heed_signal_eq_none {c : Conn} {i : Nat} {s : Instance} :
    c.heed i s .signal = none ↔ (signal s i).poll.1 = false := by
  simp [heed]

/-- An owner that listens and goes on takes a branch that is ready, or registers its wait where none
is. -/
theorem hear_cases {c : Conn} {i : Nat} {s : Instance} {first : Branch} {r : Conn × Instance}
    (hhear : c.hear i s first = some r) :
    (∃ b, c.heed i s b = some r) ∨
      ((∀ b, c.heed i s b = none) ∧ (signal s i).wait = .none ∧
        r = (c, mapSignal s i fun _ => (signal s i).poll.2)) := by
  unfold hear at hhear
  split at hhear
  case h_1 result hready =>
    obtain ⟨b, _, hheed⟩ := List.exists_of_findSome?_eq_some hready
    exact .inl ⟨b, hheed.trans hhear⟩
  case h_2 hnothing =>
    rw [List.findSome?_eq_none_iff] at hnothing
    simp only at hhear
    split at hhear
    case isTrue hnone =>
      cases hhear
      exact .inr ⟨fun b => hnothing b (first.mem_order b), hnone, rfl⟩
    · cases hhear

/-- Whether an owner that listens can go on does not depend on the branch it looks at first. -/
theorem hear_eq_none_iff {c : Conn} {i : Nat} {s : Instance} {first : Branch} :
    c.hear i s first = none ↔ (∀ b, c.heed i s b = none) ∧ (signal s i).wait ≠ .none := by
  have hall : first.order.findSome? (c.heed i s) = none ↔ ∀ b, c.heed i s b = none := by
    rw [List.findSome?_eq_none_iff]
    exact ⟨fun hnothing b => hnothing b (first.mem_order b), fun hnothing b _ => hnothing b⟩
  unfold hear
  split
  case h_1 result hready => simp [← hall, hready]
  case h_2 hnothing => simp [hall.mp hnothing]

/-- The owner is dropped in the middle of its work. `runtime` tells whether a task can still be
started; without one the cleanup is lost. -/
def drop (c : Conn) (i : Nat) (s : Instance) (runtime : Bool) : Conn × Instance :=
  let ended := { c with owner := .aborted }
  let undo (s : Instance) : Conn × Instance :=
    let (c, s) := ended.deregister i (mapSignal s i CloseSignal.abandon)
    ({ c with cleanup := if runtime then .ready false else .done }, s)
  match c.owner with
  | .unborn => ({ ended with writer := .ended }, s)
  | .joining _ => undo s
  | .announcing a => undo (a.abandon s)
  | .listening => undo s
  | .echoing send => undo (s.mapHub send.abandon)
  | .relaying b => undo (s.mapHub b.abandon)
  | _ => (ended, s)

/-- One step of the owner of connection `i`; where it listens, it looks at the branch `first`
first. -/
def ownerStep (c : Conn) (i : Nat) (s : Instance) (first : Branch) : Option (Conn × Instance) :=
  if c.owner.hasEnded then none
  else if c.ownerDropped then some (c.drop i s true)
  else match c.owner with
  | .unborn =>
      let s := (s.mapHub fun h => h.add i).mapMetrics Metrics.recordOpened
      some ({ c with owner := .joining s.callStore, writer := .receiving, openedAt := s.now }.note
        .opened, s)
  | .joining call =>
      if call.isDue s.now then
        let (score, presence) := s.presence.finishJoin (member s i) call.passed
        let s := { s with presence }
        let c := if score.isSome then { c with joined := true }.note .joined else c
        some ({ c with owner := .announcing (Announcement.start s) }, s)
      else
        none
  | .announcing a =>
      match a.step s with
      | (.waits, _) => none
      | (.goesOn a, s) => some ({ c with owner := .announcing a }, s)
      | (.ends _, s) => some (c.listen, s)
  | .listening => c.hear i s first
  | .echoing send =>
      let (send, hub) := send.resume s.hub s.now
      match send.state with
      | .waiting _ => none
      | .delivered => some (c.listen, { s with hub })
      | _ => some (c.finish i { s with hub } .writeFailed)
  | .relaying b =>
      match s.pursueBroadcast b with
      | (.waits, _) => none
      | (.goesOn b, s) => some ({ c with owner := .relaying b }, s)
      | (.ends _, s) => some (c.listen, s)
  | .finishing reason =>
      if c.cleanup.isDone then
        let s := s.mapHub fun h => (h.trySend i ⟨.farewell, .close⟩).2
        some ({ c with owner := .parting reason (s.now + partingTime) }, s)
      else
        none
  | .parting reason deadline =>
      if c.writer.hasEnded then some ({ c with owner := .done reason }, s)
      else if deadline ≤ s.now then
        some ({ c with owner := .done reason, writerDropped := true }, s)
      else none
  | .done _ => none
  | .aborted => none

/-- Whether an owner can go on does not depend on the branch it looks at first. -/
theorem ownerStep_eq_none {c : Conn} {i : Nat} {s : Instance} {first : Branch}
    (hstep : c.ownerStep i s first = none) (other : Branch) : c.ownerStep i s other = none := by
  cases howner : c.owner with
  | listening =>
      simp only [ownerStep, howner, Owner.hasEnded, Bool.false_eq_true, if_false] at hstep ⊢
      split at hstep
      · cases hstep
      case isFalse hkept =>
        rw [if_neg hkept]
        exact hear_eq_none_iff.mpr (hear_eq_none_iff.mp hstep)
  | _ =>
      simp only [ownerStep, howner] at hstep ⊢
      exact hstep

/-- The writer ends, and the receiving end of the channel goes with it. -/
def endWriter (c : Conn) (i : Nat) (s : Instance) : Conn × Instance :=
  ({ c with writer := .ended }, s.mapHub fun h => h.hangUp i)

/-- One step of the writer of connection `i`; `held` tells whether anyone could still send. -/
def writerStep (c : Conn) (i : Nat) (s : Instance) (held : Bool) : Option (Conn × Instance) :=
  let deadline := s.now + s.hub.sendTimeout
  if c.writerDropped && !c.writer.hasEnded then some (c.endWriter i s)
  else match c.writer with
  | .unborn => none
  | .receiving =>
      match s.hub.receive i with
      | some (parcel, hub) =>
          some ({ c with writer := .writing parcel.message deadline }, { s with hub })
      | none => if held then none else some ({ c with writer := .closing deadline }, s)
  | .writing message limit =>
      match c.output.mode with
      | .accepting =>
          let c := { c with output := c.output.write message.frame }
          some ({ c with writer := if message.isClose then .closing deadline else .receiving }, s)
      | .failing => some (c.endWriter i s)
      | .stalled => if limit ≤ s.now then some (c.endWriter i s) else none
  | .closing limit =>
      match c.output.mode with
      | .stalled => if limit ≤ s.now then some (c.endWriter i s) else none
      | _ => some ({ c with output := { c.output with closed := true } }.endWriter i s)
  | .ended => none

/-- The last part of the cleanup, which is left out while everyone is closing. -/
def announceEnd (c : Conn) (s : Instance) : Conn :=
  if s.hub.shuttingDown then { c with cleanup := .done }
  else { c with cleanup := .announcing (Announcement.start s) }.note .announced

def cleanupStep (c : Conn) (i : Nat) (s : Instance) : Option (Conn × Instance) :=
  match c.cleanup with
  | .absent => none
  | .ready registered =>
      let (c, s) := if registered then c.deregister i s else (c, s)
      if c.joined then some ({ c with cleanup := .leaving s.callStore }.note .leaveAsked, s)
      else some (c.announceEnd s, s)
  | .leaving call =>
      if call.isDue s.now then
        let (left, presence) := s.presence.finishLeave (member s i) call.passed
        let s := { s with presence }
        let c := if left.isSome then c.note .left else c
        some (c.announceEnd s, s)
      else
        none
  | .announcing a =>
      match a.step s with
      | (.waits, _) => none
      | (.goesOn a, s) => some ({ c with cleanup := .announcing a }, s)
      | (.ends _, s) => some ({ c with cleanup := .done }, s)
  | .done => none

def deadlines (c : Conn) : List Nat :=
  c.owner.deadlines ++ c.writer.deadlines ++ c.cleanup.deadlines

def holds (c : Conn) (i : Nat) : Bool := c.owner.holds i || c.cleanup.holds i

def holdsOwn (c : Conn) : Bool := c.owner.holdsOwn || c.cleanup.holdsOwn

end Conn
end Rollcall.Session
