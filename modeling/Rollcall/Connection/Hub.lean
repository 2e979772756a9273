import Rollcall.Connection.Channel
import Rollcall.Connection.CloseSignal
import Rollcall.Connection.Id
import Rollcall.Frame

/-!
The connections of an instance.

A peer is one connection as others see it: its user, its outbound channel and its close signal. The
hub holds every peer that was ever connected, in order, and the registry: the numbers of those that
a broadcast reaches. A parcel is what waits in a channel, together with who put it there.
-/

namespace Rollcall.Connection

inductive Origin where
  /-- The broadcast of a count. -/
  | announcement (broadcast : Nat)
  /-- The broadcast of a frame that the given connection sent. -/
  | relay (broadcast sender : Nat)
  /-- A broadcast ordered from outside. -/
  | order (broadcast : Nat)
  /-- The connection's own frame on its way back. -/
  | echo
  /-- The close frame of the connection's own task. -/
  | farewell
  /-- A send from outside to this connection alone. -/
  | direct
deriving DecidableEq, Repr, Inhabited

structure Parcel where
  origin : Origin
  message : Outbound
deriving DecidableEq, Repr, Inhabited

structure Peer where
  id : Id
  /-- Empty for an anonymous client. -/
  user : String
  channel : Channel Parcel
  signal : CloseSignal
deriving Repr

/-- The member a connection counts as. Each anonymous connection counts for itself. -/
def memberOf (id : Id) (user : String) : String :=
  if user.isEmpty then "anonymous:" ++ id.text else user

namespace Peer

def create (id : Id) (user : String) (capacity : Nat) : Peer :=
  ⟨id, user, Channel.create capacity, CloseSignal.initial⟩

def isAnonymous (p : Peer) : Bool := p.user.isEmpty

def member (p : Peer) : String := memberOf p.id p.user

def isClosing (p : Peer) : Bool := p.signal.raised

end Peer

structure Counts where
  total : Nat
  uniqueUsers : Nat
deriving DecidableEq, Repr, Inhabited

structure Hub where
  peers : List Peer
  /-- Numbers of the registered peers, none twice. -/
  registered : List Nat
  shuttingDown : Bool
  /-- How long a send of a broadcast may wait for a place, in milliseconds. -/
  sendTimeout : Nat
  /-- How many broadcasts have begun. -/
  broadcasts : Nat
deriving Repr

namespace Hub

def defaultTimeout : Nat := 2000

def create (sendTimeout : Nat) : Hub := ⟨[], [], false, sendTimeout, 0⟩

def connect (h : Hub) (user : String) (capacity : Nat) : Hub :=
  { h with peers := h.peers ++ [Peer.create ⟨h.peers.length⟩ user capacity] }

def modify (h : Hub) (i : Nat) (change : Peer → Peer) : Hub :=
  { h with peers := h.peers.modify i change }

def isRegistered (h : Hub) (i : Nat) : Bool := h.registered.contains i

def add (h : Hub) (i : Nat) : Hub :=
  if h.isRegistered i then h else { h with registered := h.registered ++ [i] }

/-- Take a peer out of the registry; one that is not in it changes nothing. -/
def remove (h : Hub) (i : Nat) : Hub := { h with registered := h.registered.erase i }

def close (h : Hub) (i : Nat) : Hub := h.modify i fun p => { p with signal := p.signal.raise }

/-- Ask every registered peer to close: their numbers, and the hub, which from now on counts as
shutting down. -/
def closeAll (h : Hub) : List Nat × Hub :=
  (h.registered, h.registered.foldl close { h with shuttingDown := true })

def isClosing (h : Hub) (i : Nat) : Bool := (h.peers[i]?.map Peer.isClosing).getD false

def members (h : Hub) : List String := h.registered.filterMap fun i => h.peers[i]?.map Peer.member

def uniqueUsers (h : Hub) : Nat := h.members.eraseDups.length

def counts (h : Hub) : Counts := ⟨h.registered.length, h.uniqueUsers⟩

def trySend (h : Hub) (i : Nat) (parcel : Parcel) : Sending × Hub :=
  match h.peers[i]? with
  | none => (.closed, h)
  | some p =>
      let (outcome, channel) := p.channel.trySend parcel
      (outcome, h.modify i fun p => { p with channel })

def enqueue (h : Hub) (i : Nat) : Nat × Hub :=
  match h.peers[i]? with
  | none => (0, h)
  | some p =>
      let (ticket, channel) := p.channel.enqueue
      (ticket, h.modify i fun p => { p with channel })

def redeem (h : Hub) (i ticket : Nat) (parcel : Parcel) : Sending × Hub :=
  match h.peers[i]? with
  | none => (.closed, h)
  | some p =>
      let (outcome, channel) := p.channel.redeem ticket parcel
      (outcome, h.modify i fun p => { p with channel })

def leaveLine (h : Hub) (i ticket : Nat) : Hub :=
  h.modify i fun p => { p with channel := p.channel.leaveLine ticket }

def receive (h : Hub) (i : Nat) : Option (Parcel × Hub) :=
  match h.peers[i]? with
  | none => none
  | some p =>
      p.channel.receive.map fun (parcel, channel) =>
        (parcel, h.modify i fun p => { p with channel })

def hangUp (h : Hub) (i : Nat) : Hub :=
  h.modify i fun p => { p with channel := p.channel.hangUp }

theorem mem_registered_add (h : Hub) (i j : Nat) :
    j ∈ (h.add i).registered ↔ j ∈ h.registered ∨ j = i := by
  unfold add isRegistered
  by_cases known : i ∈ h.registered
  · simp only [List.contains_iff_mem, known, if_true]
    constructor
    · exact Or.inl
    · rintro (hj | rfl)
      · exact hj
      · exact known
  · simp [known]

theorem nodup_registered_add (h : Hub) (i : Nat) (distinct : h.registered.Nodup) :
    (h.add i).registered.Nodup := by
  unfold add isRegistered
  by_cases known : i ∈ h.registered
  · simpa [known] using distinct
  · have fresh : ∀ j ∈ h.registered, j ≠ i := fun j hj same => known (same ▸ hj)
    simpa [known, List.nodup_append, distinct] using fresh

/-- Among distinct registered peers a removal takes out just the one. -/
theorem mem_registered_remove (h : Hub) (i j : Nat) (distinct : h.registered.Nodup) :
    j ∈ (h.remove i).registered ↔ j ≠ i ∧ j ∈ h.registered := by
  simpa [remove] using distinct.mem_erase_iff

theorem nodup_registered_remove (h : Hub) (i : Nat) (distinct : h.registered.Nodup) :
    (h.remove i).registered.Nodup := distinct.erase i

end Hub
end Rollcall.Connection
