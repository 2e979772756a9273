import Rollcall.Connection.Hub

/-!
Sends and broadcasts.

A send tries at once, then stands in line until a place is granted, the channel closes or its
deadline passes. A broadcast is one send to each peer that was registered when it began, all with
one deadline. When every send is over, the peers whose send failed are taken out of the registry and
asked to close.
-/

namespace Rollcall.Connection

inductive SendState where
  | waiting (ticket : Nat)
  | delivered
  /-- The channel was closed. -/
  | refused
  | timedOut
deriving DecidableEq, Repr, Inhabited

def SendState.isWaiting : SendState → Bool
  | .waiting _ => true
  | _ => false

structure Send where
  target : Nat
  parcel : Parcel
  /-- The moment after which a send that is still waiting has failed. -/
  deadline : Nat
  state : SendState
deriving DecidableEq, Repr

namespace Send

def expire (s : Send) (h : Hub) (now : Nat) : Send × Hub :=
  match s.state with
  | .waiting ticket =>
      if s.deadline ≤ now then ({ s with state := .timedOut }, h.leaveLine s.target ticket)
      else (s, h)
  | _ => (s, h)

def start (h : Hub) (now : Nat) (target : Nat) (parcel : Parcel) (deadline : Nat) : Send × Hub :=
  match h.trySend target parcel with
  | (.sent, h) => (⟨target, parcel, deadline, .delivered⟩, h)
  | (.closed, h) => (⟨target, parcel, deadline, .refused⟩, h)
  | (.full, h) =>
      let (ticket, h) := h.enqueue target
      expire ⟨target, parcel, deadline, .waiting ticket⟩ h now

/-- A further attempt: a place that was granted is taken before the deadline is looked at. -/
def resume (s : Send) (h : Hub) (now : Nat) : Send × Hub :=
  match s.state with
  | .waiting ticket =>
      match h.redeem s.target ticket s.parcel with
      | (.sent, h) => ({ s with state := .delivered }, h)
      | (.closed, h) => ({ s with state := .refused }, h.leaveLine s.target ticket)
      | (.full, h) => s.expire h now
  | _ => (s, h)

def abandon (s : Send) (h : Hub) : Hub :=
  match s.state with
  | .waiting ticket => h.leaveLine s.target ticket
  | _ => h

end Send

structure BroadcastResult where
  delivered : Nat
  failed : Nat
deriving DecidableEq, Repr, Inhabited

structure Broadcast where
  sends : List Send
deriving Repr

namespace Broadcast

def each (act : Send → Hub → Send × Hub) : List Send → Hub → List Send × Hub
  | [], h => ([], h)
  | s :: rest, h =>
      let (s, h) := act s h
      let (rest, h) := each act rest h
      (s :: rest, h)

def startAll (now : Nat) (parcel : Parcel) (deadline : Nat) : List Nat → Hub → List Send × Hub
  | [], h => ([], h)
  | target :: rest, h =>
      let (s, h) := Send.start h now target parcel deadline
      let (rest, h) := startAll now parcel deadline rest h
      (s :: rest, h)

/-- Begin a broadcast to everyone who is registered now. `origin` is given the number of the
broadcast. -/
def start (h : Hub) (now : Nat) (origin : Nat → Origin) (message : Outbound) : Broadcast × Hub :=
  let parcel : Parcel := ⟨origin h.broadcasts, message⟩
  let (sends, h) := startAll now parcel (now + h.sendTimeout) h.registered
    { h with broadcasts := h.broadcasts + 1 }
  (⟨sends⟩, h)

def resume (b : Broadcast) (h : Hub) (now : Nat) : Broadcast × Hub :=
  let (sends, h) := each (fun s h => s.resume h now) b.sends h
  (⟨sends⟩, h)

def isOver (b : Broadcast) : Bool := b.sends.all fun s => !s.state.isWaiting

/-- Whether an attempt made now would change anything. -/
def canProceed (b : Broadcast) (h : Hub) (now : Nat) : Bool :=
  b.sends.any fun s => s.state.isWaiting && !(s.resume h now).1.state.isWaiting

def failures (b : Broadcast) : List Nat :=
  (b.sends.filter fun s => s.state != .delivered).map Send.target

def result (b : Broadcast) : BroadcastResult :=
  ⟨(b.sends.filter fun s => s.state == .delivered).length, b.failures.length⟩

/-- Take the peers whose send failed out of the registry and ask them to close. -/
def evict (b : Broadcast) (h : Hub) : Hub :=
  b.failures.foldl (fun h i => (h.remove i).close i) h

def abandon (b : Broadcast) (h : Hub) : Hub := b.sends.foldl (fun h s => s.abandon h) h

/-- Whether the broadcast still refers to peer `i`: a send that is delivered has let go of its
peer. -/
def holds (b : Broadcast) (i : Nat) : Bool :=
  b.sends.any fun s => s.target == i && s.state != .delivered

def deadlines (b : Broadcast) : List Nat :=
  (b.sends.filter fun s => s.state.isWaiting).map Send.deadline

theorem targets_startAll (now : Nat) (parcel : Parcel) (deadline : Nat) (targets : List Nat)
    (h : Hub) : (startAll now parcel deadline targets h).1.map Send.target = targets := by
  induction targets generalizing h with
  | nil => rfl
  | cons target rest ih =>
    have first : (Send.start h now target parcel deadline).1.target = target := by
      unfold Send.start
      split
      · rfl
      · rfl
      · simp only [Send.expire]
        split <;> rfl
    simp only [startAll, List.map_cons, first, ih]

/-- Every send has either delivered or failed, so the two numbers of a result add up. -/
theorem delivered_add_failed (b : Broadcast) :
    b.result.delivered + b.result.failed = b.sends.length := by
  simp only [result, failures, List.length_map]
  induction b.sends with
  | nil => rfl
  | cons s rest ih =>
    by_cases delivered : s.state = .delivered
    · simp [delivered]
      omega
    · simp [delivered]
      omega

end Broadcast
end Rollcall.Connection
