/-!
Bounded channels.

The outbound queue of a connection: first in, first out, with a fixed number of places. A sender
that finds no place stands in line under a ticket. A place that becomes free is granted to the
ticket that has waited longest, so no later sender can take it. Once the receiver has hung up every
send fails.

A channel also keeps all that ever entered it, so that what waits in it is what entered less what
was taken.
-/

namespace Rollcall.Connection

structure Channel (α : Type) where
  capacity : Nat
  /-- All that entered, in order. -/
  entered : List α
  /-- How much of it the receiver took. -/
  taken : Nat
  /-- Tickets that hold a free place. -/
  granted : List Nat
  /-- Tickets in line, the oldest first. -/
  waiting : List Nat
  nextTicket : Nat
  /-- Whether the receiver is there. -/
  receiving : Bool
deriving Repr

inductive Sending where
  | sent
  /-- No place is free; the sender may stand in line. -/
  | full
  | closed
deriving DecidableEq, Repr, Inhabited

namespace Channel

variable {α : Type}

def create (capacity : Nat) : Channel α := ⟨max capacity 1, [], 0, [], [], 0, true⟩

def queue (c : Channel α) : List α := c.entered.drop c.taken

/-- Places neither taken nor granted. -/
def free (c : Channel α) : Nat := c.capacity - ((c.entered.length - c.taken) + c.granted.length)

def trySend (c : Channel α) (a : α) : Sending × Channel α :=
  if !c.receiving then (.closed, c)
  else if 0 < c.free then (.sent, { c with entered := c.entered ++ [a] })
  else (.full, c)

/-- Stand in line: the ticket, and the channel after it. -/
def enqueue (c : Channel α) : Nat × Channel α :=
  (c.nextTicket, { c with waiting := c.waiting ++ [c.nextTicket], nextTicket := c.nextTicket + 1 })

/-- Send with a ticket from the line, which is given up on success. -/
def redeem (c : Channel α) (ticket : Nat) (a : α) : Sending × Channel α :=
  if !c.receiving then
    (.closed, c)
  else if c.granted.contains ticket then
    (.sent, { c with granted := c.granted.erase ticket, entered := c.entered ++ [a] })
  else
    (.full, c)

/-- Grant free places to those in line. -/
def grant (c : Channel α) : Channel α :=
  { c with
    granted := c.granted ++ c.waiting.take c.free
    waiting := c.waiting.drop c.free }

/-- Leave the line; a place that was granted goes to the next. -/
def leaveLine (c : Channel α) (ticket : Nat) : Channel α :=
  grant { c with granted := c.granted.erase ticket, waiting := c.waiting.erase ticket }

def receive (c : Channel α) : Option (α × Channel α) :=
  match c.queue with
  | [] => none
  | a :: _ => some (a, grant { c with taken := c.taken + 1 })

def hangUp (c : Channel α) : Channel α :=
  { c with receiving := false, taken := c.entered.length }

/-- Only a send that succeeds lets anything in, and what it lets in comes last. -/
theorem entered_trySend (c : Channel α) (a : α) :
    (c.trySend a).2.entered = c.entered ++ if (c.trySend a).1 = .sent then [a] else [] := by
  unfold trySend
  split
  · simp
  · split <;> simp

theorem entered_redeem (c : Channel α) (ticket : Nat) (a : α) :
    (c.redeem ticket a).2.entered =
      c.entered ++ if (c.redeem ticket a).1 = .sent then [a] else [] := by
  unfold redeem
  split
  · simp
  · split <;> simp

/-- The receiver takes the first item of the queue and leaves the rest. -/
theorem queue_receive (c : Channel α) :
    c.receive.map (fun r => r.1 :: r.2.queue) = if c.queue = [] then none else some c.queue := by
  unfold receive
  cases h : c.queue with
  | nil => rfl
  | cons a rest =>
    have tail : c.entered.drop (c.taken + 1) = rest := by
      have := congrArg List.tail h
      simpa [queue, List.tail_drop] using this
    simp [queue, grant, tail]

end Channel
end Rollcall.Connection
