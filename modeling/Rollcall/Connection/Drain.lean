/-!
The drain.

A shutdown waits for the connections it told to close until each has been released or time is up. It
looks at fixed intervals, the first time at once. The limit may be measured by a clock that runs
`pace` times slower than the one the intervals are measured by.

Moments and limits are natural numbers, so the moment at which time is up always exists. A clock of
64 bits has it only if it comes before `2 ^ 63` seconds: with a limit beyond that a shutdown fails
right after the connections were told to close, and nothing is said about it here.
-/

namespace Rollcall.Connection

structure Drain where
  /-- How many connections were told to close. -/
  signalled : Nat
  /-- Those not yet seen released. -/
  pending : List Nat
  startedAt : Nat
  limit : Nat
  pace : Nat
  /-- The moment of the next look. -/
  nextLook : Nat
deriving DecidableEq, Repr

structure DrainResult where
  signalled : Nat
  remaining : Nat
  success : Bool
deriving DecidableEq, Repr, Inhabited

namespace Drain

/-- Milliseconds between two looks. -/
def interval : Nat := 50

/-- The drain that begins now, with a limit at which the clock can still tell the time. -/
def start (now limit pace : Nat) (signalled : List Nat) : Drain :=
  ⟨signalled.length, signalled, now, limit, pace, now⟩

def isTimeUp (d : Drain) (now : Nat) : Bool := d.limit * d.pace ≤ now - d.startedAt

/-- Drop what has been released; the result, if the drain is over. -/
def look (d : Drain) (now : Nat) (isHeld : Nat → Bool) : Option DrainResult × Drain :=
  let pending := d.pending.filter isHeld
  let ended := pending.isEmpty || d.isTimeUp now
  (if ended then some ⟨d.signalled, pending.length, pending.isEmpty⟩ else none,
    { d with pending, nextLook := now + interval })

end Drain
end Rollcall.Connection
