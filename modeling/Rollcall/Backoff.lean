import Rollcall.Span

/-!
Exponential backoff.

Delays between attempts: each base is the one before times a factor, never above the longest delay,
and a random part of it is added or taken away. The random draw is an argument.
-/

namespace Rollcall

namespace Backoff

structure Policy where
  initial : Span
  longest : Span
  multiplier : Binary64
  /-- The part of a base that chance may add or take away, read as a number in `[0, 1]`. -/
  jitter : Binary64
deriving Repr

/-- 200 ms, doubled up to 10 s, a tenth of it left to chance. -/
def Policy.default : Policy :=
  ⟨Span.ofMillis 200, Span.ofSeconds 10, 2, Binary64.ofDecimal false 1 (-1)⟩

end Backoff

structure Backoff where
  policy : Backoff.Policy
  /-- The next base in milliseconds, before the cap. -/
  next : Binary64
  attempt : Nat
deriving Repr

namespace Backoff

def Policy.initialMillis (p : Policy) : Binary64 := Binary64.ofNat p.initial.millis

def Policy.longestMillis (p : Policy) : Binary64 := Binary64.ofNat p.longest.millis

def create (policy : Policy) : Backoff := ⟨policy, policy.initialMillis, 0⟩

def reset (b : Backoff) : Backoff := create b.policy

/-- The base of the next delay in milliseconds. -/
def base (b : Backoff) : Binary64 := b.next.min b.policy.longestMillis

/-- How far chance may move the next delay. -/
def spread (b : Backoff) : Binary64 :=
  b.base * b.policy.jitter.clamp (Binary64.zero false) 1

def isJittered (b : Backoff) : Bool := (Binary64.zero false).blt b.spread

/-- A delay of at least one millisecond, cut to whole milliseconds. -/
def delayOf (millis : Binary64) : Span := Span.ofMillis (millis.max 1).toUnsigned

def advance (b : Backoff) : Backoff :=
  { b with
    next := (b.base * b.policy.multiplier).min b.policy.longestMillis
    attempt := b.attempt + 1 }

/-- The delay before the next attempt, given a draw from `[-spread, spread)`, and the backoff after
it. -/
def step (b : Backoff) (draw : Binary64) : Span × Backoff :=
  (delayOf (if b.isJittered then b.base + draw else b.base), b.advance)

end Backoff
end Rollcall
