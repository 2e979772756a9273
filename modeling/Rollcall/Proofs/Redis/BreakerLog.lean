import Rollcall.Proofs.Redis.Circuit

/-!
A circuit breaker over a whole history of calls.

The log of a breaker keeps every call with its moment and with the circuit before and after it. What
the breaker knows can be read off the log: the failures since it last closed or last had a success,
the successes since it last became half open, and the last moment that keeps it open, which a
failure while it is open puts off (`Log.accounts_for_calls`). All that a call can do is said once
(`Breaker.Served`), and the invariant of the log is proved by cases on it.
-/

namespace Rollcall

/-- How long ago something was, where it is past. -/
theorem Span.le_sub_iff {length earlier now : Span} (hpast : earlier ≤ now) :
    length ≤ now - earlier ↔ earlier + length ≤ now := by
  have hnanos : earlier.nanos ≤ now.nanos := hpast
  change length.nanos ≤ now.nanos - earlier.nanos ↔ earlier.nanos + length.nanos ≤ now.nanos
  omega

inductive Circuit.Moves : Circuit → Circuit → Prop where
  | trips : Moves .closed .opened
  | rests : Moves .opened .halfOpen
  | recovers : Moves .halfOpen .closed
  | relapses : Moves .halfOpen .opened

namespace Breaker

inductive Call where
  | failure
  | success
  | allow
  | state
  | stats
deriving DecidableEq, Repr

/-- The breaker after a call. Whoever asks looks at it. -/
def serve (b : Breaker) (now : Span) : Call → Breaker
  | .failure => b.recordFailure now
  | .success => b.recordSuccess now
  | .allow => (b.allow now).2
  | .state => (b.look now).2
  | .stats => (b.look now).2

def Call.looks : Call → Bool
  | .failure => false
  | .success => false
  | _ => true

/-- All that a call can do. -/
inductive Served (b : Breaker) (now : Span) : Call → Breaker → Prop where
  | notes (call : Call) (hcall : call.looks = true)
      (hstays : b.circuit = .opened → ¬ b.policy.resetTimeout ≤ now - b.changedAt) :
      Served b now call b
  | rests (call : Call) (hcall : call.looks = true) (hcircuit : b.circuit = .opened)
      (hrested : b.policy.resetTimeout ≤ now - b.changedAt) :
      Served b now call { b with circuit := .halfOpen, changedAt := now, successes := 0 }
  | forgets (hcircuit : b.circuit = .closed) : Served b now .success { b with failures := 0 }
  | probes (hcircuit : b.circuit = .halfOpen)
      (hmore : b.successes + 1 < b.policy.successThreshold) :
      Served b now .success { b with successes := b.successes + 1 }
  | recovers (hcircuit : b.circuit = .halfOpen)
      (hlast : b.policy.successThreshold ≤ b.successes + 1) :
      Served b now .success
        { b with circuit := .closed, changedAt := now, successes := 0, failures := 0 }
  | ignores (hcircuit : b.circuit = .opened) : Served b now .success b
  | counts (hcircuit : b.circuit = .closed) (hmore : b.failures + 1 < b.policy.failureThreshold) :
      Served b now .failure { b with failures := b.failures + 1 }
  | trips (hcircuit : b.circuit = .closed) (hlast : b.policy.failureThreshold ≤ b.failures + 1) :
      Served b now .failure
        { b with circuit := .opened, changedAt := now, successes := 0, failures := b.failures + 1 }
  | relapses (hcircuit : b.circuit = .halfOpen) :
      Served b now .failure { b with circuit := .opened, changedAt := now, successes := 0 }
  | postpones (hcircuit : b.circuit = .opened) : Served b now .failure { b with changedAt := now }

theorem served_refresh (b : Breaker) (now : Span) (call : Call) (hcall : call.looks = true) :
    Served b now call (b.refresh now) := by
  by_cases hrested : b.circuit = .opened ∧ b.policy.resetTimeout ≤ now - b.changedAt
  case pos =>
    have hhalf : b.refresh now =
        { b with circuit := .halfOpen, changedAt := now, successes := 0 } := by
      simp [refresh, hrested, enter]
    rw [hhalf]
    exact .rests call hcall hrested.1 hrested.2
  case neg =>
    have hsame : b.refresh now = b := if_neg hrested
    rw [hsame]
    apply Served.notes call hcall
    intro hopened helapsed
    exact hrested ⟨hopened, helapsed⟩

/-- A call does one of the things that `Served` lists, by the circuit that it finds. -/
theorem serve_served (b : Breaker) (now : Span) (call : Call) :
    Served b now call (b.serve now call) := by
  cases call with
  | allow => exact b.served_refresh now .allow rfl
  | state => exact b.served_refresh now .state rfl
  | stats => exact b.served_refresh now .stats rfl
  | success =>
      simp only [serve]
      cases hcircuit : b.circuit with
      | closed =>
          rw [recordSuccess_closed _ _ hcircuit]
          exact .forgets hcircuit
      | opened =>
          rw [recordSuccess_opened _ _ hcircuit]
          exact .ignores hcircuit
      | halfOpen =>
          rw [recordSuccess_halfOpen _ _ hcircuit]
          split
          case isTrue hlast => exact .recovers hcircuit hlast
          case isFalse hmore => exact .probes hcircuit (Nat.lt_of_not_le hmore)
  | failure =>
      simp only [serve]
      cases hcircuit : b.circuit with
      | closed =>
          rw [recordFailure_closed _ _ hcircuit]
          split
          case isTrue hlast => exact .trips hcircuit hlast
          case isFalse hmore => exact .counts hcircuit (Nat.lt_of_not_le hmore)
      | opened =>
          rw [recordFailure_opened _ _ hcircuit]
          exact .postpones hcircuit
      | halfOpen =>
          rw [recordFailure_halfOpen _ _ hcircuit]
          exact .relapses hcircuit

/-- A call that was made, with the circuit before and after it. -/
structure Entry where
  call : Call
  moment : Span
  found : Circuit
  left : Circuit
deriving DecidableEq, Repr

def entry (b : Breaker) (now : Span) (call : Call) (after : Breaker) : Entry :=
  ⟨call, now, b.circuit, after.circuit⟩

namespace Entry

/-- A success, or a closing: failures are counted anew from here. -/
def clears (e : Entry) : Bool := e.call == .success || (e.found != .closed && e.left == .closed)

/-- The circuit becomes half open: successes are counted anew from here. -/
def rests (e : Entry) : Bool := e.found != .halfOpen && e.left == .halfOpen

/-- The circuit opens, or a failure is recorded while it is open. -/
def holdsOpen (e : Entry) : Bool :=
  (e.found != .opened && e.left == .opened) || (e.found == .opened && e.call == .failure)

end Entry

section Served

variable {b after : Breaker} {now : Span} {call : Call} (hserved : Served b now call after)

include hserved

theorem Served.policy : after.policy = b.policy := by
  cases hserved <;> rfl

/-- A call leaves the circuit as it is or moves it along one of the ways. -/
theorem Served.moves : b.circuit = after.circuit ∨ Circuit.Moves b.circuit after.circuit := by
  cases hserved with
  | rests call hcall hcircuit => exact .inr (hcircuit ▸ .rests)
  | recovers hcircuit => exact .inr (hcircuit ▸ .recovers)
  | trips hcircuit => exact .inr (hcircuit ▸ .trips)
  | relapses hcircuit => exact .inr (hcircuit ▸ .relapses)
  | _ => exact .inl rfl

/-- Where the circuit is closed afterwards, failures are counted anew or go on being counted. -/
theorem Served.failures (hclosed : after.circuit = .closed) :
    ((b.entry now call after).clears = true ∧ after.failures = 0) ∨
      ((b.entry now call after).clears = false ∧ b.circuit = .closed ∧
        after.failures = b.failures + if call = .failure then 1 else 0) := by
  cases hserved with
  | notes call hcall =>
      refine .inr ⟨?_, hclosed, ?_⟩
      · cases call <;> simp_all [entry, Entry.clears, Call.looks]
      · cases call <;> simp_all [Call.looks]
  | forgets => exact .inl ⟨rfl, rfl⟩
  | recovers => exact .inl ⟨rfl, rfl⟩
  | ignores hcircuit => simp [hcircuit] at hclosed
  | probes hcircuit => simp [hcircuit] at hclosed
  | postpones hcircuit => simp [hcircuit] at hclosed
  | counts hcircuit => exact .inr ⟨by simp [entry, Entry.clears, hcircuit], hcircuit, rfl⟩
  | rests => cases hclosed
  | trips => cases hclosed
  | relapses => cases hclosed

/-- Where the circuit is half open afterwards, successes are counted anew or go on being counted. -/
theorem Served.successes (hhalf : after.circuit = .halfOpen) :
    ((b.entry now call after).rests = true ∧ after.successes = 0) ∨
      ((b.entry now call after).rests = false ∧ b.circuit = .halfOpen ∧
        after.successes = b.successes + (if call = .success then 1 else 0) ∧
        (call = .success → after.successes < b.policy.successThreshold)) := by
  cases hserved with
  | notes call hcall =>
      refine .inr ⟨by simp [entry, Entry.rests, hhalf], hhalf, ?_, ?_⟩
      · cases call <;> simp_all [Call.looks]
      · cases call <;> simp_all [Call.looks]
  | rests call hcall hcircuit => exact .inl ⟨by simp [entry, Entry.rests, hcircuit], rfl⟩
  | probes hcircuit hmore =>
      exact .inr ⟨by simp [entry, Entry.rests, hcircuit], hcircuit, rfl, fun _ => hmore⟩
  | forgets hcircuit => simp [hcircuit] at hhalf
  | ignores hcircuit => simp [hcircuit] at hhalf
  | counts hcircuit => simp [hcircuit] at hhalf
  | postpones hcircuit => simp [hcircuit] at hhalf
  | recovers => cases hhalf
  | trips => cases hhalf
  | relapses => cases hhalf

/-- Where the circuit is open afterwards, the call holds it open from now or leaves it as it was. -/
theorem Served.changedAt (hopened : after.circuit = .opened) :
    ((b.entry now call after).holdsOpen = true ∧ after.changedAt = now) ∨
      ((b.entry now call after).holdsOpen = false ∧ b.circuit = .opened ∧
        after.changedAt = b.changedAt) := by
  cases hserved with
  | notes call hcall =>
      refine .inr ⟨?_, hopened, rfl⟩
      cases call <;> simp_all [entry, Entry.holdsOpen, Call.looks]
  | ignores hcircuit => exact .inr ⟨by simp [entry, Entry.holdsOpen, hcircuit], hcircuit, rfl⟩
  | trips hcircuit => exact .inl ⟨by simp [entry, Entry.holdsOpen, hcircuit], rfl⟩
  | relapses hcircuit => exact .inl ⟨by simp [entry, Entry.holdsOpen, hcircuit], rfl⟩
  | postpones hcircuit => exact .inl ⟨by simp [entry, Entry.holdsOpen, hcircuit], rfl⟩
  | forgets hcircuit => simp [hcircuit] at hopened
  | counts hcircuit => simp [hcircuit] at hopened
  | probes hcircuit => simp [hcircuit] at hopened
  | recovers => cases hopened
  | rests => cases hopened

/-- Where the circuit is not open afterwards, the call does not hold it open, and if it was open it
has rested. -/
theorem Served.rested (hnot : after.circuit ≠ .opened) :
    (b.entry now call after).holdsOpen = false ∧
      (b.circuit = .opened → b.policy.resetTimeout ≤ now - b.changedAt) := by
  cases hserved with
  | notes call hcall =>
      exact ⟨by simp [entry, Entry.holdsOpen, hnot], fun hopened => absurd hopened hnot⟩
  | rests call hcall hcircuit hrested =>
      refine ⟨?_, fun _ => hrested⟩
      cases call <;> simp_all [entry, Entry.holdsOpen, Call.looks]
  | ignores hcircuit => exact absurd hcircuit hnot
  | postpones hcircuit => exact absurd hcircuit hnot
  | trips => exact absurd rfl hnot
  | relapses => exact absurd rfl hnot
  | forgets hcircuit => simp [entry, Entry.holdsOpen, hcircuit]
  | counts hcircuit => simp [entry, Entry.holdsOpen, hcircuit]
  | probes hcircuit => simp [entry, Entry.holdsOpen, hcircuit]
  | recovers hcircuit => simp [entry, Entry.holdsOpen, hcircuit]

end Served

theorem Sound.serve {b : Breaker} (hsound : b.Sound) (now : Span) (call : Call) :
    (b.serve now call).Sound := by
  cases call with
  | failure => exact hsound.recordFailure now
  | success => exact hsound.recordSuccess now
  | allow => exact hsound.refresh now
  | state => exact hsound.refresh now
  | stats => exact hsound.refresh now

/-- A call is refused exactly while the circuit is open and has not rested long enough. -/
theorem allow_eq_false_iff (b : Breaker) (now : Span) :
    (b.allow now).1 = false ↔
      b.circuit = .opened ∧ ¬ b.policy.resetTimeout ≤ now - b.changedAt := by
  have hallow : (b.allow now).1 = false ↔ (b.refresh now).circuit = .opened := by
    simp [allow]
  rw [hallow]
  have hserved := b.served_refresh now .allow rfl
  generalize b.refresh now = after at hserved
  cases hserved with
  | notes _ hcall hstays => exact ⟨fun hopened => ⟨hopened, hstays hopened⟩, And.left⟩
  | rests _ hcall hcircuit hrested => simp [hrested]

/-- A breaker with the clock and with all calls so far, the latest first. -/
structure Log where
  breaker : Breaker
  now : Span
  entries : List Entry
deriving Repr

namespace Log

def create (policy : Policy) (start : Span) : Log := ⟨.create policy start, start, []⟩

/-- The log once a call has made the breaker what it is `after`. -/
def note (l : Log) (now : Span) (call : Call) (after : Breaker) : Log :=
  ⟨after, now, l.breaker.entry now call after :: l.entries⟩

/-- A call that is made once `wait` has gone by. -/
def serve (l : Log) (wait : Span) (call : Call) : Log :=
  l.note (l.now + wait) call (l.breaker.serve (l.now + wait) call)

def serveAll (l : Log) (calls : List (Span × Call)) : Log :=
  calls.foldl (fun l call => l.serve call.1 call.2) l

/-- How many failures were recorded since the latest of start, success and closing. -/
def failuresSince (entries : List Entry) : Nat :=
  (entries.takeWhile fun e => !e.clears).countP fun e => e.call == .failure

/-- How many successes were recorded since the circuit last became half open. -/
def successesSince (entries : List Entry) : Nat :=
  (entries.takeWhile fun e => !e.rests).countP fun e => e.call == .success

/-- The latest moment at which the circuit opened or a failure was recorded while it was open. -/
def heldOpenAt? (entries : List Entry) : Option Span :=
  (entries.find? Entry.holdsOpen).map Entry.moment

/-- What the calls so far tell of a breaker. -/
structure Accounted (policy : Policy) (l : Log) : Prop where
  closed : l.breaker.circuit = .closed → l.breaker.failures = failuresSince l.entries ∧
    l.breaker.failures < max 1 policy.failureThreshold
  halfOpen : l.breaker.circuit = .halfOpen → l.breaker.successes = successesSince l.entries ∧
    l.breaker.successes < max 1 policy.successThreshold
  /-- A counter is counted up in these two circuits only, and then it fits into 32 bits. -/
  fits : policy.failureThreshold < Nat.pow 2 32 → policy.successThreshold < Nat.pow 2 32 →
    (l.breaker.circuit = .closed → l.breaker.failures + 1 < Nat.pow 2 32) ∧
      (l.breaker.circuit = .halfOpen → l.breaker.successes + 1 < Nat.pow 2 32)
  refuses : ∀ wait, (l.breaker.allow (l.now + wait)).1 = false ↔
    ∃ moment, heldOpenAt? l.entries = some moment ∧ l.now + wait < moment + policy.resetTimeout
  moves : ∀ e ∈ l.entries, e.found = e.left ∨ Circuit.Moves e.found e.left

/-- What a log has after every call. -/
structure Exact (policy : Policy) (l : Log) : Prop where
  configured : l.breaker.policy = policy
  sound : l.breaker.Sound
  closed : l.breaker.circuit = .closed → l.breaker.failures = failuresSince l.entries
  halfOpen : l.breaker.circuit = .halfOpen → l.breaker.successes = successesSince l.entries ∧
    l.breaker.successes < max 1 policy.successThreshold
  opened : l.breaker.circuit = .opened →
    heldOpenAt? l.entries = some l.breaker.changedAt ∧ l.breaker.changedAt ≤ l.now
  /-- What held the circuit open has worn off by the time it is open no more. -/
  rested : l.breaker.circuit ≠ .opened → ∀ moment, heldOpenAt? l.entries = some moment →
    moment + policy.resetTimeout ≤ l.now
  moves : ∀ e ∈ l.entries, e.found = e.left ∨ Circuit.Moves e.found e.left

section Steps

variable {policy : Policy} {l : Log}

theorem failuresSince_cons (e : Entry) (entries : List Entry) :
    failuresSince (e :: entries) =
      if e.clears then 0 else failuresSince entries + if e.call = .failure then 1 else 0 := by
  unfold failuresSince
  rw [List.takeWhile_cons]
  cases e.clears with
  | true => simp
  | false => simp [List.countP_cons]

theorem successesSince_cons (e : Entry) (entries : List Entry) :
    successesSince (e :: entries) =
      if e.rests then 0 else successesSince entries + if e.call = .success then 1 else 0 := by
  unfold successesSince
  rw [List.takeWhile_cons]
  cases e.rests with
  | true => simp
  | false => simp [List.countP_cons]

theorem heldOpenAt?_cons (e : Entry) (entries : List Entry) :
    heldOpenAt? (e :: entries) = if e.holdsOpen then some e.moment else heldOpenAt? entries := by
  unfold heldOpenAt?
  rw [List.find?_cons]
  cases e.holdsOpen <;> simp

/-- A new breaker has an empty log. -/
theorem exact_create (policy : Policy) (start : Span) : (create policy start).Exact policy where
  configured := rfl
  sound := .create policy start
  closed _ := rfl
  halfOpen hcircuit := by cases hcircuit
  opened hcircuit := by cases hcircuit
  rested _ moment hmoment := by cases hmoment
  moves e he := by cases he

/-- One call more: the counters and the moment follow the log by the cases of `Served`. -/
theorem Exact.note {now : Span} {call : Call} {after : Breaker} (hexact : l.Exact policy)
    (hlater : l.now ≤ now) (hserved : Served l.breaker now call after) (hsound : after.Sound) :
    (l.note now call after).Exact policy := by
  constructor
  case configured => exact hserved.policy.trans hexact.configured
  case sound => exact hsound
  case closed =>
    intro hclosed
    rw [Log.note, failuresSince_cons]
    rcases hserved.failures hclosed with ⟨hclears, hnone⟩ | ⟨hcounts, hbefore, hcount⟩
    · rw [if_pos hclears]
      exact hnone
    · rw [if_neg (by simp [hcounts]), ← hexact.closed hbefore]
      exact hcount
  case halfOpen =>
    intro hhalf
    rw [Log.note, successesSince_cons]
    rcases hserved.successes hhalf with ⟨hrests, hnone⟩ | ⟨hcounts, hbefore, hcount, hmore⟩
    · rw [if_pos hrests]
      exact ⟨hnone, hnone ▸ Nat.le_max_left 1 _⟩
    · obtain ⟨hsame, hbelow⟩ := hexact.halfOpen hbefore
      rw [if_neg (by simp [hcounts]), ← hsame]
      refine ⟨hcount, ?_⟩
      by_cases hcall : call = .success
      · exact Nat.lt_of_lt_of_le (hexact.configured ▸ hmore hcall) (Nat.le_max_right 1 _)
      · rw [if_neg hcall] at hcount
        exact hcount ▸ hbelow
  case opened =>
    intro hopened
    rw [Log.note, heldOpenAt?_cons]
    rcases hserved.changedAt hopened with ⟨hholds, hnow⟩ | ⟨hkeeps, hbefore, hsame⟩
    · rw [if_pos hholds, hnow]
      exact ⟨rfl, Nat.le_refl _⟩
    · obtain ⟨hheld, hpast⟩ := hexact.opened hbefore
      rw [if_neg (by simp [hkeeps]), hsame]
      exact ⟨hheld, Nat.le_trans hpast hlater⟩
  case rested =>
    intro hnot moment hmoment
    obtain ⟨hkeeps, hrests⟩ := hserved.rested hnot
    rw [Log.note, heldOpenAt?_cons, if_neg (by simp [hkeeps])] at hmoment
    by_cases hbefore : l.breaker.circuit = .opened
    case pos =>
      obtain ⟨hheld, hpast⟩ := hexact.opened hbefore
      obtain rfl : l.breaker.changedAt = moment := Option.some.inj (hheld.symm.trans hmoment)
      have helapsed := hrests hbefore
      rw [hexact.configured] at helapsed
      exact (Span.le_sub_iff (Nat.le_trans hpast hlater)).mp helapsed
    case neg => exact Nat.le_trans (hexact.rested hbefore moment hmoment) hlater
  case moves =>
    intro e he
    rcases List.mem_cons.mp he with rfl | hearlier
    · exact hserved.moves
    · exact hexact.moves e hearlier

/-- Every call keeps the log exact. -/
theorem Exact.serve (hexact : l.Exact policy) (wait : Span) (call : Call) :
    (l.serve wait call).Exact policy :=
  hexact.note (Nat.le_add_right _ _) (l.breaker.serve_served (l.now + wait) call)
    (hexact.sound.serve (l.now + wait) call)

theorem Exact.serveAll (hexact : l.Exact policy) (calls : List (Span × Call)) :
    (l.serveAll calls).Exact policy := by
  induction calls generalizing l with
  | nil => exact hexact
  | cons call rest ih => exact ih (hexact.serve call.1 call.2)

/-- A breaker refuses as long as what held it open has not worn off. -/
theorem Exact.refuses (hexact : l.Exact policy) (wait : Span) :
    (l.breaker.allow (l.now + wait)).1 = false ↔
      ∃ moment, heldOpenAt? l.entries = some moment ∧
        l.now + wait < moment + policy.resetTimeout := by
  have hlater : l.now ≤ l.now + wait := Nat.le_add_right _ _
  rw [allow_eq_false_iff, hexact.configured]
  constructor
  case mp =>
    rintro ⟨hopened, hresting⟩
    obtain ⟨hheld, hpast⟩ := hexact.opened hopened
    refine ⟨l.breaker.changedAt, hheld, ?_⟩
    exact Nat.lt_of_not_le fun helapsed =>
      hresting ((Span.le_sub_iff (Nat.le_trans hpast hlater)).mpr helapsed)
  case mpr =>
    rintro ⟨moment, hmoment, hheld⟩
    by_cases hopened : l.breaker.circuit = .opened
    case pos =>
      obtain ⟨hsame, hpast⟩ := hexact.opened hopened
      obtain rfl : l.breaker.changedAt = moment := Option.some.inj (hsame.symm.trans hmoment)
      refine ⟨hopened, fun helapsed => ?_⟩
      exact Nat.not_le_of_lt hheld ((Span.le_sub_iff (Nat.le_trans hpast hlater)).mp helapsed)
    case neg =>
      have hrested := hexact.rested hopened moment hmoment
      exact absurd (Nat.le_trans hrested hlater) (Nat.not_le_of_lt hheld)

/-- For every configuration, thresholds of zero included, and every sequence of calls at whatever
moments: the counters and the refusals of a breaker are what its log tells of them. -/
theorem accounts_for_calls (policy : Policy) (start : Span) (calls : List (Span × Call)) :
    ((create policy start).serveAll calls).Accounted policy := by
  have hexact := (exact_create policy start).serveAll calls
  have hbelow (hclosed : ((create policy start).serveAll calls).breaker.circuit = .closed) :
      ((create policy start).serveAll calls).breaker.failures < max 1 policy.failureThreshold := by
    have hsound := hexact.sound.closed hclosed
    rwa [hexact.configured] at hsound
  have hpositive : 1 < Nat.pow 2 32 := by decide
  constructor
  case closed =>
    intro hclosed
    exact ⟨hexact.closed hclosed, hbelow hclosed⟩
  case halfOpen => exact hexact.halfOpen
  case fits =>
    intro hfailures hsuccesses
    constructor
    · intro hclosed
      have hroom := hbelow hclosed
      omega
    · intro hhalf
      have hroom := (hexact.halfOpen hhalf).2
      omega
  case refuses => exact hexact.refuses
  case moves => exact hexact.moves

end Steps

/-- A failure while nobody looks starts the rest anew, even where it was over. -/
example : ((serveAll (create ⟨1, 1, .ofMillis 10⟩ .zero)
    [(.zero, .failure), (.ofMillis 15, .failure)]).breaker.allow (.ofMillis 20)).1 = false := by
  decide

end Log
end Breaker
end Rollcall
