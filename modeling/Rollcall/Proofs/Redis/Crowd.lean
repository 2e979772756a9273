import Mathlib.Data.List.Induction
import Rollcall.Proofs.Redis.Circuit

/-!
Calls at once.

Any number of calls share a pool. Each takes one step at a time or is given up where it waits, time
goes by, and somebody may look at the circuit; a run is any list of such events (`Crowd.play`), so
what holds of every run holds of every interleaving. `Call.Move` says once what a step of a call can
be.

Only a call that has just started asks the breaker. One that is already waiting for the connection
when the circuit opens goes on, and tries to make the connection if there is none. So calls fail
fast exactly where nobody waits when the circuit opens (`Crowd.failsFast_iff`).
-/

namespace Rollcall.Redis

namespace Call

variable {α : Type}

/-- Whether a call was let through and has no connection yet, nor the task to make one. -/
def isWaiting : Call α → Bool
  | .looking => true
  | .claiming => true
  | _ => false

def isDialing : Call α → Bool
  | .dialing => true
  | _ => false

/-- The pool after a call was given up: the connection that it was making is nobody's task any
more. -/
def giveUp (call : Call α) (p : Pool) : Pool :=
  if call.isDialing then { p with dialing := false } else p

@[simp] theorem health_giveUp (call : Call α) (p : Pool) : (call.giveUp p).health = p.health := by
  unfold giveUp
  split <;> rfl

@[simp] theorem cached_giveUp (call : Call α) (p : Pool) : (call.giveUp p).cached = p.cached := by
  unfold giveUp
  split <;> rfl

@[simp] theorem dialing_giveUp (call : Call α) (p : Pool) :
    (call.giveUp p).dialing = (p.dialing && !call.isDialing) := by
  unfold giveUp
  split
  case isTrue hdials => simp [hdials]
  case isFalse hnot => simp [hnot]

/-- What a step of a call can be, with what it makes of the pool. -/
inductive Move (now : Span) (p : Pool) : Call α → Signal α → Call α → Pool → Prop where
  | grant (p' : Pool) (hgrant : p.grant now = (true, p')) : Move now p .fresh .nothing .looking p'
  | refuse (p' : Pool) (hgrant : p.grant now = (false, p')) :
      Move now p .fresh .nothing (.ended (.error .circuitOpen)) p'
  | find (call : Call α) (conn : Nat) (hwaits : call.isWaiting = true) (hfree : p.dialing = false)
      (hcached : p.cached = some conn) : Move now p call .nothing (.talking conn) p
  | miss (hfree : p.dialing = false) (hcached : p.cached = none) :
      Move now p .looking .nothing .claiming p
  | dial (hfree : p.dialing = false) (hcached : p.cached = none) :
      Move now p .claiming .nothing .dialing p.beginDial
  | connect : Move now p .dialing (.dialed (.ok ())) (.talking p.made) (p.endDial now)
  | fail (cause : Failure) : Move now p .dialing (.dialed (.error cause))
      (.ended (.error (.failed cause))) (p.failDial now)
  | answer (conn : Nat) (value : α) : Move now p (.talking conn) (.answered (.ok value))
      (.ended (.ok value)) (p.recordSuccess now)
  | lose (conn : Nat) (cause : Failure) (hends : cause.endsConnection = true) :
      Move now p (.talking conn) (.answered (.error cause)) (.discarding cause) p
  | report (conn : Nat) (cause : Failure) (hkeeps : cause.endsConnection = false) :
      Move now p (.talking conn) (.answered (.error cause)) (.ended (.error (.failed cause)))
        (p.recordFailure now)
  | discard (cause : Failure) (hfree : p.dialing = false) :
      Move now p (.discarding cause) .nothing (.ended (.error (.failed cause)))
        (p.discard.recordFailure now)

variable {now : Span} {p p' : Pool} {call call' : Call α} {signal : Signal α}

/-- Every step of a call is one of its moves. -/
theorem step_move (hstep : call.step now signal p = some (call', p')) :
    Move now p call signal call' p' := by
  unfold step at hstep
  split at hstep
  case h_1 =>
    split at hstep
    all_goals
      cases hstep
    · exact .grant _ ‹_›
    · exact .refuse _ ‹_›
  case h_2 =>
    split at hstep
    · cases hstep
    case isFalse hdialing =>
      split at hstep
      all_goals
        cases hstep
      · exact .find _ _ rfl (by simpa using hdialing) ‹_›
      · exact .miss (by simpa using hdialing) ‹_›
  case h_3 =>
    split at hstep
    · cases hstep
    case isFalse hdialing =>
      split at hstep
      all_goals
        cases hstep
      · exact .find _ _ rfl (by simpa using hdialing) ‹_›
      · exact .dial (by simpa using hdialing) ‹_›
  case h_4 =>
    cases hstep
    exact .connect
  case h_5 cause =>
    cases hstep
    exact .fail cause
  case h_6 conn value =>
    cases hstep
    exact .answer conn value
  case h_7 conn cause =>
    split at hstep
    case isTrue hends =>
      cases hstep
      exact .lose conn cause hends
    case isFalse hkeeps =>
      cases hstep
      exact .report conn cause (by simpa using hkeeps)
  case h_8 cause =>
    split at hstep
    · cases hstep
    case isFalse hdialing =>
      cases hstep
      exact .discard cause (by simpa using hdialing)
  case h_9 => cases hstep

def isPast : Call α → Bool
  | .fresh => false
  | .ended (.error .circuitOpen) => false
  | _ => true

/-- Only a call that has just started asks the breaker, and none starts again. -/
theorem Move.past (hmove : Move now p call signal call' p') (hpast : call.isPast = true) :
    call'.isPast = true := by
  cases hmove with
  | grant => cases hpast
  | refuse => cases hpast
  | find => rfl
  | miss => rfl
  | dial => rfl
  | connect => rfl
  | fail => rfl
  | answer => rfl
  | lose => rfl
  | report => rfl
  | discard => rfl

/-- A call that comes to wait has been let through just now, by a circuit that is not open. -/
theorem Move.waits (hmove : Move now p call signal call' p') (hwaits : call'.isWaiting = true) :
    call.isWaiting = true ∨ p'.breaker.circuit ≠ .opened := by
  cases hmove with
  | grant p' hgrant =>
      right
      intro hopened
      cases (Pool.granted_of_grant hgrant).refused.mpr hopened
  | miss => exact .inl rfl
  | refuse => cases hwaits
  | find => cases hwaits
  | dial => cases hwaits
  | connect => cases hwaits
  | fail => cases hwaits
  | answer => cases hwaits
  | lose => cases hwaits
  | report => cases hwaits
  | discard => cases hwaits

/-- Only a call that waits begins to make a connection, and only where there is none. -/
theorem Move.of_dial (hmove : Move now p call signal call' p') (hfree : p.dialing = false)
    (hdials : p'.dialing = true) : call.isWaiting = true ∧ p.cached = none := by
  cases hmove with
  | dial _ hcached => exact ⟨rfl, hcached⟩
  | grant p' hgrant => simp [(Pool.granted_of_grant hgrant).dialing, hfree] at hdials
  | refuse p' hgrant => simp [(Pool.granted_of_grant hgrant).dialing, hfree] at hdials
  | connect => cases hdials
  | fail => cases hdials
  | find => cases hfree.symm.trans hdials
  | miss => cases hfree.symm.trans hdials
  | answer => cases hfree.symm.trans hdials
  | lose => cases hfree.symm.trans hdials
  | report => cases hfree.symm.trans hdials
  | discard => cases hfree.symm.trans hdials

theorem isPast_of_isWaiting (hwaits : call.isWaiting = true) : call.isPast = true := by
  cases call <;> first | rfl | cases hwaits

end Call

/-- A pool with the calls that share it. -/
structure Crowd (α : Type) where
  pool : Pool
  /-- The calls made so far, none where a call was given up. -/
  calls : List (Option (Call α))
  now : Span

namespace Crowd

variable {α : Type}

inductive Event (α : Type) where
  /-- One more call is made. -/
  | call
  /-- A call takes a step, if it can take one with this signal. -/
  | step (k : Nat) (signal : Signal α)
  /-- A call is given up by whoever made it. -/
  | drop (k : Nat)
  | pass (d : Span)
  /-- Somebody looks at the circuit. -/
  | look

def create (policy : Breaker.Policy) (now : Span) : Crowd α := ⟨Pool.create policy now, [], now⟩

/-- The call with this number, unless it was given up. -/
def call? (u : Crowd α) (k : Nat) : Option (Call α) := (u.calls[k]?).join

def after (u : Crowd α) : Event α → Crowd α
  | .call => { u with calls := u.calls ++ [some .fresh] }
  | .step k signal =>
      match (u.call? k).bind fun call => call.step u.now signal u.pool with
      | some (call, pool) => { u with pool, calls := u.calls.set k (some call) }
      | none => u
  | .drop k =>
      match u.call? k with
      | some call => { u with pool := call.giveUp u.pool, calls := u.calls.set k none }
      | none => u
  | .pass d => { u with now := u.now + d }
  | .look => { u with pool := (u.pool.circuit u.now).2 }

def play (u : Crowd α) (events : List (Event α)) : Crowd α := events.foldl after u

def isOpen (u : Crowd α) : Bool := (u.pool.breaker.refresh u.now).circuit = .opened

def opens (u : Crowd α) (e : Event α) : Bool := !u.isOpen && (u.after e).isOpen

/-- Whether a connection begins to be made with the event. -/
def dials (u : Crowd α) (e : Event α) : Bool := !u.pool.dialing && (u.after e).pool.dialing

/-- Whether the call with this number waits for the connection. -/
def waits (u : Crowd α) (k : Nat) : Bool := (u.call? k).any Call.isWaiting

/-- Calls fail fast in a run: nobody begins to make a connection while the circuit is open, and
those who wait when it opens are refused. -/
structure FailsFast (start : Crowd α) (events : List (Event α)) : Prop where
  dials : ∀ before e rest, events = before ++ e :: rest → (start.play before).dials e = true →
    (start.play before).isOpen = false
  refused : ∀ before e rest, events = before ++ e :: rest → (start.play before).opens e = true →
    ∀ k, (start.play before).waits k = true → ∀ outcome,
      (start.play events).call? k = some (.ended outcome) → outcome = .error .circuitOpen

inductive Change (u : Crowd α) : Event α → Crowd α → Prop where
  | call : Change u .call { u with calls := u.calls ++ [some .fresh] }
  | move (k : Nat) (signal : Signal α) (call call' : Call α) (pool : Pool)
      (hcall : u.call? k = some call) (hmove : call.Move u.now u.pool signal call' pool) :
      Change u (.step k signal) { u with pool, calls := u.calls.set k (some call') }
  | drop (k : Nat) (call : Call α) (hcall : u.call? k = some call) :
      Change u (.drop k) { u with pool := call.giveUp u.pool, calls := u.calls.set k none }
  | stay (e : Event α)
      (hstuck : ∀ k signal, e = .step k signal → ∀ call, u.call? k = some call →
        call.step u.now signal u.pool = none) : Change u e u
  | pass (d : Span) : Change u (.pass d) { u with now := u.now + d }
  | look : Change u .look { u with pool := (u.pool.circuit u.now).2 }

/-- Every event is a change. -/
theorem change_after (u : Crowd α) (e : Event α) : Change u e (u.after e) := by
  cases e with
  | call => exact .call
  | pass d => exact .pass d
  | look => exact .look
  | step k signal =>
      simp only [after]
      split
      case h_1 call' pool hstep =>
        obtain ⟨call, hcall, hstep⟩ := Option.bind_eq_some_iff.mp hstep
        exact .move k signal call call' pool hcall (Call.step_move hstep)
      case h_2 hnone =>
        refine .stay _ fun k signal he call hcall => ?_
        cases he
        simpa [hcall] using hnone
  | drop k =>
      simp only [after]
      split
      case h_1 call hcall => exact .drop k call hcall
      case h_2 => exact .stay _ fun k signal he => by cases he

variable {u u' : Crowd α} {e : Event α} {k : Nat}

theorem call?_eq_some {call : Call α} : u.call? k = some call ↔ u.calls[k]? = some (some call) :=
  Option.join_eq_some_iff

/-- A call that takes the place of one with this number, and nothing if that one was given up. -/
theorem call?_set (pool : Pool) {j : Nat} {call : Call α} (hcall : u.call? j = some call)
    (slot : Option (Call α)) :
    call? { u with pool, calls := u.calls.set j slot } k = if j = k then slot else u.call? k := by
  have hlt : j < u.calls.length := (List.getElem?_eq_some_iff.mp (call?_eq_some.mp hcall)).1
  unfold call?
  split
  case isTrue hself =>
    subst hself
    rw [List.getElem?_set_self hlt, Option.join_some]
  case isFalse hother => rw [List.getElem?_set_ne hother]

/-- Of a new call, no other one takes notice. -/
theorem call?_append (slot : Option (Call α)) :
    call? { u with calls := u.calls ++ [slot] } k =
      if k = u.calls.length then slot else u.call? k := by
  unfold call?
  rw [List.getElem?_append]
  grind

theorem waits_iff : u.waits k = true ↔ ∃ call, u.call? k = some call ∧ call.isWaiting = true :=
  Option.any_eq_true _ _

/-- A look opens nothing. -/
theorem opened_of_isOpen (hopen : u.isOpen = true) : u.pool.breaker.circuit = .opened := by
  by_contra hcircuit
  simp [isOpen, Breaker.refresh_of_not_opened hcircuit, hcircuit] at hopen

/-- Nobody comes to wait while the circuit is open. -/
theorem Change.waits (hchange : Change u e u') (hopen : u'.isOpen = true)
    (hwaits : u'.waits k = true) : u.waits k = true := by
  cases hchange with
  | call =>
      obtain ⟨call, hcall, hwaiting⟩ := waits_iff.mp hwaits
      rw [call?_append] at hcall
      split at hcall
      case isTrue =>
        cases hcall
        cases hwaiting
      case isFalse => exact waits_iff.mpr ⟨call, hcall, hwaiting⟩
  | move j signal call call' pool hcall hmove =>
      obtain ⟨found, hfound, hwaiting⟩ := waits_iff.mp hwaits
      rw [call?_set _ hcall] at hfound
      split at hfound
      case isFalse => exact waits_iff.mpr ⟨found, hfound, hwaiting⟩
      case isTrue hself =>
        subst hself
        cases hfound
        refine waits_iff.mpr ⟨call, hcall, ?_⟩
        apply (hmove.waits hwaiting).resolve_right
        intro hother
        exact hother (opened_of_isOpen hopen)
  | drop j call hcall =>
      obtain ⟨found, hfound, hwaiting⟩ := waits_iff.mp hwaits
      rw [call?_set _ hcall] at hfound
      split at hfound
      case isFalse => exact waits_iff.mpr ⟨found, hfound, hwaiting⟩
      case isTrue => cases hfound
  | stay => exact hwaits
  | pass => exact hwaits
  | look => exact hwaits

/-- Who begins to make a connection has waited for it, and there is none. -/
theorem waits_of_dials (hdials : u.dials e = true) :
    (∃ k, u.waits k = true) ∧ u.pool.cached = none := by
  have ⟨hfree, hbegun⟩ : u.pool.dialing = false ∧ (u.after e).pool.dialing = true := by
    simpa [dials] using hdials
  have hchange := u.change_after e
  generalize u.after e = u' at hbegun hchange
  cases hchange with
  | move j signal call call' pool hcall hmove =>
      obtain ⟨hwaits, hcached⟩ := hmove.of_dial hfree hbegun
      exact ⟨⟨j, waits_iff.mpr ⟨call, hcall, hwaits⟩⟩, hcached⟩
  | call => cases hfree.symm.trans hbegun
  | drop j call hcall => simp [hfree] at hbegun
  | stay => cases hfree.symm.trans hbegun
  | pass => cases hfree.symm.trans hbegun
  | look => cases hfree.symm.trans hbegun

theorem play_append (u : Crowd α) (first second : List (Event α)) :
    u.play (first ++ second) = (u.play first).play second := List.foldl_append

/-- Whoever waits while the circuit is open waited when it opened. -/
theorem waits_when_opened (hclosed : u.isOpen = false) (events : List (Event α))
    (hopen : (u.play events).isOpen = true) (hwaits : (u.play events).waits k = true) :
    ∃ before e rest, events = before ++ e :: rest ∧ (u.play before).opens e = true ∧
      (u.play before).waits k = true := by
  induction events using List.reverseRecOn with
  | nil => cases hclosed.symm.trans hopen
  | append_singleton events e ih =>
      rw [play_append] at hopen hwaits
      have hbefore := ((u.play events).change_after e).waits hopen hwaits
      cases hshows : (u.play events).isOpen with
      | true =>
          obtain ⟨before, e', rest, rfl, hopens, hwaited⟩ := ih hshows hbefore
          exact ⟨before, e', rest ++ [e], by simp, hopens, hwaited⟩
      | false =>
          refine ⟨events, e, [], rfl, ?_, hbefore⟩
          simp only [opens, hshows]
          exact hopen

/-- The call with this number was let through or given up. -/
def IsPast (u : Crowd α) (k : Nat) : Prop :=
  k < u.calls.length ∧ ∀ call, u.call? k = some call → call.isPast = true

theorem isPast_of_waits (hwaits : u.waits k = true) : u.IsPast k := by
  obtain ⟨call, hcall, hwaiting⟩ := waits_iff.mp hwaits
  refine ⟨(List.getElem?_eq_some_iff.mp (call?_eq_some.mp hcall)).1, fun other hother => ?_⟩
  obtain rfl := Option.some.inj (hcall.symm.trans hother)
  exact Call.isPast_of_isWaiting hwaiting

/-- Whoever was let through is not refused later. -/
theorem Change.past (hchange : Change u e u') (hpast : u.IsPast k) : u'.IsPast k := by
  obtain ⟨hlt, hpast⟩ := hpast
  cases hchange with
  | call =>
      refine ⟨by simpa using Nat.lt_succ_of_lt hlt, fun call hcall => ?_⟩
      rw [call?_append, if_neg (Nat.ne_of_lt hlt)] at hcall
      exact hpast call hcall
  | move j signal one one' pool hone hmove =>
      refine ⟨by simpa using hlt, fun call hcall => ?_⟩
      rw [call?_set _ hone] at hcall
      split at hcall
      case isFalse => exact hpast call hcall
      case isTrue hself =>
        subst hself
        cases hcall
        exact hmove.past (hpast one hone)
  | drop j one hone =>
      refine ⟨by simpa using hlt, fun call hcall => ?_⟩
      rw [call?_set _ hone] at hcall
      split at hcall
      case isFalse => exact hpast call hcall
      case isTrue => cases hcall
  | stay => exact ⟨hlt, hpast⟩
  | pass => exact ⟨hlt, hpast⟩
  | look => exact ⟨hlt, hpast⟩

/-- Whoever was let through or given up stays so. -/
theorem past_play (events : List (Event α)) (hpast : u.IsPast k) : (u.play events).IsPast k := by
  induction events generalizing u with
  | nil => exact hpast
  | cons e rest ih => exact ih ((u.change_after e).past hpast)

/-- Where no call is given up, calls fail fast exactly if nobody waits for the connection when the
circuit opens. -/
theorem failsFast_iff (hclosed : u.isOpen = false) (events : List (Event α))
    (hended : ∀ slot ∈ (u.play events).calls, slot.any Call.hasEnded = true) :
    u.FailsFast events ↔ ∀ before e rest, events = before ++ e :: rest →
      (u.play before).opens e = true → ∀ k, (u.play before).waits k = false := by
  constructor
  · intro hfast before e rest hevents hopens k
    by_contra hnot
    have hwaits : (u.play before).waits k = true := by simpa using hnot
    obtain ⟨hlt, hpast⟩ := past_play (e :: rest) (isPast_of_waits hwaits)
    rw [← play_append, ← hevents] at hlt hpast
    obtain ⟨last, hlast, hdone⟩ := (Option.any_eq_true _ _).mp (hended _ (List.getElem_mem hlt))
    have hcall : (u.play events).call? k = some last :=
      call?_eq_some.mpr (List.getElem?_eq_some_iff.mpr ⟨hlt, hlast⟩)
    cases last with
    | ended outcome =>
        obtain rfl := hfast.refused before e rest hevents hopens k hwaits outcome hcall
        cases hpast _ hcall
    | _ => cases hdone
  · intro hnobody
    constructor
    · intro before e rest hevents hdials
      by_contra hnot
      have hopen : (u.play before).isOpen = true := by simpa using hnot
      obtain ⟨⟨k, hwaits⟩, -⟩ := waits_of_dials hdials
      obtain ⟨first, e', second, rfl, hopens, hwaited⟩ :=
        waits_when_opened hclosed before hopen hwaits
      have hnone := hnobody first e' (second ++ e :: rest) (by simp [hevents]) hopens k
      cases hnone.symm.trans hwaited
    · intro before e rest hevents hopens k hwaits
      cases (hnobody before e rest hevents hopens k).symm.trans hwaits

/-- The first call cannot connect, which opens the circuit. The second one has waited for the
connection and tries in its turn. -/
example : ¬ FailsFast (create ⟨1, 1, .ofSeconds 3600⟩ .zero)
    ([.call, .call, .step 0 .nothing, .step 1 .nothing, .step 0 .nothing, .step 1 .nothing,
      .step 0 .nothing, .step 0 (.dialed (.error .disconnected)), .step 1 .nothing] :
        List (Event Unit)) := by
  intro hfast
  have hopen := hfast.dials
    [.call, .call, .step 0 .nothing, .step 1 .nothing, .step 0 .nothing, .step 1 .nothing,
      .step 0 .nothing, .step 0 (.dialed (.error .disconnected))]
      (.step 1 .nothing) [] rfl (by decide)
  exact absurd hopen (by decide)

end Crowd
end Rollcall.Redis
