import Mathlib.Data.List.Basic
import Rollcall.Proofs.Redis.Delays
import Rollcall.Proofs.Redis.Execution

/-!
Warming up while the store is still starting.

The store refuses connections until some moment, which may never come (`LateStore`). The circuit
breaker lets the first five attempts of a warm-up through, then the eighth and every other one from
there on (`Client.Passes`), whatever chance adds to the delays. So a warm-up tries as often as it is
told to if that is at most five times, and less often if it is more (`Client.warmUp_tries`).
-/

namespace Rollcall

theorem Span.add_ofMillis (moment : Span) (ms more : Nat) :
    moment + ofMillis ms + ofMillis more = moment + ofMillis (ms + more) := by
  refine congrArg Span.mk ?_
  change moment.nanos + ms * 1000000 + more * 1000000 = moment.nanos + (ms + more) * 1000000
  omega

namespace Redis

/-- A store that accepts connections from some moment on, or never. -/
structure LateStore where
  upFrom : Option Span
  /-- How long an answer takes that is asked for at a moment. -/
  lag : Span → Span

/-- The way to a late store: the time, and the moments at which a connection was asked for. -/
structure Trail where
  store : LateStore
  now : Span
  tried : List Span

namespace Trail

def accepts (t : Trail) : Bool := t.store.upFrom.any fun moment => moment ≤ t.now

def wait (t : Trail) (d : Span) : Trail := { t with now := t.now + d }

theorem tried_wait (t : Trail) (d : Span) : (t.wait d).tried = t.tried := rfl

theorem store_wait (t : Trail) (d : Span) : (t.wait d).store = t.store := rfl

def visit (t : Trail) : Trail := { t.wait (t.store.lag t.now) with tried := t.tried ++ [t.now] }

instance : Network Trail where
  now := now
  dial _ t := (if t.accepts then .ok () else .error .disconnected, t.visit)
  ask _ command t :=
    (if command = .ping then .ok (.simple "PONG") else .error .disconnected,
      t.wait (t.store.lag t.now))
  sleep d t := t.wait d

end Trail

namespace Client

/-- An attempt of a warm-up: its number, and what it finds. -/
structure Try where
  index : Nat
  trail : Trail

def tries (draw : Nat → Binary64) : (left : Nat) → Backoff → Client Trail → List Try
  | 0, _, _ => []
  | left + 1, b, c =>
      ⟨b.attempt, c.net⟩ :: match c.ping with
        | (.ok (), _) => []
        | (.error _, c) =>
            if left = 0 then []
            else
              let (delay, b) := b.step (draw b.attempt)
              tries draw left b { c with net := Network.sleep delay c.net }

/-- Whether the breaker lets the attempt with this number through, if those before it failed. -/
def Passes (i : Nat) : Prop := i < 5 ∨ 7 ≤ i ∧ i % 2 = 1

instance (i : Nat) : Decidable (Passes i) := inferInstanceAs (Decidable (_ ∨ _))

/-- What becomes of a PING that needs a connection. -/
inductive Ping (c : Client Trail) : Except CallFailure Unit × Client Trail → Prop where
  | refused (p : Pool) (hgrant : c.pool.Granted c.net.now false p) :
      Ping c (.error .circuitOpen, ⟨p, c.net⟩)
  | unreachable (p : Pool) (hgrant : c.pool.Granted c.net.now true p)
      (hdown : c.net.accepts = false) :
      Ping c (.error (.failed .disconnected), ⟨p.beginDial.failDial c.net.visit.now, c.net.visit⟩)
  | answered (p : Pool) (hgrant : c.pool.Granted c.net.now true p) (hup : c.net.accepts = true)
      (pool : Pool) (net : Trail) (htried : net.tried = c.net.tried ++ [c.net.now]) :
      Ping c (.ok (), ⟨pool, net⟩)

/-- A PING is refused by the breaker, or asks for a connection that is there or is not. -/
theorem ping_cases (c : Client Trail) (hfree : c.pool.dialing = false)
    (hnone : c.pool.cached = none) :
    c.Ping c.ping := by
  have hexecution := c.execution Dialog.ping hfree
  generalize hresult : c.execute Dialog.ping = r at hexecution
  have hping : c.ping = r := hresult
  rw [hping]
  cases hexecution with
  | refused p hgrant => exact .refused p (Pool.granted_of_grant hgrant)
  | unreachable p cause net hgrant hcached hdial =>
      obtain ⟨hrefusal, rfl⟩ := Prod.mk.inj hdial
      cases hdown : c.net.accepts with
      | true => simp [hdown] at hrefusal
      | false =>
          simp only [hdown, Bool.false_eq_true, if_false, Except.error.injEq] at hrefusal
          subst hrefusal
          exact .unreachable p (Pool.granted_of_grant hgrant) hdown
  | answered p conn pool net net' answer hgrant hreaches htalk =>
      have hgranted := Pool.granted_of_grant hgrant
      cases hreaches with
      | finds _ hcached => simp [hgranted.cached, hnone] at hcached
      | makes _ hcached hdial =>
          obtain ⟨haccepted, rfl⟩ := Prod.mk.inj hdial
          obtain ⟨rfl, rfl⟩ := Prod.mk.inj htalk
          cases hup : c.net.accepts with
          | false => simp [hup] at haccepted
          | true => exact .answered p hgranted hup _ _ rfl

/-- How many milliseconds an open circuit may have rested when the attempt with this number
begins. -/
structure Rested (i ms : Nat) : Prop where
  first : i = 5 → 2800 ≤ ms ∧ ms ≤ 3600
  second : i = 6 → 8400 ≤ ms ∧ ms ≤ 10800
  enough : 7 ≤ i → i % 2 = 1 → 15000 ≤ ms
  between : 8 ≤ i → i % 2 = 0 → 8750 ≤ ms ∧ ms ≤ 11250

/-- A client whose attempts before this one all failed. -/
structure Standing (i : Nat) (c : Client Trail) : Prop where
  cached : c.pool.cached = none
  dialing : c.pool.dialing = false
  policy : c.pool.breaker.policy = .default
  closed : i < 5 → c.pool.breaker.circuit = .closed ∧ c.pool.breaker.failures = i
  opened : 5 ≤ i → c.pool.breaker.circuit = .opened ∧
    ∃ ms, Rested i ms ∧ c.net.now = c.pool.breaker.changedAt + Span.ofMillis ms

/-- The breaker when the attempt with this number has failed at a moment. -/
structure Failed (i : Nat) (now : Span) (b : Breaker) : Prop where
  policy : b.policy = .default
  closed : i < 4 → b.circuit = .closed ∧ b.failures = i + 1
  opened : 4 ≤ i → b.circuit = .opened ∧ b.changedAt = now

section Rest

variable {i ms more : Nat}

/-- The circuit opened when this attempt failed. -/
theorem rested_after (hdelay : Backoff.Delayed i ms) (hpasses : Passes i) (hi : 4 ≤ i) :
    Rested (i + 1) ms := by
  obtain rfl | hlater := Nat.eq_or_lt_of_le hi
  · obtain ⟨hlow, hhigh⟩ : 3200 - 3200 / 8 ≤ ms ∧ ms ≤ 3200 + 3200 / 8 := hdelay
    constructor <;> omega
  · have hseven : 7 ≤ i ∧ i % 2 = 1 := hpasses.resolve_left (by omega)
    have hlongest := Backoff.delayed_longest hdelay (by omega)
    constructor <;> omega

/-- The circuit was still open at this attempt. -/
theorem rested_on (hdelay : Backoff.Delayed i more) (hrefused : ¬ Passes i)
    (hrested : Rested i ms) :
    Rested (i + 1) (ms + more) := by
  obtain ⟨hfirst, hsecond, -, hbetween⟩ := hrested
  have hnumber : i = 5 ∨ i = 6 ∨ 8 ≤ i ∧ i % 2 = 0 := by
    simp only [Passes] at hrefused
    omega
  obtain rfl | rfl | heven := hnumber
  · obtain ⟨hlow, hhigh⟩ : 6400 - 6400 / 8 ≤ more ∧ more ≤ 6400 + 6400 / 8 := hdelay
    constructor <;> omega
  · have hlongest := Backoff.delayed_longest hdelay (by omega)
    constructor <;> omega
  · have hlongest := Backoff.delayed_longest hdelay (by omega)
    constructor <;> omega

/-- Of the attempts after the fifth, every other one comes once the circuit has rested long
enough. -/
theorem rested_enough_iff (hi : 5 ≤ i) (hrested : Rested i ms) : 15000 ≤ ms ↔ Passes i := by
  obtain ⟨hfirst, hsecond, henough, hbetween⟩ := hrested
  simp only [Passes]
  omega

end Rest

namespace Standing

variable {i ms : Nat} {c : Client Trail} (hstanding : Standing i c)

include hstanding

/-- What the breaker shows when the attempt begins. -/
theorem circuit_refresh : (c.pool.breaker.refresh c.net.now).circuit = .opened ↔ ¬ Passes i := by
  by_cases hi : i < 5
  · have hclosed := (hstanding.closed hi).1
    have hpasses : Passes i := .inl hi
    rw [Breaker.refresh_of_not_opened (by simp [hclosed])]
    simp [hclosed, hpasses]
  · obtain ⟨hopened, ms, hrested, hnow⟩ := hstanding.opened (by omega)
    have hreset : Breaker.Policy.default.resetTimeout ≤ c.net.now - c.pool.breaker.changedAt ↔
        15000 ≤ ms := by
      rw [hnow]
      change 15 * 1000000000 ≤ c.pool.breaker.changedAt.nanos + ms * 1000000 -
        c.pool.breaker.changedAt.nanos ↔ _
      omega
    rw [← rested_enough_iff (by omega) hrested, ← hreset, Breaker.refresh, hstanding.policy]
    split
    case isTrue hrest => simp [Breaker.enter, hrest.2]
    case isFalse hrest => simpa [hopened] using hrest

/-- The breaker lets through those attempts that pass. -/
theorem granted_iff {granted : Bool} {p : Pool} (hgrant : c.pool.Granted c.net.now granted p) :
    granted = true ↔ Passes i := by
  rw [← Bool.not_eq_false, hgrant.refused, hgrant.breaker, hstanding.circuit_refresh, not_not]

/-- An attempt that was refused. -/
theorem next_refused {p : Pool} (hgrant : c.pool.Granted c.net.now false p)
    (hdelay : Backoff.Delayed i ms) :
    Standing (i + 1) ⟨p, c.net.wait (Span.ofMillis ms)⟩ := by
  have hrefused : ¬ Passes i := by simp [← hstanding.granted_iff hgrant]
  have hopen : 5 ≤ i := by
    by_contra hi
    exact hrefused (.inl (by omega))
  obtain ⟨hopened, rest, hrested, hnow⟩ := hstanding.opened hopen
  have hcircuit := hstanding.circuit_refresh.mpr hrefused
  have hsame : p.breaker = c.pool.breaker := by
    rw [hgrant.breaker, Breaker.refresh]
    split
    case isTrue hrest => simp [Breaker.refresh, hrest, Breaker.enter] at hcircuit
    case isFalse => rfl
  have hpolicy : p.breaker.policy = .default := by rw [hsame, hstanding.policy]
  refine ⟨hgrant.cached.trans hstanding.cached, hgrant.dialing.trans hstanding.dialing, hpolicy,
    by omega, fun _ => ?_⟩
  rw [hsame]
  refine ⟨hopened, rest + ms, rested_on hdelay hrefused hrested, ?_⟩
  rw [← Span.add_ofMillis, ← hnow]
  rfl

section Through

variable {p : Pool} (hgrant : c.pool.Granted c.net.now true p)

include hgrant

theorem policy_granted : p.breaker.policy = .default := by
  rw [hgrant.breaker, Breaker.policy_refresh]
  exact hstanding.policy

theorem early_of_closed (hcircuit : p.breaker.circuit = .closed) :
    i < 5 ∧ p.breaker.failures = i := by
  rw [hgrant.breaker, Breaker.circuit_refresh_eq_closed] at hcircuit
  have hearly : i < 5 := by
    by_contra hi
    have hopened := (hstanding.opened (by omega)).1
    rw [hopened] at hcircuit
    cases hcircuit
  rw [hgrant.breaker, Breaker.failures_refresh]
  exact ⟨hearly, (hstanding.closed hearly).2⟩

theorem late_of_halfOpen (hcircuit : p.breaker.circuit = .halfOpen) : 5 ≤ i := by
  by_contra hi
  have hclosed := (hstanding.closed (by omega)).1
  rw [hgrant.breaker, Breaker.refresh_of_not_opened (by simp [hclosed]), hclosed] at hcircuit
  cases hcircuit

theorem failed (now : Span) : Failed i now (p.breaker.recordFailure now) := by
  have hpasses : Passes i := (hstanding.granted_iff hgrant).mp rfl
  have hpolicy := hstanding.policy_granted hgrant
  have hafter := (Breaker.policy_recordFailure p.breaker now).trans hpolicy
  cases hcircuit : p.breaker.circuit with
  | opened =>
      rw [hgrant.breaker] at hcircuit
      exact absurd hpasses (hstanding.circuit_refresh.mp hcircuit)
  | closed =>
      obtain ⟨hearly, hfailures⟩ := hstanding.early_of_closed hgrant hcircuit
      have hthreshold : Breaker.Policy.default.failureThreshold = 5 := rfl
      refine ⟨hafter, ?_, ?_⟩
      all_goals
        intro hi
        rw [Breaker.recordFailure_closed _ _ hcircuit, hpolicy, hfailures, hthreshold]
      · rw [if_neg (by omega)]
        exact ⟨hcircuit, rfl⟩
      · rw [if_pos (by omega)]
        exact ⟨rfl, rfl⟩
  | halfOpen =>
      have hlate := hstanding.late_of_halfOpen hgrant hcircuit
      refine ⟨hafter, by omega, fun _ => ?_⟩
      rw [Breaker.recordFailure_halfOpen _ _ hcircuit]
      exact ⟨rfl, rfl⟩

/-- An attempt that reached the store and found it down. -/
theorem next_unreachable (hdelay : Backoff.Delayed i ms) (net : Trail) :
    Standing (i + 1) ⟨p.beginDial.failDial net.now, net.wait (Span.ofMillis ms)⟩ := by
  have hpasses : Passes i := (hstanding.granted_iff hgrant).mp rfl
  have hfailed := hstanding.failed hgrant net.now
  refine ⟨hgrant.cached.trans hstanding.cached, rfl, hfailed.policy,
    fun hi => hfailed.closed (by omega), fun hi => ?_⟩
  obtain ⟨hopened, hmoment⟩ := hfailed.opened (by omega)
  refine ⟨hopened, ms, rested_after hdelay hpasses (by omega), ?_⟩
  change net.now + Span.ofMillis ms = (p.breaker.recordFailure net.now).changedAt + Span.ofMillis ms
  rw [hmoment]

end Through

end Standing

/-- What one attempt comes to. -/
inductive Attempted (i : Nat) (c : Client Trail) :
    Except CallFailure Unit × Client Trail → Prop where
  | succeeds (c' : Client Trail) (hpasses : Passes i) (hup : c.net.accepts = true)
      (htried : c'.net.tried = c.net.tried ++ [c.net.now]) : Attempted i c (.ok (), c')
  | fails (c' : Client Trail) (cause : CallFailure) (hdown : Passes i → c.net.accepts = false)
      (htried : c'.net.tried = c.net.tried ++ if Passes i then [c.net.now] else [])
      (hstore : c'.net.store = c.net.store)
      (hnext : ∀ ms, Backoff.Delayed i ms →
        Standing (i + 1) { c' with net := c'.net.wait (Span.ofMillis ms) }) :
      Attempted i c (.error cause, c')

/-- What an attempt comes to is settled by its number and by whether the store accepts. -/
theorem Standing.attempted {i : Nat} {c : Client Trail} (hstanding : Standing i c) :
    Attempted i c c.ping := by
  have hping := c.ping_cases hstanding.dialing hstanding.cached
  generalize c.ping = r at hping
  cases hping with
  | answered p hgrant hup pool net htried =>
      exact .succeeds _ ((hstanding.granted_iff hgrant).mp rfl) hup htried
  | refused p hgrant =>
      have hrefused : ¬ Passes i := by simp [← hstanding.granted_iff hgrant]
      exact .fails _ _ (fun hpasses => absurd hpasses hrefused) (by simp [hrefused]) rfl
        fun ms => hstanding.next_refused hgrant
  | unreachable p hgrant hdown =>
      have hpasses := (hstanding.granted_iff hgrant).mp rfl
      exact .fails _ _ (fun _ => hdown) (by simp [hpasses, Trail.visit]) rfl
        fun ms hdelay => hstanding.next_unreachable hgrant hdelay _

/-- What a warm-up comes to that begins with the attempt of this number, and at most so many are
left: its attempts, and how it ends. -/
structure Warmed (i left : Nat) (start : Trail) (attempts : List Try) (r : Bool × Client Trail) :
    Prop where
  indices : attempts.map Try.index = List.range' i attempts.length
  length_le : attempts.length ≤ left
  store : ∀ t ∈ attempts, t.trail.store = start.store
  tried : r.2.net.tried =
    start.tried ++ (attempts.filter fun t => Passes t.index).map fun t => t.trail.now
  succeeded : r.1 = true ↔ ∃ t ∈ attempts, Passes t.index ∧ t.trail.accepts = true
  exhausted : r.1 = false → attempts.length = left

namespace Warmed

variable {i left : Nat} {start next : Trail} {attempts : List Try} {r : Bool × Client Trail}

theorem given_up (i : Nat) (c : Client Trail) : Warmed i 0 c.net [] (false, c) :=
  ⟨rfl, Nat.le_refl 0, by simp, by simp, by simp, fun _ => rfl⟩

theorem cons (hrest : Warmed (i + 1) left next attempts r)
    (hdown : Passes i → start.accepts = false)
    (htried : next.tried = start.tried ++ if Passes i then [start.now] else [])
    (hstore : next.store = start.store) :
    Warmed i (left + 1) start (⟨i, start⟩ :: attempts) r where
  indices := by simp [hrest.indices, List.range'_succ]
  length_le := Nat.succ_le_succ hrest.length_le
  store := by simpa [hstore] using hrest.store
  tried := by
    rw [hrest.tried, htried, List.append_assoc, List.filter_cons]
    by_cases hpasses : Passes i <;> simp [hpasses]
  succeeded := by
    have hfailed : ¬ (Passes i ∧ start.accepts = true) := by
      rintro ⟨hpasses, hup⟩
      simp [hdown hpasses] at hup
    rw [hrest.succeeded, List.exists_mem_cons_iff, or_iff_right hfailed]
  exhausted hfailure := by simp [hrest.exhausted hfailure]

end Warmed

/-- By induction on the attempts that are left. -/
theorem warmed_attempt (draws : Backoff.Draws) (left : Nat) {i : Nat} {c : Client Trail}
    (hstanding : Standing i c) :
    Warmed i left c.net (tries draws.draw left (Backoff.later i) c)
      (attempt draws.draw left (Backoff.later i) c) := by
  induction left generalizing i c with
  | zero => exact .given_up i c
  | succ left ih =>
      obtain ⟨ms, hdelay, hbounds⟩ := Backoff.delay_later (draws.fair i)
      rw [tries, attempt, Backoff.attempt_later]
      have hattempt := hstanding.attempted
      generalize c.ping = r at hattempt
      cases hattempt with
      | succeeds c' hpasses hup htried =>
          exact ⟨rfl, by simp, by simp, by simp [hpasses, htried], by simp [hpasses, hup], by simp⟩
      | fails c' cause hdown htried hstore hnext =>
          cases left with
          | zero => exact .cons (.given_up _ c') hdown htried hstore
          | succ left =>
              dsimp only
              rw [if_neg (Nat.succ_ne_zero left), if_neg (Nat.succ_ne_zero left), hdelay]
              exact .cons (ih (hnext ms hbounds)) hdown ((Trail.tried_wait _ _).trans htried)
                ((Trail.store_wait _ _).trans hstore)

/-- How many of so many attempts get past the breaker. -/
def passing (n : Nat) : Nat := if n ≤ 5 then n else 2 + n / 2

/-- How many attempts pass, counted one by one. -/
theorem length_passing (n : Nat) :
    ((List.range n).filter fun i => Passes i).length = passing n := by
  have hnext (n : Nat) : passing (n + 1) = passing n + if Passes n then 1 else 0 := by
    by_cases hpasses : Passes n
    all_goals
      simp only [hpasses, if_true, if_false, passing]
      simp only [Passes] at hpasses
      split_ifs <;> omega
  induction n with
  | zero => rfl
  | succ n ih =>
      rw [List.range_succ, List.filter_append, List.length_append, ih, hnext, List.filter_singleton]
      by_cases hpasses : Passes n <;> simp [hpasses]

section Start

variable (n : Nat) (draws : Backoff.Draws) (store : LateStore) (start : Span)

/-- A client that was just made, on its way to a late store. -/
def newcomer : Client Trail := create .default ⟨store, start, []⟩

theorem standing_newcomer : Standing 0 (newcomer store start) :=
  ⟨rfl, rfl, rfl, fun _ => ⟨rfl, rfl⟩, by simp⟩

def warmUpTries : List Try :=
  tries draws.draw (max n 1) (Backoff.create .default) (newcomer store start)

def warmedUp : Bool × Client Trail := (newcomer store start).warmUp n draws.draw

/-- A warm-up that does what it is told to: each attempt reaches the store, one that finds it up is
enough, and there are as many as the setting says, but at least one, if none does. -/
structure TriesEach : Prop where
  reaches : (warmedUp n draws store start).2.net.tried =
    (warmUpTries n draws store start).map fun t => t.trail.now
  succeeded : (warmedUp n draws store start).1 = true ↔
    ∃ t ∈ warmUpTries n draws store start, t.trail.accepts = true
  exhausted : store.upFrom = none → (warmedUp n draws store start).1 = false ∧
    (warmedUp n draws store start).2.net.tried.length = max n 1

theorem warmed_newcomer : Warmed 0 (max n 1) ⟨store, start, []⟩ (warmUpTries n draws store start)
    (warmedUp n draws store start) :=
  warmed_attempt draws (max n 1) (standing_newcomer store start)

/-- A store that never comes up is tried as often as the breaker allows. -/
theorem tried_never (hnever : store.upFrom = none) :
    (warmedUp n draws store start).1 = false ∧
      (warmUpTries n draws store start).length = max n 1 ∧
      (warmedUp n draws store start).2.net.tried.length = passing (max n 1) := by
  have hwarmed := warmed_newcomer n draws store start
  have hfails : (warmedUp n draws store start).1 = false := by
    rw [← Bool.not_eq_true, hwarmed.succeeded]
    rintro ⟨t, hmem, -, hup⟩
    simp [Trail.accepts, hwarmed.store t hmem, hnever] at hup
  refine ⟨hfails, hwarmed.exhausted hfails, ?_⟩
  have hcount : ((warmUpTries n draws store start).filter fun t => Passes t.index).length =
      (((warmUpTries n draws store start).map Try.index).filter fun i => Passes i).length := by
    rw [List.filter_map, List.length_map]
    rfl
  rw [hwarmed.tried, List.nil_append, List.length_map, hcount, hwarmed.indices,
    hwarmed.exhausted hfails, ← List.range_eq_range', length_passing]

/-- Exactly the warm-ups do what they are told to that come to their end within five attempts. -/
theorem triesEach_iff :
    TriesEach n draws store start ↔ (warmUpTries n draws store start).length ≤ 5 := by
  have hwarmed := warmed_newcomer n draws store start
  constructor
  · intro htries
    by_contra hmany
    -- the sixth attempt was made and did not reach the store
    have hsixth : 5 ∈ (warmUpTries n draws store start).map Try.index := by
      rw [hwarmed.indices, List.mem_range'_1]
      omega
    obtain ⟨t, hmem, hsix⟩ := List.mem_map.mp hsixth
    have hlengths := congrArg List.length (hwarmed.tried.symm.trans htries.reaches)
    rw [List.nil_append, List.length_map, List.length_map, List.length_filter_eq_length_iff]
      at hlengths
    have hpasses := of_decide_eq_true (hlengths t hmem)
    rw [hsix] at hpasses
    exact absurd hpasses (by decide)
  · intro hfew
    have hpasses (t : Try) (hmem : t ∈ warmUpTries n draws store start) : Passes t.index := by
      have hindex := List.mem_map_of_mem (f := Try.index) hmem
      rw [hwarmed.indices, List.mem_range'_1] at hindex
      exact .inl (by omega)
    refine ⟨?_, ?_, fun hnever => ?_⟩
    · rw [hwarmed.tried, List.nil_append,
        List.filter_eq_self.mpr fun t hmem => decide_eq_true (hpasses t hmem)]
    · rw [hwarmed.succeeded]
      exact exists_congr fun t => and_congr_right fun hmem => and_iff_right (hpasses t hmem)
    · obtain ⟨hfails, hattempts, htried⟩ := tried_never n draws store start hnever
      rw [htried, passing, if_pos (by omega)]
      exact ⟨hfails, rfl⟩

end Start

/-- Whatever the store and the delays: only the attempts that get past the breaker count, and a
warm-up does what it is told to exactly if it is over within five attempts. Told to try at most five
times it always does, told to try more often it does not if the store stays away. -/
theorem warmUp_tries (n : Nat) :
    (∀ (draws : Backoff.Draws) (store : LateStore) (start : Span),
      Warmed 0 (max n 1) ⟨store, start, []⟩ (warmUpTries n draws store start)
        (warmedUp n draws store start) ∧
      (store.upFrom = none → (warmedUp n draws store start).1 = false ∧
        (warmedUp n draws store start).2.net.tried.length = passing (max n 1)) ∧
      (TriesEach n draws store start ↔ (warmUpTries n draws store start).length ≤ 5)) ∧
    ((∀ (draws : Backoff.Draws) (store : LateStore) (start : Span), TriesEach n draws store start) ↔
      n ≤ 5) := by
  refine ⟨fun draws store start =>
    ⟨warmed_newcomer n draws store start, fun hnever => ?_, triesEach_iff n draws store start⟩, ?_⟩
  · obtain ⟨hfails, -, htried⟩ := tried_never n draws store start hnever
    exact ⟨hfails, htried⟩
  simp only [triesEach_iff]
  constructor
  · intro hfew
    have hattempts := (tried_never n default ⟨none, id⟩ Span.zero rfl).2.1
    have hnever := hfew default ⟨none, id⟩ Span.zero
    omega
  · intro hfew draws store start
    have hlength := (warmed_newcomer n draws store start).length_le
    omega

/-- Nine attempts at a store that never comes up, of which six reach it. -/
theorem warmUp_tries_nine :
    (⟨none, id⟩ : LateStore).upFrom = none ∧
      (warmedUp 9 default ⟨none, id⟩ Span.zero).1 = false ∧
      (warmedUp 9 default ⟨none, id⟩ Span.zero).2.net.tried.length = 6 :=
  ⟨rfl, ((warmUp_tries 9).1 default ⟨none, id⟩ Span.zero).2.1 rfl⟩

/-- Told to try six times, a warm-up tries five times. -/
theorem sixth_attempt_refused :
    (warmUpTries 6 default ⟨none, id⟩ Span.zero).length = 6 ∧
      (warmedUp 6 default ⟨none, id⟩ Span.zero).2.net.tried.length = 5 ∧
      ¬ TriesEach 6 default ⟨none, id⟩ Span.zero := by
  obtain ⟨-, hattempts, htried⟩ := tried_never 6 default ⟨none, id⟩ Span.zero rfl
  refine ⟨hattempts, htried, fun htries => ?_⟩
  have hall := (htries.exhausted rfl).2
  rw [htried] at hall
  simp [passing] at hall

end Client
end Redis
end Rollcall
