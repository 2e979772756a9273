import Mathlib.Order.Lattice
import Rollcall.Redis.Pool

/-!
The counters of a circuit breaker.

Failures are counted up to the threshold and kept there until the circuit closes again
(`Breaker.Sound`). Two breakers with the same counters, which were opened at the same time if they
are open, go on alike whatever is recorded (`Breaker.Alike`), so nobody who looks at them can tell
them apart (`Breaker.view`). A pool that is asked whether a call may go on asks its breaker
(`Pool.Granted`).
-/

namespace Rollcall.Breaker

variable {a b : Breaker} {now : Span}

/-- The circuit and the counters, as they show at a moment. -/
def view (b : Breaker) (now : Span) : Circuit × Nat × Nat :=
  ((b.refresh now).circuit, (b.refresh now).failures, (b.refresh now).successes)

/-- A closed circuit has not had its fill of failures, any other one has. A threshold of zero acts
as one. -/
structure Sound (b : Breaker) : Prop where
  closed : b.circuit = .closed → b.failures < max 1 b.policy.failureThreshold
  tripped : b.circuit ≠ .closed → b.failures = max 1 b.policy.failureThreshold

structure Alike (a b : Breaker) : Prop where
  policy : a.policy = b.policy
  circuit : a.circuit = b.circuit
  failures : a.failures = b.failures
  successes : a.successes = b.successes
  changedAt : a.circuit = .opened → a.changedAt = b.changedAt

@[simp]
theorem policy_refresh (b : Breaker) (now : Span) : (b.refresh now).policy = b.policy := by
  unfold refresh
  split <;> rfl

@[simp]
theorem policy_recordSuccess (b : Breaker) (now : Span) :
    (b.recordSuccess now).policy = b.policy := by
  unfold recordSuccess
  split
  · rfl
  · simp only
    split <;> rfl
  · rfl

@[simp]
theorem policy_recordFailure (b : Breaker) (now : Span) :
    (b.recordFailure now).policy = b.policy := by
  unfold recordFailure
  split
  · simp only
    split <;> rfl
  · rfl
  · rfl

@[simp]
theorem failures_refresh (b : Breaker) (now : Span) : (b.refresh now).failures = b.failures := by
  unfold refresh
  split
  · simp [enter]
  · rfl

/-- Only an open circuit changes by the time that goes by. -/
theorem refresh_of_not_opened (hcircuit : b.circuit ≠ .opened) (now : Span) : b.refresh now = b :=
  if_neg fun hrested => hcircuit hrested.1

/-- A look closes nothing. -/
theorem circuit_refresh_eq_closed (b : Breaker) (now : Span) :
    (b.refresh now).circuit = .closed ↔ b.circuit = .closed := by
  by_cases hopened : b.circuit = .opened
  · unfold refresh
    split <;> simp [enter, hopened]
  · rw [refresh_of_not_opened hopened]

section View

variable (hsame : a.view now = b.view now)

include hsame

theorem failures_of_view : a.failures = b.failures := by
  simpa [view] using congrArg (fun seen => seen.2.1) hsame

theorem closed_of_view : a.circuit = .closed ↔ b.circuit = .closed := by
  rw [← circuit_refresh_eq_closed a now, ← circuit_refresh_eq_closed b now]
  exact Eq.congr_left (congrArg Prod.fst hsame)

theorem successes_of_view (ha : a.circuit ≠ .opened) (hb : b.circuit ≠ .opened) :
    a.successes = b.successes := by
  have hseen := congrArg (fun seen => seen.2.2) hsame
  simpa only [view, refresh_of_not_opened ha, refresh_of_not_opened hb] using hseen

end View

theorem recordSuccess_closed (b : Breaker) (now : Span) (hcircuit : b.circuit = .closed) :
    b.recordSuccess now = { b with failures := 0 } := by
  unfold recordSuccess
  split <;> simp_all

theorem recordSuccess_halfOpen (b : Breaker) (now : Span) (hcircuit : b.circuit = .halfOpen) :
    b.recordSuccess now =
      if b.policy.successThreshold ≤ b.successes + 1 then
        { b with circuit := .closed, changedAt := now, successes := 0, failures := 0 }
      else { b with successes := b.successes + 1 } := by
  unfold recordSuccess
  split <;> simp_all [enter]

theorem recordFailure_closed (b : Breaker) (now : Span) (hcircuit : b.circuit = .closed) :
    b.recordFailure now =
      if b.policy.failureThreshold ≤ b.failures + 1 then
        { b with circuit := .opened, changedAt := now, successes := 0, failures := b.failures + 1 }
      else { b with failures := b.failures + 1 } := by
  unfold recordFailure
  split <;> simp_all [enter]

theorem recordFailure_halfOpen (b : Breaker) (now : Span) (hcircuit : b.circuit = .halfOpen) :
    b.recordFailure now = { b with circuit := .opened, changedAt := now, successes := 0 } := by
  unfold recordFailure
  split <;> simp_all [enter]

theorem recordFailure_opened (b : Breaker) (now : Span) (hcircuit : b.circuit = .opened) :
    b.recordFailure now = { b with changedAt := now } := by
  unfold recordFailure
  split <;> simp_all

theorem recordSuccess_opened (b : Breaker) (now : Span) (hcircuit : b.circuit = .opened) :
    b.recordSuccess now = b := by
  unfold recordSuccess
  split <;> simp_all

/-- The circuit closes, and one failure may open it again. -/
theorem recordFailure_after_last {moment : Span} (hcircuit : a.circuit = .halfOpen)
    (hlast : a.policy.successThreshold ≤ a.successes + 1) (now : Span) :
    (a.recordSuccess moment).recordFailure now = if a.policy.failureThreshold ≤ 1 then
      { a with circuit := .opened, changedAt := now, successes := 0, failures := 1 }
    else { a with circuit := .closed, changedAt := moment, successes := 0, failures := 1 } := by
  have hcloses := a.recordSuccess_halfOpen moment hcircuit
  rw [if_pos hlast] at hcloses
  rw [hcloses, recordFailure_closed _ _ rfl]

namespace Sound

theorem create (policy : Policy) (now : Span) : (Breaker.create policy now).Sound where
  closed _ := by simp [Breaker.create]
  tripped hcircuit := absurd rfl hcircuit

theorem refresh (hsound : b.Sound) (now : Span) : (b.refresh now).Sound where
  closed hcircuit := by
    rw [failures_refresh, policy_refresh]
    exact hsound.closed ((circuit_refresh_eq_closed b now).mp hcircuit)
  tripped hcircuit := by
    rw [failures_refresh, policy_refresh]
    exact hsound.tripped fun hclosed => hcircuit ((circuit_refresh_eq_closed b now).mpr hclosed)

/-- A success keeps a breaker sound: one that closes the circuit takes the failures with it. -/
theorem recordSuccess (hsound : b.Sound) (now : Span) : (b.recordSuccess now).Sound := by
  cases hcircuit : b.circuit with
  | closed =>
      rw [recordSuccess_closed _ _ hcircuit]
      exact ⟨fun _ => by simp, fun hother => absurd hcircuit hother⟩
  | halfOpen =>
      rw [recordSuccess_halfOpen _ _ hcircuit]
      split
      · exact ⟨fun _ => by simp, fun hother => absurd rfl hother⟩
      · exact ⟨hsound.closed, hsound.tripped⟩
  | opened => rwa [recordSuccess_opened _ _ hcircuit]

theorem recordFailure (hsound : b.Sound) (now : Span) : (b.recordFailure now).Sound := by
  cases hcircuit : b.circuit with
  | closed =>
      have hbelow := hsound.closed hcircuit
      rw [recordFailure_closed _ _ hcircuit]
      split
      case isTrue hfull => exact ⟨nofun, fun _ => by simp only; omega⟩
      case isFalse hspare =>
        exact ⟨fun _ => by simp only; omega, fun hother => absurd hcircuit hother⟩
  | halfOpen =>
      rw [recordFailure_halfOpen _ _ hcircuit]
      exact ⟨nofun, fun _ => hsound.tripped (by simp [hcircuit])⟩
  | opened =>
      rw [recordFailure_opened _ _ hcircuit]
      exact ⟨hsound.closed, hsound.tripped⟩

end Sound

namespace Alike

theorem refl (b : Breaker) : b.Alike b := ⟨rfl, rfl, rfl, rfl, fun _ => rfl⟩

theorem refresh (halike : a.Alike b) (now : Span) : (a.refresh now).Alike (b.refresh now) := by
  cases hcircuit : a.circuit with
  | opened =>
      have hopened : b.circuit = .opened := halike.circuit ▸ hcircuit
      unfold Breaker.refresh
      rw [hcircuit, hopened, halike.policy, halike.changedAt hcircuit]
      split
      · exact ⟨halike.policy, rfl, halike.failures, rfl, nofun⟩
      · exact halike
  | closed =>
      rw [refresh_of_not_opened (by simp [hcircuit]),
        refresh_of_not_opened (by simp [← halike.circuit, hcircuit])]
      exact halike
  | halfOpen =>
      rw [refresh_of_not_opened (by simp [hcircuit]),
        refresh_of_not_opened (by simp [← halike.circuit, hcircuit])]
      exact halike

theorem recordSuccess (halike : a.Alike b) (now : Span) :
    (a.recordSuccess now).Alike (b.recordSuccess now) := by
  obtain ⟨hpolicy, hsame, hfailures, hsuccesses, hchanged⟩ := halike
  cases hcircuit : a.circuit with
  | closed =>
      rw [recordSuccess_closed _ _ hcircuit, recordSuccess_closed _ _ (hsame ▸ hcircuit)]
      exact ⟨hpolicy, hsame, rfl, hsuccesses, hchanged⟩
  | halfOpen =>
      rw [recordSuccess_halfOpen _ _ hcircuit, recordSuccess_halfOpen _ _ (hsame ▸ hcircuit),
        hpolicy, hsuccesses]
      split
      · exact ⟨rfl, rfl, rfl, rfl, nofun⟩
      · exact ⟨rfl, hsame, hfailures, rfl, hchanged⟩
  | opened =>
      rw [recordSuccess_opened _ _ hcircuit, recordSuccess_opened _ _ (hsame ▸ hcircuit)]
      exact ⟨hpolicy, hsame, hfailures, hsuccesses, hchanged⟩

theorem recordFailure (halike : a.Alike b) (now : Span) :
    (a.recordFailure now).Alike (b.recordFailure now) := by
  obtain ⟨hpolicy, hsame, hfailures, hsuccesses, hchanged⟩ := halike
  cases hcircuit : a.circuit with
  | closed =>
      rw [recordFailure_closed _ _ hcircuit, recordFailure_closed _ _ (hsame ▸ hcircuit),
        hpolicy, hfailures]
      split
      · exact ⟨rfl, rfl, rfl, rfl, fun _ => rfl⟩
      · exact ⟨rfl, hsame, rfl, hsuccesses, hchanged⟩
  | halfOpen =>
      rw [recordFailure_halfOpen _ _ hcircuit, recordFailure_halfOpen _ _ (hsame ▸ hcircuit)]
      exact ⟨hpolicy, rfl, hfailures, rfl, fun _ => rfl⟩
  | opened =>
      rw [recordFailure_opened _ _ hcircuit, recordFailure_opened _ _ (hsame ▸ hcircuit)]
      exact ⟨hpolicy, hsame, hfailures, hsuccesses, fun _ => rfl⟩

/-- Breakers that are alike show the same at every moment. -/
theorem view_eq (halike : a.Alike b) (now : Span) : a.view now = b.view now := by
  have hrefreshed := halike.refresh now
  simp only [view, hrefreshed.circuit, hrefreshed.failures, hrefreshed.successes]

end Alike

section Twice

/-! What a success makes of the outcome that is recorded after it, beside a breaker that knows
nothing of the success. -/

variable {moment : Span} (halike : a.Alike b)

include halike

section Closed

variable (hcircuit : a.circuit = .closed)

include hcircuit

/-- In a closed circuit a second success adds nothing to the first. -/
theorem Alike.success_twice_closed (now : Span) :
    ((a.recordSuccess moment).recordSuccess now).Alike (b.recordSuccess now) := by
  have hforgets (now : Span) : a.recordSuccess now = { a with failures := 0 } :=
    recordSuccess_closed _ _ hcircuit
  have hstays : ({ a with failures := 0 } : Breaker).recordSuccess now = { a with failures := 0 } :=
    recordSuccess_closed _ _ hcircuit
  rw [hforgets, hstays, ← hforgets now]
  exact halike.recordSuccess now

/-- In a closed circuit without failures a success makes no difference to the failure after it. -/
theorem Alike.failure_after_closed (hnone : a.failures = 0) (now : Span) :
    ((a.recordSuccess moment).recordFailure now).Alike (b.recordFailure now) := by
  have hsame : a.recordSuccess moment = a := by
    rw [recordSuccess_closed _ _ hcircuit, ← hnone]
  rw [hsame]
  exact halike.recordFailure now

/-- The failures before are forgotten. -/
theorem failures_after_closed {now now' : Span}
    (hsame : ((a.recordSuccess moment).recordFailure now).view now' =
      (b.recordFailure now).view now') :
    a.failures = 0 := by
  have hother : b.circuit = .closed := halike.circuit ▸ hcircuit
  have hcounts (b : Breaker) (hclosed : b.circuit = .closed) :
      (b.recordFailure now).failures = b.failures + 1 := by
    rw [recordFailure_closed _ _ hclosed]
    split <;> rfl
  have hfailures := failures_of_view hsame
  have hforgets : a.recordSuccess moment = { a with failures := 0 } :=
    recordSuccess_closed _ _ hcircuit
  rw [hforgets, hcounts { a with failures := 0 } hcircuit, hcounts b hother, ← halike.failures]
    at hfailures
  exact (Nat.succ.inj hfailures).symm

end Closed

section HalfOpen

variable (hcircuit : a.circuit = .halfOpen)

include hcircuit

theorem Alike.success_twice_last (hlast : a.policy.successThreshold ≤ a.successes + 1)
    (now : Span) :
    ((a.recordSuccess moment).recordSuccess now).Alike (b.recordSuccess now) := by
  have hcloses := a.recordSuccess_halfOpen moment hcircuit
  have hother := b.recordSuccess_halfOpen now (halike.circuit ▸ hcircuit)
  rw [if_pos hlast] at hcloses
  rw [if_pos (by rwa [← halike.policy, ← halike.successes])] at hother
  rw [hcloses, hother, recordSuccess_closed _ _ rfl]
  exact ⟨halike.policy, rfl, rfl, rfl, nofun⟩

/-- The success that closes the circuit is undone by the failure after it where one failure is
enough to open it. -/
theorem Alike.failure_after_last (hsound : a.Sound)
    (hlast : a.policy.successThreshold ≤ a.successes + 1) (hsingle : a.policy.failureThreshold ≤ 1)
    (now : Span) : ((a.recordSuccess moment).recordFailure now).Alike (b.recordFailure now) := by
  have hone : a.failures = 1 := by
    rw [hsound.tripped (by simp [hcircuit])]
    omega
  have hother := b.recordFailure_halfOpen now (halike.circuit ▸ hcircuit)
  rw [recordFailure_after_last hcircuit hlast, if_pos hsingle, hother]
  exact ⟨halike.policy, rfl, by simp [← halike.failures, hone], rfl, fun _ => rfl⟩

/-- If the two show the same after the failure, one failure is enough to open the circuit. -/
theorem single_after_last (hlast : a.policy.successThreshold ≤ a.successes + 1) {now now' : Span}
    (hsame : ((a.recordSuccess moment).recordFailure now).view now' =
      (b.recordFailure now).view now') :
    a.policy.failureThreshold ≤ 1 := by
  have hclosed := closed_of_view hsame
  have hother := b.recordFailure_halfOpen now (halike.circuit ▸ hcircuit)
  rw [recordFailure_after_last hcircuit hlast, hother] at hclosed
  split at hclosed
  case isTrue hsingle => exact hsingle
  case isFalse => simp at hclosed

/-- A half-open circuit that needs more successes opens again at the failure, success or not. -/
theorem Alike.failure_after_early (hearly : a.successes + 1 < a.policy.successThreshold)
    (now : Span) :
    ((a.recordSuccess moment).recordFailure now).Alike (b.recordFailure now) := by
  have hcounts := a.recordSuccess_halfOpen moment hcircuit
  have hother := b.recordFailure_halfOpen now (halike.circuit ▸ hcircuit)
  rw [if_neg (Nat.not_le.mpr hearly)] at hcounts
  rw [hcounts, hother, recordFailure_halfOpen { a with successes := a.successes + 1 } _ hcircuit]
  exact ⟨halike.policy, rfl, halike.failures, rfl, fun _ => rfl⟩

/-- Two successes are counted for one. -/
theorem success_twice_early (hearly : a.successes + 1 < a.policy.successThreshold)
    (now now' : Span) :
    ((a.recordSuccess moment).recordSuccess now).view now' ≠ (b.recordSuccess now).view now' := by
  intro hsame
  have hclosed := closed_of_view hsame
  have hsuccesses := successes_of_view hsame
  have hhalfOpen : b.circuit = .halfOpen := halike.circuit ▸ hcircuit
  have hcounts := a.recordSuccess_halfOpen moment hcircuit
  have hother := b.recordSuccess_halfOpen now hhalfOpen
  rw [if_neg (Nat.not_le.mpr hearly)] at hcounts
  rw [if_neg (by rw [← halike.policy, ← halike.successes]; omega), ← halike.successes] at hother
  rw [hcounts, hother,
    recordSuccess_halfOpen { a with successes := a.successes + 1 } _ hcircuit] at hclosed hsuccesses
  split at hclosed
  case isTrue => simp [hhalfOpen] at hclosed
  case isFalse hmore =>
    rw [if_neg hmore] at hsuccesses
    simp [hcircuit, hhalfOpen] at hsuccesses

end HalfOpen

end Twice
end Rollcall.Breaker

namespace Rollcall.Redis.Pool

/-- What it says of a pool that it let a call go on, or refused it. -/
structure Granted (p : Pool) (now : Span) (granted : Bool) (after : Pool) : Prop where
  breaker : after.breaker = p.breaker.refresh now
  refused : granted = false ↔ after.breaker.circuit = .opened
  health : after.health = if granted then p.health else p.health.circuitOpened
  cached : after.cached = p.cached
  made : after.made = p.made
  dialing : after.dialing = p.dialing

/-- What is known of a pool by whether it let a call go on. -/
theorem granted_of_grant {p after : Pool} {now : Span} {granted : Bool}
    (hgrant : p.grant now = (granted, after)) : p.Granted now granted after := by
  cases hgrant
  exact ⟨rfl, by simp, rfl, rfl, rfl, rfl⟩

end Rollcall.Redis.Pool
