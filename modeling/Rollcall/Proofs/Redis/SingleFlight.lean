import Rollcall.Proofs.Redis.Crowd

/-!
One connection at a time.

However many calls share a pool, at most one of them is making a connection, and it makes one only
where none is kept. The health reports the store as healthy only while a connection is kept, and it
counts every connection but the first.

A step of a call keeps what the pool alone has to satisfy (`Pool.Fit`) and moves the mark that
somebody makes a connection along with the call that does so; an event of the crowd adds up the
calls.
-/

namespace Rollcall.Redis

/-- What holds of a pool after `n` connections. -/
structure Pool.Fit (p : Pool) (n : Nat) : Prop where
  alone : p.dialing = true → p.cached = none
  healthy : p.health.status = .healthy → p.cached.isSome = true
  everConnected : p.health.everConnected = decide (0 < n)
  counted : p.health.reconnections = (n - 1) % Nat.pow 2 32

namespace Pool

variable {p p' : Pool} {n : Nat}

theorem fit_create (policy : Breaker.Policy) (now : Span) : (create policy now).Fit 0 where
  alone hdials := by cases hdials
  healthy hstatus := by cases hstatus
  everConnected := rfl
  counted := rfl

/-- What the breaker goes through does not matter. -/
theorem Fit.of_eq (hfit : p.Fit n) (hdialing : p'.dialing = p.dialing)
    (hcached : p'.cached = p.cached) (hhealth : p'.health = p.health) : p'.Fit n where
  alone := by rw [hdialing, hcached]; exact hfit.alone
  healthy := by rw [hhealth, hcached]; exact hfit.healthy
  everConnected := by rw [hhealth]; exact hfit.everConnected
  counted := by rw [hhealth]; exact hfit.counted

theorem Fit.grant {now : Span} {open? : Bool} (hfit : p.Fit n)
    (hgrant : p.grant now = (open?, p')) :
    p'.Fit n := by
  have hgranted := granted_of_grant hgrant
  constructor
  case alone =>
    rw [hgranted.dialing, hgranted.cached]
    exact hfit.alone
  case healthy =>
    rw [hgranted.health, hgranted.cached]
    intro hstatus
    split at hstatus
    · exact hfit.healthy hstatus
    · cases hstatus
  case everConnected =>
    rw [hgranted.health]
    split <;> exact hfit.everConnected
  case counted =>
    rw [hgranted.health]
    split <;> exact hfit.counted

theorem Fit.beginDial (hfit : p.Fit n) (hcached : p.cached = none) : p.beginDial.Fit n where
  alone _ := hcached
  healthy hstatus := by cases hstatus
  everConnected := hfit.everConnected
  counted := hfit.counted

/-- No connection was kept while this one was made, so the store did not count as healthy. -/
theorem Fit.endDial (hfit : p.Fit n) (hdials : p.dialing = true) (now : Span) :
    (p.endDial now).Fit (n + 1) where
  alone hdials := by cases hdials
  healthy _ := rfl
  everConnected := by simp [Pool.endDial, StoreHealth.connected]
  counted := by
    have hstatus : p.health.status ≠ .healthy := by
      intro hhealthy
      have hsome := hfit.healthy hhealthy
      rw [hfit.alone hdials] at hsome
      cases hsome
    simp only [Pool.endDial, StoreHealth.connected, hfit.everConnected, hfit.counted]
    cases n with
    | zero => simp
    | succ n => simp [hstatus]

theorem Fit.failDial (hfit : p.Fit n) (now : Span) : (p.failDial now).Fit n where
  alone hdials := by cases hdials
  healthy := hfit.healthy
  everConnected := hfit.everConnected
  counted := hfit.counted

theorem Fit.giveUp {α : Type} (hfit : p.Fit n) (call : Call α) : (call.giveUp p).Fit n where
  alone hdials := by
    simp only [Call.dialing_giveUp, Bool.and_eq_true] at hdials
    simpa using hfit.alone hdials.1
  healthy := by simpa using hfit.healthy
  everConnected := by simpa using hfit.everConnected
  counted := by simpa using hfit.counted

theorem Fit.discard (hfit : p.Fit n) : p.discard.Fit n where
  alone _ := rfl
  healthy hstatus := by cases hstatus
  everConnected := hfit.everConnected
  counted := hfit.counted

end Pool

namespace Call

variable {α : Type} {now : Span} {p p' : Pool} {call call' : Call α} {signal : Signal α} {n : Nat}

/-- Whether a call gets the connection that it was making with the signal. -/
def connects : Call α → Signal α → Bool
  | .dialing, .dialed (.ok ()) => true
  | _, _ => false

/-- A move adds a connection to the pool exactly if it ends the making of one. -/
theorem Move.fit (hmove : Move now p call signal call' p') (hfit : p.Fit n)
    (hdials : call.isDialing = true → p.dialing = true) :
    p'.Fit (n + (call.connects signal).toNat) := by
  cases hmove with
  | grant p' hgrant => exact hfit.grant hgrant
  | refuse p' hgrant => exact hfit.grant hgrant
  | find call conn hwaits => cases call <;> exact hfit
  | miss => exact hfit
  | dial hfree hcached => exact hfit.beginDial hcached
  | connect => exact hfit.endDial (hdials rfl) now
  | fail cause => exact hfit.failDial now
  | answer conn value => exact hfit.of_eq rfl rfl rfl
  | lose => exact hfit
  | report conn cause => exact hfit.of_eq rfl rfl rfl
  | discard cause => exact hfit.discard.of_eq rfl rfl rfl

/-- The mark that somebody makes a connection moves with the call that does. -/
theorem Move.dialing (hmove : Move now p call signal call' p')
    (hdials : call.isDialing = true → p.dialing = true) :
    p'.dialing.toNat + call.isDialing.toNat = p.dialing.toNat + call'.isDialing.toNat := by
  cases hmove with
  | grant p' hgrant => rw [(Pool.granted_of_grant hgrant).dialing]; rfl
  | refuse p' hgrant => rw [(Pool.granted_of_grant hgrant).dialing]; rfl
  | find call conn hwaits => cases call <;> first | rfl | cases hwaits
  | miss => rfl
  | dial hfree => rw [hfree]; rfl
  | connect => rw [hdials rfl]; rfl
  | fail cause => rw [hdials rfl]; rfl
  | answer conn value => rfl
  | lose => rfl
  | report conn cause => rfl
  | discard cause => rfl

end Call

namespace Crowd

variable {α : Type} {u u' : Crowd α} {e : Event α} {n : Nat}

def dialers (u : Crowd α) : Nat := u.calls.countP fun slot => slot.any Call.isDialing

/-- Whether a call gets the connection that it was making with the event. -/
def connects (u : Crowd α) : Event α → Bool
  | .step k signal => (u.call? k).any fun call => call.connects signal
  | _ => false

def connections (u : Crowd α) : List (Event α) → Nat
  | [] => 0
  | e :: rest => (u.connects e).toNat + (u.after e).connections rest

/-- Calls make connections one at a time, and only where there is none; the health follows them. -/
structure SingleFlight (start : Crowd α) (events : List (Event α)) : Prop where
  one : (start.play events).dialers ≤ 1
  begins : ∀ e, (start.play events).dialers < ((start.play events).after e).dialers →
    (start.play events).dialers = 0 ∧ (start.play events).pool.cached = none
  alone : (start.play events).dialers ≠ 0 → (start.play events).pool.cached = none
  healthy : (start.play events).pool.health.status = .healthy →
    (start.play events).pool.cached.isSome = true
  /-- The counter starts over at its end. -/
  counted : (start.play events).pool.health.reconnections =
    (start.connections events - 1) % Nat.pow 2 32

/-- What a pool and its calls have in common after `n` connections. -/
structure Steady (u : Crowd α) (n : Nat) : Prop where
  fit : u.pool.Fit n
  dialers : u.dialers = u.pool.dialing.toNat

theorem steady_create (policy : Breaker.Policy) (now : Span) :
    Steady (create policy now : Crowd α) 0 :=
  ⟨Pool.fit_create policy now, rfl⟩

theorem isDialing_le_dialers {k : Nat} {call : Call α} (hcall : u.call? k = some call) :
    call.isDialing.toNat ≤ u.dialers := by
  cases hdials : call.isDialing with
  | false => exact Nat.zero_le _
  | true =>
      have hmem : some call ∈ u.calls := List.mem_of_getElem? (call?_eq_some.mp hcall)
      exact List.countP_pos_iff.mpr ⟨some call, hmem, hdials⟩

theorem dialers_append : dialers { u with calls := u.calls ++ [some .fresh] } = u.dialers := by
  unfold dialers
  rw [List.countP_append]
  rfl

/-- Whoever takes the place of a call counts instead of it. -/
theorem dialers_set (pool : Pool) {k : Nat} {call : Call α} (hcall : u.call? k = some call)
    (slot : Option (Call α)) :
    dialers { u with pool, calls := u.calls.set k slot } + call.isDialing.toNat =
      u.dialers + (slot.any Call.isDialing).toNat := by
  obtain ⟨hlt, hget⟩ := List.getElem?_eq_some_iff.mp (call?_eq_some.mp hcall)
  have hcount := isDialing_le_dialers hcall
  unfold dialers at hcount ⊢
  rw [List.countP_set hlt, hget, Option.any_some]
  generalize call.isDialing = leaves at hcount ⊢
  generalize slot.any Call.isDialing = comes
  cases leaves
  all_goals
    cases comes
  all_goals
    simp only [Bool.toNat_true, Bool.toNat_false, if_true, if_false, Bool.false_eq_true] at hcount ⊢
    omega

/-- Whoever makes a connection has put up the mark. -/
theorem Steady.dials (hsteady : Steady u n) {k : Nat} {call : Call α}
    (hcall : u.call? k = some call) (hdials : call.isDialing = true) : u.pool.dialing = true := by
  have hcount := isDialing_le_dialers hcall
  rw [hdials, hsteady.dialers] at hcount
  cases hmark : u.pool.dialing with
  | true => rfl
  | false => simp [hmark] at hcount

/-- A call that is held up makes no connection. -/
theorem not_connects_of_stuck (hstuck : ∀ k signal, e = .step k signal → ∀ call,
    u.call? k = some call → call.step u.now signal u.pool = none) : u.connects e = false := by
  unfold connects
  split
  case h_1 k signal =>
    by_contra hnot
    obtain ⟨call, hcall, hconnects⟩ := (Option.any_eq_true _ _).mp (Bool.not_eq_false _ ▸ hnot)
    have hnone := hstuck k signal rfl call hcall
    unfold Call.connects at hconnects
    split at hconnects
    · cases hnone
    · cases hconnects
  case h_2 => rfl

/-- At most one call is making a connection, and the pool knows of it, before and after every
event. -/
theorem Steady.change (hsteady : Steady u n) (hchange : Change u e u') :
    Steady u' (n + (u.connects e).toNat) := by
  cases hchange with
  | call =>
      refine ⟨hsteady.fit, ?_⟩
      rw [dialers_append]
      exact hsteady.dialers
  | move k signal call call' pool hcall hmove =>
      have hdials := hsteady.dials hcall
      constructor
      case fit =>
        simpa only [connects, hcall, Option.any_some] using hmove.fit hsteady.fit hdials
      case dialers =>
        have hcount := dialers_set pool hcall (some call')
        have hmark := hmove.dialing hdials
        rw [Option.any_some, hsteady.dialers] at hcount
        exact Nat.add_right_cancel (hcount.trans hmark.symm)
  | drop k call hcall =>
      constructor
      case fit => exact hsteady.fit.giveUp call
      case dialers =>
        have hcount := dialers_set (call.giveUp u.pool) hcall none
        have hdials := hsteady.dials hcall
        rw [hsteady.dialers] at hcount
        simp only [Call.dialing_giveUp]
        cases hcall : call.isDialing with
        | false => simpa [hcall] using hcount
        | true => simpa [hcall, hdials hcall] using hcount
  | stay e hstuck =>
      have hnot : u.connects e = false := not_connects_of_stuck hstuck
      rw [hnot]
      exact hsteady
  | pass d => exact ⟨hsteady.fit, hsteady.dialers⟩
  | look => exact ⟨hsteady.fit.of_eq rfl rfl rfl, hsteady.dialers⟩

/-- Where more calls make a connection than before, nobody did before. -/
theorem Steady.marks_of_lt {m : Nat} (hsteady : Steady u n) (hsteady' : Steady u' m)
    (hlt : u.dialers < u'.dialers) : u.pool.dialing = false ∧ u'.pool.dialing = true := by
  rw [hsteady.dialers, hsteady'.dialers] at hlt
  cases hmark : u.pool.dialing
  all_goals
    cases hmark' : u'.pool.dialing
  all_goals
    simp [hmark, hmark'] at hlt ⊢

theorem steady_play (hsteady : Steady u n) (events : List (Event α)) :
    Steady (u.play events) (n + u.connections events) := by
  induction events generalizing u n with
  | nil => exact hsteady
  | cons e rest ih =>
      have hrest := ih (hsteady.change (u.change_after e))
      rw [Nat.add_assoc] at hrest
      exact hrest

/-- Calls make connections one at a time, in every run of any number of calls. -/
theorem singleFlight (policy : Breaker.Policy) (now : Span) (events : List (Event α)) :
    SingleFlight (create policy now) events := by
  have hsteady := steady_play (steady_create policy now) events
  rw [Nat.zero_add] at hsteady
  constructor
  case one => exact hsteady.dialers.trans_le (Bool.toNat_le _)
  case begins =>
    intro e hmore
    have hafter := hsteady.change (change_after _ e)
    obtain ⟨hfree, hbegun⟩ := hsteady.marks_of_lt hafter hmore
    have hdials : ((create policy now).play events).dials e = true := by
      simp [dials, hfree, hbegun]
    refine ⟨?_, (waits_of_dials hdials).2⟩
    rw [hsteady.dialers, hfree]
    rfl
  case alone =>
    intro hdialers
    apply hsteady.fit.alone
    cases hmark : ((create policy now).play events).pool.dialing with
    | true => rfl
    | false => simp [hsteady.dialers, hmark] at hdialers
  case healthy => exact hsteady.fit.healthy
  case counted => exact hsteady.fit.counted

end Crowd
end Rollcall.Redis
