import Rollcall.Proofs.Redis.SingleFlight

/-!
Lost connections.

A call that finds its connection lost forgets whatever connection is kept by then. That is the lost
one as long as nobody is still busy with an older connection when one is made (`Crowd.keepsFresh`);
otherwise a call that notices the loss late throws the new connection away.
-/

namespace Rollcall.Redis

variable {α : Type}

/-- A call that has a connection, or has one to forget. -/
def Call.isBusy : Call α → Bool
  | .talking _ => true
  | .discarding _ => true
  | _ => false

def Call.isTalkingOn (conn : Nat) : Call α → Bool
  | .talking conn' => conn' = conn
  | _ => false

namespace Call

variable {now : Span} {p p' : Pool} {call call' : Call α} {signal : Signal α}

/-- Only who has made a connection and who forgets one changes what is kept. -/
theorem Move.cached (hmove : Move now p call signal call' p') :
    p'.cached = p.cached ∨ call.connects signal = true ∨
      (p'.cached = none ∧ ∃ cause, call = .discarding cause) := by
  cases hmove with
  | grant p' hgrant => exact .inl (Pool.granted_of_grant hgrant).cached
  | refuse p' hgrant => exact .inl (Pool.granted_of_grant hgrant).cached
  | connect => exact .inr (.inl rfl)
  | discard cause => exact .inr (.inr ⟨rfl, cause, rfl⟩)
  | find => exact .inl rfl
  | miss => exact .inl rfl
  | dial => exact .inl rfl
  | fail => exact .inl rfl
  | answer => exact .inl rfl
  | lose => exact .inl rfl
  | report => exact .inl rfl

theorem isDialing_of_connects (call : Call α) (hconnects : call.connects signal = true) :
    call.isDialing = true := by
  unfold connects at hconnects
  split at hconnects
  · rfl
  · cases hconnects

/-- Whoever begins to talk does so over the connection that is kept. -/
theorem Move.talking {conn : Nat} (hmove : Move now p call signal (.talking conn) p') :
    p'.cached = some conn := by
  cases hmove with
  | find _ _ _ hcached => assumption
  | connect => rfl

/-- A connection is to be forgotten only after a command on it failed in a way that ends it. -/
theorem Move.discarding {cause : Failure} (hmove : Move now p call signal (.discarding cause) p') :
    p' = p ∧ signal = .answered (.error cause) ∧ cause.endsConnection = true ∧
      ∃ conn, call = .talking conn := by
  cases hmove with
  | lose conn _ hends => exact ⟨rfl, rfl, hends, conn, rfl⟩

end Call

namespace Crowd

/-- Whether a command on the connection fails with the event in a way that ends it. -/
def loses (u : Crowd α) (conn : Nat) : Event α → Bool
  | .step k (.answered (.error cause)) =>
      cause.endsConnection && (u.call? k).any fun call => call.isTalkingOn conn
  | _ => false

def hasLost (u : Crowd α) (conn : Nat) : List (Event α) → Bool
  | [] => false
  | e :: rest => u.loses conn e || (u.after e).hasLost conn rest

/-- In a run a connection is kept until a command on it has lost it. -/
def KeepsFresh (start : Crowd α) (events : List (Event α)) : Prop :=
  ∀ before e rest conn, events = before ++ e :: rest → (start.play before).pool.cached = some conn →
    ((start.play before).after e).pool.cached ≠ some conn → start.hasLost conn before = true

/-- Nobody is busy with a connection when one is made. -/
def ConnectsIdle (start : Crowd α) (events : List (Event α)) : Prop :=
  ∀ before e rest, events = before ++ e :: rest → (start.play before).connects e = true →
    ∀ k call, (start.play before).call? k = some call → call.isBusy = false

variable {start u u' : Crowd α} {events : List (Event α)} {e : Event α} {n : Nat}

theorem hasLost_append {conn : Nat} : start.hasLost conn (events ++ [e]) =
    (start.hasLost conn events || (start.play events).loses conn e) := by
  induction events generalizing start with
  | nil => simp [hasLost, play]
  | cons first rest ih => simp [hasLost, ih, play, Bool.or_assoc]

theorem ConnectsIdle.of_append (hidle : start.ConnectsIdle (events ++ [e])) :
    start.ConnectsIdle events := by
  intro before e' rest hevents
  exact hidle before e' (rest ++ [e]) (by simp [hevents])

/-- Whoever is busy is busy with the connection that is kept, if one is kept; and who is to forget
it has lost it. -/
structure Current (start : Crowd α) (events : List (Event α)) (u : Crowd α) : Prop where
  talking : ∀ k conn, u.call? k = some (.talking conn) →
    u.pool.cached = none ∨ u.pool.cached = some conn
  discarding : ∀ k cause conn, u.call? k = some (.discarding cause) → u.pool.cached = some conn →
    start.hasLost conn events = true

theorem current_create (policy : Breaker.Policy) (now : Span) :
    Current (create policy now) [] (create policy now : Crowd α) where
  talking k conn hcall := by cases hcall
  discarding k cause conn hcall := by cases hcall

/-- What leaves the connection that is kept and those who are busy alone. -/
theorem Current.of_eq (hcurrent : start.Current events u) (e : Event α)
    (hcached : u'.pool.cached = u.pool.cached)
    (hcalls : ∀ k call, u'.call? k = some call → call.isBusy = true → u.call? k = some call) :
    start.Current (events ++ [e]) u' where
  talking k conn hcall := by
    rw [hcached]
    exact hcurrent.talking k conn (hcalls k _ hcall rfl)
  discarding k cause conn hcall hkept := by
    rw [hasLost_append, hcurrent.discarding k cause conn (hcalls k _ hcall rfl) (hcached ▸ hkept),
      Bool.true_or]

theorem Current.move {k : Nat} {signal : Signal α} {call call' : Call α} {pool : Pool}
    (hcurrent : start.Current events (start.play events))
    (hcall : (start.play events).call? k = some call)
    (hmove : call.Move (start.play events).now (start.play events).pool signal call' pool)
    (hidle : call.connects signal = true → ∀ j other, (start.play events).call? j = some other →
      other.isBusy = false) :
    start.Current (events ++ [.step k signal])
      { start.play events with pool, calls := (start.play events).calls.set k (some call') } := by
  have hkept := hmove.cached
  constructor
  case talking =>
    intro j conn hlater
    rw [call?_set _ hcall] at hlater
    split at hlater
    case isTrue =>
      cases hlater
      exact .inr hmove.talking
    case isFalse =>
      rcases hkept with hsame | hconnects | ⟨hnone, _⟩
      · exact hsame ▸ hcurrent.talking j conn hlater
      · cases hidle hconnects j _ hlater
      · exact .inl hnone
  case discarding =>
    intro j cause conn hlater hcached
    rw [call?_set _ hcall] at hlater
    split at hlater
    case isTrue =>
      cases hlater
      obtain ⟨rfl, rfl, hends, conn', rfl⟩ := hmove.discarding
      have hsame : (start.play events).pool.cached = some conn' :=
        (hcurrent.talking k conn' hcall).resolve_left fun hnone => by simp [hnone] at hcached
      obtain rfl : conn' = conn := Option.some.inj (hsame.symm.trans hcached)
      rw [hasLost_append, Bool.or_eq_true]
      exact .inr (by simp [loses, hcall, hends, Call.isTalkingOn])
    case isFalse =>
      rcases hkept with hsame | hconnects | ⟨hnone, _⟩
      · rw [hasLost_append, hcurrent.discarding j cause conn hlater (hsame ▸ hcached), Bool.true_or]
      · cases hidle hconnects j _ hlater
      · simp [hnone] at hcached

/-- An event keeps those who are busy on the current connection, if it makes one only while nobody
is busy. -/
theorem Current.change (hcurrent : start.Current events (start.play events))
    (hidle : (start.play events).connects e = true →
      ∀ k call, (start.play events).call? k = some call →
      call.isBusy = false)
    (hchange : Change (start.play events) e u') : start.Current (events ++ [e]) u' := by
  cases hchange with
  | call =>
      refine hcurrent.of_eq _ rfl fun k call hcall hbusy => ?_
      rw [call?_append] at hcall
      split at hcall
      case isTrue =>
        cases hcall
        cases hbusy
      case isFalse => exact hcall
  | move k signal call call' pool hcall hmove =>
      refine hcurrent.move hcall hmove fun hconnects => hidle ?_
      simpa [connects, hcall] using hconnects
  | drop k call hcall =>
      refine hcurrent.of_eq _ (call.cached_giveUp _) fun j other hother _ => ?_
      rw [call?_set _ hcall] at hother
      split at hother
      case isTrue => cases hother
      case isFalse => exact hother
  | stay => exact hcurrent.of_eq _ rfl fun _ _ hcall _ => hcall
  | pass => exact hcurrent.of_eq _ rfl fun _ _ hcall _ => hcall
  | look => exact hcurrent.of_eq _ rfl fun _ _ hcall _ => hcall

theorem current_play (policy : Breaker.Policy) (now : Span)
    (hidle : ConnectsIdle (create policy now) events) :
    Current (create policy now) events ((create policy now).play events) := by
  induction events using List.reverseRecOn with
  | nil => exact current_create policy now
  | append_singleton events e ih =>
      rw [play_append]
      exact (ih hidle.of_append).change (hidle events e [] rfl) (change_after _ e)

/-- Where nobody is busy with an older connection when one is made, each is kept until a command on
it has lost it. -/
theorem keepsFresh (policy : Breaker.Policy) (now : Span)
    (hidle : ConnectsIdle (create policy now) events) : KeepsFresh (create policy now) events := by
  intro before e rest conn hevents hcached hforgets
  have hbefore : ConnectsIdle (create policy now) before := by
    intro first e' second hfirst
    exact hidle first e' (second ++ e :: rest) (by simp [hevents, hfirst])
  have hcurrent := current_play policy now hbefore
  have hsteady := steady_play (steady_create policy now) before
  have hchange := ((create policy now).play before).change_after e
  generalize ((create policy now).play before).after e = u' at hforgets hchange
  cases hchange with
  | move k signal call call' pool hcall hmove =>
      rcases hmove.cached with hsame | hconnects | ⟨_, cause, rfl⟩
      · exact absurd (hsame.trans hcached) hforgets
      · have hdials := hsteady.dials hcall (call.isDialing_of_connects hconnects)
        simp [hsteady.fit.alone hdials] at hcached
      · exact hcurrent.discarding k cause conn hcall hcached
  | drop k call => exact absurd ((call.cached_giveUp _).trans hcached) hforgets
  | call => exact absurd hcached hforgets
  | stay => exact absurd hcached hforgets
  | pass => exact absurd hcached hforgets
  | look => exact absurd hcached hforgets

/-- Two calls lose their connection. The first one forgets it and a third one makes another, which
the second one throws away. -/
example : ¬ KeepsFresh (create ⟨5, 1, .ofSeconds 30⟩ .zero)
    ([.call, .call, .step 0 .nothing, .step 0 .nothing, .step 0 .nothing,
      .step 0 (.dialed (.ok ())),
      .step 1 .nothing, .step 1 .nothing, .step 0 (.answered (.error .disconnected)),
      .step 1 (.answered (.error .disconnected)), .step 0 .nothing, .call, .step 2 .nothing,
      .step 2 .nothing, .step 2 .nothing, .step 2 (.dialed (.ok ())), .step 1 .nothing] :
        List (Event Unit)) := by
  intro hkeeps
  have hlost := hkeeps
    [.call, .call, .step 0 .nothing, .step 0 .nothing, .step 0 .nothing, .step 0 (.dialed (.ok ())),
      .step 1 .nothing, .step 1 .nothing, .step 0 (.answered (.error .disconnected)),
      .step 1 (.answered (.error .disconnected)), .step 0 .nothing, .call, .step 2 .nothing,
      .step 2 .nothing, .step 2 .nothing, .step 2 (.dialed (.ok ()))] (.step 1 .nothing) [] 1 rfl
    (by decide) (by decide)
  exact absurd hlost (by decide)

end Crowd
end Rollcall.Redis
