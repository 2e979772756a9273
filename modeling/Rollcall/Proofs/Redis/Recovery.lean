import Rollcall.Proofs.Redis.Trials

/-!
When the health recovers.

A connection that is made is what makes the store healthy, and a call that is refused is what makes
the circuit show as open. The circuit itself closes again by probes, which may use the connection
that is there. So the health recovers with the circuit exactly if a connection was made since the
last call that was refused (`History.healthy_iff`).
-/

namespace Rollcall.Redis

/-- A call was refused, and no connection has been made since. -/
def Shadowed (trials : List Trial) : Prop :=
  ∃ earlier t later, trials = earlier ++ t :: later ∧ t.verdict = .refused ∧
    ∀ t ∈ later, t.connected = false

theorem shadowed_append (trials : List Trial) (t : Trial) :
    Shadowed (trials ++ [t]) ↔
      t.verdict = .refused ∨ Shadowed trials ∧ t.connected = false := by
  constructor
  · rintro ⟨earlier, refused, later, hsplit, hrefused, hunconnected⟩
    rcases List.eq_nil_or_concat later with rfl | ⟨between, last, rfl⟩
    · obtain ⟨_, hlast⟩ := List.append_inj' hsplit rfl
      cases hlast
      exact .inl hrefused
    · rw [List.concat_eq_append, ← List.cons_append, ← List.append_assoc] at hsplit
      obtain ⟨hbefore, hlast⟩ := List.append_inj' hsplit rfl
      cases hlast
      refine .inr ⟨⟨earlier, refused, between, hbefore, hrefused, fun t ht => ?_⟩, ?_⟩
      · exact hunconnected t (by simp [ht])
      · exact hunconnected _ (by simp)
  · rintro (hrefused | ⟨⟨earlier, refused, later, rfl, hrefused, hunconnected⟩, hlast⟩)
    · exact ⟨trials, t, [], rfl, hrefused, by simp⟩
    · refine ⟨earlier, refused, later ++ [t], by simp, hrefused, fun other hother => ?_⟩
      rcases List.mem_append.mp hother with hin | hin
      · exact hunconnected other hin
      · rwa [List.mem_singleton.mp hin]

namespace Client

variable {σ α : Type} [Network σ] {c : Client σ} {policy : Breaker.Policy} {start : Span}
  {trials : List Trial}

/-- What is known of the health where a connection is kept. -/
structure Tells (c : Client σ) (trials : List Trial) : Prop where
  /-- The store is healthy unless a call was refused since the connection was made. -/
  status : c.pool.cached ≠ none → (c.pool.health.status = .healthy ↔ ¬ Shadowed trials)
  /-- A call that succeeds leaves a connection behind. -/
  kept : ∀ t, trials.getLast? = some t → t.verdict = .ok → c.pool.cached ≠ none

theorem Tells.create (policy : Breaker.Policy) (net : σ) : (Client.create policy net).Tells [] where
  status hcached := absurd rfl hcached
  kept t hlast := by simp at hlast

/-- What the answer to a call on a connection leaves of this connection and of the health. -/
theorem settle_keeps (p : Pool) (now : Span) (answer : Except Failure α) :
    ((p.settle now answer).2.cached = none ∧ Verdict.of (p.settle now answer).1 = .failed) ∨
      (p.settle now answer).2.cached = p.cached ∧ (p.settle now answer).2.health = p.health := by
  cases answer with
  | ok value => exact .inr ⟨rfl, rfl⟩
  | error cause =>
      simp only [Pool.settle]
      split
      · exact .inl ⟨rfl, rfl⟩
      · exact .inr ⟨rfl, rfl⟩

/-- One more call: a refusal casts a shadow on the health, and a new connection takes it away. -/
theorem Tells.execute (htells : c.Tells trials) (dialog : Dialog α)
    (hfree : c.pool.dialing = false) :
    (c.execute dialog).2.Tells (trials ++ [c.trial dialog]) := by
  have hexecution := c.execution dialog hfree
  have hverdict : (c.trial dialog).verdict = .of (c.execute dialog).1 := rfl
  have hconnected : (c.trial dialog).connected =
      decide (c.pool.made < (c.execute dialog).2.pool.made) := rfl
  have hshadowed := shadowed_append trials (c.trial dialog)
  generalize c.trial dialog = t at hverdict hconnected hshadowed ⊢
  generalize c.execute dialog = r at hexecution hverdict hconnected ⊢
  cases hexecution with
  | refused p hgrant =>
      have hhealth := (Pool.granted_of_grant hgrant).health
      have hrefused : t.verdict = .refused := hverdict
      refine ⟨fun _ => ?_, fun last hlast hok => ?_⟩
      · simp [hhealth, hshadowed, hrefused, StoreHealth.circuitOpened]
      · obtain rfl : t = last := by simpa using hlast
        simp [hrefused] at hok
  | unreachable p cause net hgrant hcached hdial =>
      have hfailed : t.verdict = .failed := hverdict
      refine ⟨fun hkept => absurd hcached hkept, fun last hlast hok => ?_⟩
      obtain rfl : t = last := by simpa using hlast
      simp [hfailed] at hok
  | answered p conn pool net net' answer hgrant hreaches htalk =>
      obtain ⟨_, _, hhealth, hsame, hmade, _⟩ := Pool.granted_of_grant hgrant
      have hheard : t.verdict ≠ .refused := by
        rw [hverdict]
        cases answer <;> simp [Pool.settle, Verdict.of]
      -- the connection in use, and whether the health is as good as it should be
      have hused : pool.cached ≠ none ∧
          (pool.health.status = .healthy ↔ ¬ Shadowed (trials ++ [t])) := by
        cases hreaches with
        | finds _ hcached =>
            have hold : t.connected = false := by simp [hconnected, Pool.made_settle, hmade]
            refine ⟨by simp [hcached], ?_⟩
            rw [hshadowed, hhealth]
            simpa [hheard, hold] using htells.status (by simp [← hsame, hcached])
        | makes _ hcached hdial =>
            have hnew : t.connected = true := by
              simp [hconnected, Pool.made_settle, Pool.endDial, Pool.beginDial, hmade]
            refine ⟨by simp [Pool.endDial], ?_⟩
            rw [hshadowed]
            simp [hheard, hnew, Pool.endDial, StoreHealth.connected]
      obtain ⟨hlives, hstatus⟩ := hused
      rcases settle_keeps pool (Network.now net') answer with ⟨hlost, hfailed⟩ | ⟨hkept, hunchanged⟩
      · refine ⟨fun hcached => absurd hlost hcached, fun last hlast hok => ?_⟩
        obtain rfl : t = last := by simpa using hlast
        rw [hverdict, hfailed] at hok
        cases hok
      · refine ⟨fun _ => ?_, fun _ _ _ => ?_⟩
        · rw [hunchanged]
          exact hstatus
        · rw [hkept]
          exact hlives

namespace History

/-- By induction on the history. -/
theorem tells (history : History policy start c trials) : c.Tells trials := by
  induction history with
  | create net hnow => exact .create policy net
  | execute dialog earlier ih => exact ih.execute dialog earlier.dialing
  | pause net earlier ih => exact ⟨ih.status, ih.kept⟩

end History

/-- In any sequence of calls, whatever connecting and talking come to and whatever the pauses: where
the circuit is closed and the last call succeeded, the store counts as healthy exactly if a
connection was made since the last call that was refused. -/
theorem History.healthy_iff (history : History policy start c trials) {t : Trial}
    (hlast : trials.getLast? = some t) (hok : t.verdict = .ok)
    (hclosed : c.pool.breaker.circuit = .closed) (now : Span) :
    ((c.pool.isHealthy now).1 = true ∧ c.pool.health.status = .healthy) ↔ ¬ Shadowed trials := by
  have htells := history.tells
  have hstatus := htells.status (htells.kept t hlast hok)
  have hallowed : (c.pool.breaker.allow now).1 = true := by
    simp [Breaker.allow, Breaker.refresh_of_not_opened, hclosed]
  rw [← hstatus]
  constructor
  · exact And.right
  · intro hhealthy
    refine ⟨?_, hhealthy⟩
    simp [Pool.isHealthy, StoreHealth.isHealthy, hhealthy, hallowed]

theorem healthy_iff_answering : ∃ (c : Client Server) (trials : List Trial) (t : Trial),
    History ⟨2, 2, .ofSeconds 3600⟩ .zero c trials ∧ trials.getLast? = some t ∧ t.verdict = .ok ∧
      c.pool.breaker.circuit = .closed ∧ (c.pool.isHealthy .zero).1 = true ∧ ¬ Shadowed trials := by
  have first : History ⟨2, 2, .ofSeconds 3600⟩ .zero answering [] := .create _ rfl
  have third := History.execute headcount (.execute headcount (.execute headcount first))
  exact ⟨_, _, _, third, rfl, by decide, by decide, by decide,
    (third.healthy_iff rfl (by decide) (by decide) .zero).mp ⟨by decide, by decide⟩⟩

/-- One failure opens the circuit for a while, and one success closes it again. The store keeps the
connection all the time, and reports an error once. -/
def stumbling : Client Server :=
  .create ⟨1, 1, .ofMillis 100⟩
    (.create true (.inOrder [.reply (.int 1), .reply (.error "ERR"), .reply (.int 1)]))

/-- A call succeeds, one fails, one is refused, and after a pause one succeeds again on the old
connection. The circuit is closed, but the health still says that it is open. -/
theorem closed_but_shadowed : ∃ (c : Client Server) (trials : List Trial) (t : Trial),
    History ⟨1, 1, .ofMillis 100⟩ .zero c trials ∧
      trials.map Trial.verdict = [.ok, .failed, .refused, .ok] ∧ trials.getLast? = some t ∧
      c.pool.breaker.circuit = .closed ∧ (c.pool.isHealthy (Network.now c.net)).1 = false ∧
      c.pool.health.status = .circuitOpen := by
  have first : History ⟨1, 1, .ofMillis 100⟩ .zero stumbling [] := .create _ rfl
  have third := History.execute headcount (.execute headcount (.execute headcount first))
  let refused : Client Server :=
    (((stumbling.execute headcount).2.execute headcount).2.execute headcount).2
  have later := third.pause (Network.sleep (.ofMillis 300) refused.net)
  exact ⟨_, _, _, .execute headcount later, by decide, rfl, by decide, by decide, by decide⟩

end Client
end Rollcall.Redis
