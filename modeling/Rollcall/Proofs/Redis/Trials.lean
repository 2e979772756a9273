import Rollcall.Proofs.Redis.Execution
import Rollcall.Redis.Server

/-!
What calls count for.

Each call that is let through ends in one success or one failure, and one would expect the breaker
to count that. A call that makes a connection counts a success beside it (`Trial.Follows`). So the
breaker is compared with one that counts every call once (`Audited`): they differ as soon as that
success makes a difference, and at no other call (`History.audited_iff`).
-/

namespace Rollcall.Redis

inductive Verdict where
  | refused
  | failed
  | ok
deriving DecidableEq, Repr

def Verdict.of {α : Type} : Except CallFailure α → Verdict
  | .ok _ => .ok
  | .error .circuitOpen => .refused
  | .error (.failed _) => .failed

/-- What is known of a call that is over. -/
structure Trial where
  startedAt : Span
  endedAt : Span
  /-- The breaker once the call had asked it. -/
  found : Breaker
  /-- The breaker when the call was over. -/
  left : Breaker
  /-- Whether the call made a connection. -/
  connected : Bool
  verdict : Verdict
deriving Repr

/-- One outcome recorded; a call that was refused has none. -/
def Verdict.record (v : Verdict) (b : Breaker) (now : Span) : Breaker :=
  match v with
  | .refused => b
  | .failed => b.recordFailure now
  | .ok => b.recordSuccess now

/-- A breaker that is asked by a call and hears of its outcome once. -/
def Trial.judge (t : Trial) (b : Breaker) : Breaker :=
  t.verdict.record (b.refresh t.startedAt) t.endedAt

def judgeAll (b : Breaker) (trials : List Trial) : Breaker := trials.foldl (fun b t => t.judge b) b

/-- After every call the breaker shows what one shows that heard of the outcome of each call
once. -/
def Audited (b : Breaker) : List Trial → Prop
  | [] => True
  | t :: rest => (∀ now, t.left.view now = (t.judge b).view now) ∧ Audited (t.judge b) rest

namespace Client

variable {σ α : Type} [Network σ]

def trial (c : Client σ) (dialog : Dialog α) : Trial where
  startedAt := Network.now c.net
  endedAt := Network.now (c.execute dialog).2.net
  found := (c.pool.grant (Network.now c.net)).2.breaker
  left := (c.execute dialog).2.pool.breaker
  connected := c.pool.made < (c.execute dialog).2.pool.made
  verdict := .of (c.execute dialog).1

/-- Calls one after the other, with any pauses, in which the network may become whatever it
likes. -/
inductive History (policy : Breaker.Policy) (start : Span) : Client σ → List Trial → Prop where
  | create (net : σ) (hnow : Network.now net = start) :
      History policy start (Client.create policy net) []
  | execute {c : Client σ} {trials : List Trial} {β : Type} (dialog : Dialog β)
      (earlier : History policy start c trials) :
      History policy start (c.execute dialog).2 (trials ++ [c.trial dialog])
  | pause {c : Client σ} {trials : List Trial} (net : σ) (earlier : History policy start c trials) :
      History policy start { c with net } trials

end Client

namespace Trial

/-- How a call follows on a breaker: one that makes a connection has a success counted for it. -/
structure Follows (t : Trial) (b : Breaker) : Prop where
  found : t.found = b.refresh t.startedAt
  refused : t.verdict = .refused ↔ t.found.circuit = .opened
  unconnected : t.verdict = .refused → t.connected = false
  left : ∃ moment, t.left =
    t.verdict.record (if t.connected then t.found.recordSuccess moment else t.found) t.endedAt

/-- The success that is counted for the connection makes no difference. -/
structure Harmless (t : Trial) : Prop where
  /-- While the circuit is closed it wipes out the failures. -/
  closed : t.connected = true → t.found.circuit = .closed → t.verdict = .ok ∨ t.found.failures = 0
  /-- It may be the last success that is needed to close the circuit. -/
  last : t.connected = true → t.found.circuit = .halfOpen →
    t.found.policy.successThreshold ≤ t.found.successes + 1 →
      t.verdict = .ok ∨ t.found.policy.failureThreshold ≤ 1
  /-- Before that, it is counted for a success a second time. -/
  early : t.connected = true → t.found.circuit = .halfOpen →
    t.found.successes + 1 < t.found.policy.successThreshold → t.verdict ≠ .ok

instance : DecidablePred Harmless := fun t =>
  decidable_of_iff
    ((t.connected = true → t.found.circuit = .closed → t.verdict = .ok ∨ t.found.failures = 0) ∧
      (t.connected = true → t.found.circuit = .halfOpen →
        t.found.policy.successThreshold ≤ t.found.successes + 1 →
          t.verdict = .ok ∨ t.found.policy.failureThreshold ≤ 1) ∧
      (t.connected = true → t.found.circuit = .halfOpen →
        t.found.successes + 1 < t.found.policy.successThreshold → t.verdict ≠ .ok))
    ⟨fun ⟨hclosed, hlast, hearly⟩ => ⟨hclosed, hlast, hearly⟩,
      fun hharmless => ⟨hharmless.closed, hharmless.last, hharmless.early⟩⟩

section Follows

variable {t : Trial} {b r : Breaker}

/-- Breakers that are alike stay so when they hear of the same outcome. -/
theorem alike_record (halike : b.Alike r) (v : Verdict) (now : Span) :
    (v.record b now).Alike (v.record r now) := by
  cases v with
  | refused => exact halike
  | failed => exact halike.recordFailure now
  | ok => exact halike.recordSuccess now

theorem sound_record (hsound : b.Sound) (v : Verdict) (now : Span) : (v.record b now).Sound := by
  cases v with
  | refused => exact hsound
  | failed => exact hsound.recordFailure now
  | ok => exact hsound.recordSuccess now

theorem Follows.sound (hfollows : t.Follows b) (hsound : b.Sound) : t.left.Sound := by
  obtain ⟨moment, hleft⟩ := hfollows.left
  have hfound : t.found.Sound := hfollows.found ▸ hsound.refresh t.startedAt
  rw [hleft]
  refine sound_record ?_ _ _
  split
  · exact hfound.recordSuccess moment
  · exact hfound

/-- Where the success for the connection makes no difference, the breakers stay alike. -/
theorem Follows.alike (hfollows : t.Follows b) (hsound : b.Sound) (halike : b.Alike r)
    (hharmless : t.Harmless) : t.left.Alike (t.judge r) := by
  have hfound : t.found.Alike (r.refresh t.startedAt) := hfollows.found ▸ halike.refresh t.startedAt
  have hsound : t.found.Sound := hfollows.found ▸ hsound.refresh t.startedAt
  obtain ⟨moment, hleft⟩ := hfollows.left
  rw [hleft, judge]
  cases hconnected : t.connected with
  | false => exact alike_record hfound _ _
  | true =>
      rw [if_pos rfl]
      cases hverdict : t.verdict with
      | refused => simp [hfollows.unconnected hverdict] at hconnected
      | ok =>
          cases hcircuit : t.found.circuit with
          | closed => exact hfound.success_twice_closed hcircuit t.endedAt
          | opened => simp [hfollows.refused.mpr hcircuit] at hverdict
          | halfOpen =>
              refine hfound.success_twice_last hcircuit (Nat.not_lt.mp fun hearly => ?_) t.endedAt
              exact hharmless.early hconnected hcircuit hearly hverdict
      | failed =>
          have hunsuccessful : t.verdict ≠ .ok := by simp [hverdict]
          cases hcircuit : t.found.circuit with
          | closed =>
              have hnone := (hharmless.closed hconnected hcircuit).resolve_left hunsuccessful
              exact hfound.failure_after_closed hcircuit hnone t.endedAt
          | opened => simp [hfollows.refused.mpr hcircuit] at hverdict
          | halfOpen =>
              by_cases hlast : t.found.policy.successThreshold ≤ t.found.successes + 1
              · have hsingle :=
                  (hharmless.last hconnected hcircuit hlast).resolve_left hunsuccessful
                exact hfound.failure_after_last hcircuit hsound hlast hsingle t.endedAt
              · exact hfound.failure_after_early hcircuit (Nat.not_le.mp hlast) t.endedAt

/-- Where the breakers show the same after the call, the success made no difference. -/
theorem Follows.harmless (hfollows : t.Follows b) (halike : b.Alike r) {now : Span}
    (hsame : t.left.view now = (t.judge r).view now) : t.Harmless := by
  have hfound : t.found.Alike (r.refresh t.startedAt) := hfollows.found ▸ halike.refresh t.startedAt
  obtain ⟨moment, hleft⟩ := hfollows.left
  have hfails (hconnected : t.connected = true) (hunsuccessful : t.verdict ≠ .ok) :
      ((t.found.recordSuccess moment).recordFailure t.endedAt).view now =
        ((r.refresh t.startedAt).recordFailure t.endedAt).view now := by
    have hverdict : t.verdict = .failed := by
      cases hv : t.verdict with
      | ok => exact absurd hv hunsuccessful
      | failed => rfl
      | refused => simp [hfollows.unconnected hv] at hconnected
    rwa [hleft, judge, hverdict, hconnected, if_pos rfl] at hsame
  constructor
  case closed =>
    intro hconnected hcircuit
    by_cases hverdict : t.verdict = .ok
    · exact .inl hverdict
    · exact .inr (Breaker.failures_after_closed hfound hcircuit (hfails hconnected hverdict))
  case last =>
    intro hconnected hcircuit hlast
    by_cases hverdict : t.verdict = .ok
    · exact .inl hverdict
    · exact .inr (Breaker.single_after_last hfound hcircuit hlast (hfails hconnected hverdict))
  case early =>
    intro hconnected hcircuit hearly hverdict
    rw [hleft, judge, hverdict, hconnected, if_pos rfl] at hsame
    exact Breaker.success_twice_early hfound hcircuit hearly t.endedAt now hsame

end Follows
end Trial

namespace Client

variable {σ α : Type} [Network σ] {c : Client σ} {policy : Breaker.Policy} {start : Span}
  {trials : List Trial}

/-- A call on a pool that is free follows on its breaker as `Follows` has it. -/
theorem trial_follows (dialog : Dialog α) (hfree : c.pool.dialing = false) :
    (c.trial dialog).Follows c.pool.breaker := by
  have hexecution := c.execution dialog hfree
  have hfound : (c.trial dialog).found = c.pool.breaker.refresh (Network.now c.net) := rfl
  have hsettled (p : Pool) (now : Span) (answer : Except Failure α) :
      (p.settle now answer).2.breaker =
        (Verdict.of (p.settle now answer).1).record p.breaker now ∧
      Verdict.of (p.settle now answer).1 ≠ .refused := by
    cases answer with
    | ok value => exact ⟨rfl, nofun⟩
    | error cause =>
        refine ⟨?_, nofun⟩
        simp only [Pool.settle]
        split <;> rfl
  generalize hresult : c.execute dialog = r at hexecution
  cases hexecution with
  | refused p hgrant =>
      obtain ⟨hbreaker, hopened, _, _, hmade, _⟩ := Pool.granted_of_grant hgrant
      have hunconnected : (c.trial dialog).connected = false := by
        simp [trial, hresult, hmade]
      refine ⟨rfl, ?_, fun _ => hunconnected, .zero, ?_⟩
      · rw [hfound, ← hbreaker]
        simpa [trial, hresult, Verdict.of] using hopened
      · rw [hunconnected, hfound, ← hbreaker]
        simp [trial, hresult, Verdict.of, Verdict.record]
  | unreachable p cause net hgrant hcached hdial =>
      obtain ⟨hbreaker, hopened, _, _, hmade, _⟩ := Pool.granted_of_grant hgrant
      have hunconnected : (c.trial dialog).connected = false := by
        simp [trial, hresult, hmade, Pool.failDial, Pool.beginDial]
      refine ⟨rfl, ?_, fun _ => hunconnected, .zero, ?_⟩
      · rw [hfound, ← hbreaker]
        simpa [trial, hresult, Verdict.of] using hopened
      · rw [hunconnected, hfound, ← hbreaker]
        simp [trial, hresult, Verdict.of, Verdict.record, Pool.failDial, Pool.beginDial]
  | answered p conn pool net net' answer hgrant hreaches htalk =>
      obtain ⟨hbreaker, hopened, _, _, hmade, _⟩ := Pool.granted_of_grant hgrant
      obtain ⟨hleft, hheard⟩ := hsettled pool (Network.now net') answer
      have hverdict : (c.trial dialog).verdict =
          Verdict.of (pool.settle (Network.now net') answer).1 := by simp [trial, hresult]
      have hleft : (c.trial dialog).left = (c.trial dialog).verdict.record pool.breaker
          (c.trial dialog).endedAt := by
        rw [hverdict]
        simpa [trial, hresult] using hleft
      have hnotRefused : (c.trial dialog).verdict ≠ .refused := hverdict ▸ hheard
      refine ⟨rfl, ?_, fun hrefused => absurd hrefused hnotRefused, Network.now net, ?_⟩
      · rw [hfound, ← hbreaker]
        simpa [hnotRefused] using hopened
      · rw [hleft, hfound, ← hbreaker]
        cases hreaches with
        | finds =>
            have hunconnected : (c.trial dialog).connected = false := by
              simp [trial, hresult, Pool.made_settle, hmade]
            simp [hunconnected]
        | makes =>
            have hconnected : (c.trial dialog).connected = true := by
              simp [trial, hresult, Pool.made_settle, Pool.endDial, Pool.beginDial, hmade]
            simp [hconnected, Pool.endDial, Pool.beginDial]

namespace History

theorem dialing (history : History policy start c trials) : c.pool.dialing = false := by
  induction history with
  | create => rfl
  | execute dialog earlier ih => exact dialing_execution (execution _ dialog ih) ih
  | pause net earlier ih => exact ih

theorem sound (history : History policy start c trials) :
    c.pool.breaker.Sound ∧ c.pool.breaker.policy = policy := by
  induction history with
  | create => exact ⟨.create policy _, rfl⟩
  | execute dialog earlier ih =>
      have hfollows := trial_follows dialog earlier.dialing
      obtain ⟨moment, hleft⟩ := hfollows.left
      refine ⟨hfollows.sound ih.1, ?_⟩
      have hkept (v : Verdict) (b : Breaker) (now : Span) : (v.record b now).policy = b.policy := by
        cases v <;> simp [Verdict.record]
      refine Eq.trans ?_ ih.2
      refine (congrArg Breaker.policy hleft).trans ((hkept _ _ _).trans ?_)
      split <;> simp [hfollows.found]
  | pause net earlier ih => exact ih

/-- As long as no success for a connection makes a difference, the breaker is like one that counts
every call once. -/
theorem alike (history : History policy start c trials) (hharmless : ∀ t ∈ trials, t.Harmless) :
    c.pool.breaker.Alike (judgeAll (.create policy start) trials) := by
  induction history with
  | create net hnow =>
      subst hnow
      exact .refl _
  | @execute c trials β dialog earlier ih =>
      have hbefore := ih fun t ht => hharmless t (List.mem_append_left _ ht)
      have hlast := hharmless (c.trial dialog) (List.mem_append_right _ (List.mem_singleton_self _))
      rw [judgeAll, List.foldl_append]
      exact (trial_follows dialog earlier.dialing).alike earlier.sound.1 hbefore hlast
  | pause net earlier ih => exact ih hharmless

end History

/-- Breakers are compared after every call, the last one included. -/
theorem audited_append (b : Breaker) (trials : List Trial) (t : Trial) :
    Audited b (trials ++ [t]) ↔
      Audited b trials ∧ ∀ now, t.left.view now = (t.judge (judgeAll b trials)).view now := by
  induction trials generalizing b with
  | nil => simp [Audited, judgeAll]
  | cons first rest ih => simp [Audited, judgeAll, ih, and_assoc]

/-- In any sequence of calls, whatever connecting and talking come to and whatever the pauses: the
breaker shows after each call what one shows that heard of every outcome once, exactly if the
success that is counted for a connection makes a difference at none of them. -/
theorem History.audited_iff (history : History policy start c trials) :
    Audited (.create policy start) trials ↔ ∀ t ∈ trials, t.Harmless := by
  induction history with
  | create => simp [Audited]
  | @execute c trials β dialog earlier ih =>
      have hfollows := trial_follows dialog earlier.dialing
      rw [audited_append, ih]
      constructor
      · rintro ⟨hbefore, hsame⟩ t ht
        rcases List.mem_append.mp ht with hearlier | hlast
        · exact hbefore t hearlier
        · rw [List.mem_singleton.mp hlast]
          exact hfollows.harmless (earlier.alike hbefore) (hsame .zero)
      · intro hharmless
        have hbefore (t : Trial) (ht : t ∈ trials) := hharmless t (List.mem_append_left _ ht)
        have hlast :=
          hharmless (c.trial dialog) (List.mem_append_right _ (List.mem_singleton_self _))
        exact ⟨hbefore, (hfollows.alike earlier.sound.1 (earlier.alike hbefore) hlast).view_eq⟩
  | pause net earlier ih => exact ih

/-- Two failures open the circuit. The store cuts the connection at each of two commands. -/
def cutting : Client Server :=
  .create ⟨2, 2, .ofSeconds 3600⟩ (.create true (.inOrder [.cut, .cut]))

def headcount : Dialog Nat := .count "online_users"

/-- Each of two calls makes a connection, and fails. The success that is counted for the second
connection wipes out the first failure, so the circuit stays closed. -/
theorem failures_wiped_out : ∃ (c : Client Server) (trials : List Trial),
    History ⟨2, 2, .ofSeconds 3600⟩ .zero c trials ∧
      trials.map Trial.verdict = [.failed, .failed] ∧ c.pool.breaker.view .zero = (.closed, 1, 0) ∧
      (judgeAll (.create ⟨2, 2, .ofSeconds 3600⟩ .zero) trials).view .zero = (.opened, 2, 0) ∧
      ¬ Audited (.create ⟨2, 2, .ofSeconds 3600⟩ .zero) trials := by
  have first : History ⟨2, 2, .ofSeconds 3600⟩ .zero cutting [] := .create _ rfl
  refine ⟨_, _, .execute headcount (.execute headcount first), by decide, by decide, by decide, ?_⟩
  rintro ⟨_, hsecond, _⟩
  exact absurd (hsecond .zero) (by decide)

/-- A store that answers the first and the third of three commands, and reports an error between. -/
def answering : Client Server :=
  .create ⟨2, 2, .ofSeconds 3600⟩
    (.create true (.inOrder [.reply (.int 1), .reply (.error "ERR"), .reply (.int 1)]))

theorem audited_iff_answering : ∃ (c : Client Server) (trials : List Trial),
    History ⟨2, 2, .ofSeconds 3600⟩ .zero c trials ∧
      trials.map Trial.verdict = [.ok, .failed, .ok] ∧
      trials.map Trial.connected = [true, false, false] ∧
      Audited (.create ⟨2, 2, .ofSeconds 3600⟩ .zero) trials := by
  have first : History ⟨2, 2, .ofSeconds 3600⟩ .zero answering [] := .create _ rfl
  have third := History.execute headcount (.execute headcount (.execute headcount first))
  exact ⟨_, _, third, by decide, by decide, third.audited_iff.mpr (by decide)⟩

end Client
end Rollcall.Redis
