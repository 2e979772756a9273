import Rollcall.Proofs.Redis.Circuit
import Rollcall.Redis.Client

/-!
What a call does that overlaps with no other.

The breaker refuses it, or it finds a connection or makes one, if the network lets it, and goes by
the answer that comes over this connection (`Client.Execution`).
-/

namespace Rollcall.Redis

variable {σ α : Type} [Network σ]

namespace Pool

/-- What becomes of a call and of the pool when the answer has come. -/
def settle (p : Pool) (now : Span) : Except Failure α → Except CallFailure α × Pool
  | .ok value => (.ok value, p.recordSuccess now)
  | .error cause =>
      (.error (.failed cause), (if cause.endsConnection then p.discard else p).recordFailure now)

theorem dialing_settle (p : Pool) (now : Span) (answer : Except Failure α) :
    (p.settle now answer).2.dialing = p.dialing := by
  cases answer with
  | ok value => rfl
  | error cause =>
      simp only [settle]
      split <;> rfl

theorem made_settle (p : Pool) (now : Span) (answer : Except Failure α) :
    (p.settle now answer).2.made = p.made := by
  cases answer with
  | ok value => rfl
  | error cause =>
      simp only [settle]
      split <;> rfl

/-- How a call that was let through comes by a connection. -/
inductive Reaches (p : Pool) (net : σ) : Nat → Pool → σ → Prop where
  | finds (conn : Nat) (hcached : p.cached = some conn) : Reaches p net conn p net
  | makes (net' : σ) (hcached : p.cached = none)
      (hdial : Network.dial p.made net = (.ok (), net')) :
      Reaches p net p.made (p.beginDial.endDial (Network.now net')) net'

end Pool

namespace Client

inductive Execution (c : Client σ) (dialog : Dialog α) :
    Except CallFailure α × Client σ → Prop where
  | refused (p : Pool) (hgrant : c.pool.grant (Network.now c.net) = (false, p)) :
      Execution c dialog (.error .circuitOpen, ⟨p, c.net⟩)
  | unreachable (p : Pool) (cause : Failure) (net : σ)
      (hgrant : c.pool.grant (Network.now c.net) = (true, p)) (hcached : p.cached = none)
      (hdial : Network.dial p.made c.net = (.error cause, net)) :
      Execution c dialog (.error (.failed cause), ⟨p.beginDial.failDial (Network.now net), net⟩)
  | answered (p : Pool) (conn : Nat) (pool : Pool) (net net' : σ) (answer : Except Failure α)
      (hgrant : c.pool.grant (Network.now c.net) = (true, p))
      (hreaches : p.Reaches c.net conn pool net) (htalk : talk conn dialog net = (answer, net')) :
      Execution c dialog ((pool.settle (Network.now net') answer).1,
        ⟨(pool.settle (Network.now net') answer).2, net'⟩)

variable {c : Client σ}

/-- An execution leaves nobody making a connection. -/
theorem dialing_execution {dialog : Dialog α} {r : Except CallFailure α × Client σ}
    (hexecution : c.Execution dialog r) (hfree : c.pool.dialing = false) :
    r.2.pool.dialing = false := by
  cases hexecution with
  | refused p hgrant => exact (Pool.granted_of_grant hgrant).dialing.trans hfree
  | unreachable => rfl
  | answered p conn pool net net' answer hgrant hreaches =>
      refine (pool.dialing_settle _ answer).trans ?_
      cases hreaches with
      | finds => exact (Pool.granted_of_grant hgrant).dialing.trans hfree
      | makes => rfl

section Steps

variable (dialog : Dialog α)

theorem proceed_step {call call' : Call α} {c' : Client σ}
    (hstep : step dialog call c = some (call', c')) (fuel : Nat) :
    proceed dialog (fun _ => false) (fuel + 1) call c =
      proceed dialog (fun _ => false) fuel call' c' := by
  simp [proceed, hstep]

theorem proceed_ended (fuel : Nat) (outcome : Except CallFailure α) :
    proceed dialog (fun _ => false) fuel (.ended outcome) c = (.ended outcome, c) := by
  cases fuel with
  | zero => rfl
  | succ fuel => simp [proceed, step, Call.step]

theorem step_fresh {granted : Bool} {p : Pool}
    (hgrant : c.pool.grant (Network.now c.net) = (granted, p)) :
    step dialog .fresh c =
      some (if granted then .looking else .ended (.error .circuitOpen), ⟨p, c.net⟩) := by
  cases granted <;> simp [step, Call.step, hgrant]

theorem step_looking (hfree : c.pool.dialing = false) :
    step dialog .looking c = some ((c.pool.cached.map Call.talking).getD .claiming, c) := by
  cases hcached : c.pool.cached <;> simp [step, Call.step, hfree, hcached]

theorem step_claiming (hfree : c.pool.dialing = false) (hcached : c.pool.cached = none) :
    step dialog .claiming c = some (.dialing, ⟨c.pool.beginDial, c.net⟩) := by
  simp [step, Call.step, hfree, hcached]

theorem step_dialing {result : Except Failure Unit} {net : σ}
    (hdial : Network.dial c.pool.made c.net = (result, net)) :
    step dialog .dialing c = some (match result with
      | .ok () => (.talking c.pool.made, ⟨c.pool.endDial (Network.now net), net⟩)
      | .error cause =>
          (.ended (.error (.failed cause)), ⟨c.pool.failDial (Network.now net), net⟩)) := by
  cases result <;> simp [step, Call.step, hdial]

/-- The last steps of a call that has a connection: the answer comes, and a connection that was lost
is forgotten. -/
theorem proceed_talking (conn fuel : Nat) (hfree : c.pool.dialing = false)
    {answer : Except Failure α} {net : σ} (htalk : talk conn dialog c.net = (answer, net)) :
    proceed dialog (fun _ => false) (fuel + 2) (.talking conn) c =
      (.ended (c.pool.settle (Network.now net) answer).1,
        ⟨(c.pool.settle (Network.now net) answer).2, net⟩) := by
  cases answer with
  | ok value =>
      have hstep : step dialog (.talking conn) c = some (.ended (.ok value),
          ⟨c.pool.recordSuccess (Network.now net), net⟩) := by simp [step, htalk, Call.step]
      rw [proceed_step dialog hstep, proceed_ended]
      rfl
  | error cause =>
      by_cases hlost : cause.endsConnection = true
      · have hstep : step dialog (.talking conn) c = some (.discarding cause, ⟨c.pool, net⟩) := by
          simp [step, htalk, Call.step, hlost]
        have hdiscard : step dialog (.discarding cause) (⟨c.pool, net⟩ : Client σ) =
            some (.ended (.error (.failed cause)),
              ⟨c.pool.discard.recordFailure (Network.now net), net⟩) := by
          simp [step, Call.step, hfree]
        rw [proceed_step dialog hstep, proceed_step dialog hdiscard, proceed_ended]
        simp [Pool.settle, hlost]
      · have hstep : step dialog (.talking conn) c = some (.ended (.error (.failed cause)),
            ⟨c.pool.recordFailure (Network.now net), net⟩) := by
          simp [step, htalk, Call.step, hlost]
        rw [proceed_step dialog hstep, proceed_ended]
        simp [Pool.settle, hlost]

end Steps

/-- A call that nothing holds up runs through one of the ways of an execution. -/
theorem execution (c : Client σ) (dialog : Dialog α) (hfree : c.pool.dialing = false) :
    c.Execution dialog (c.execute dialog) := by
  unfold execute longest
  cases hgrant : c.pool.grant (Network.now c.net) with
  | mk granted p =>
      have hidle : p.dialing = false := (Pool.granted_of_grant hgrant).dialing.trans hfree
      rw [proceed_step dialog (step_fresh dialog hgrant)]
      cases granted with
      | false =>
          rw [if_neg (by simp), proceed_ended]
          exact .refused p hgrant
      | true =>
          rw [if_pos rfl, proceed_step dialog (step_looking dialog hidle)]
          cases hcached : p.cached with
          | some conn =>
              simp only [Option.map_some, Option.getD_some]
              rw [proceed_talking dialog conn 2 hidle rfl]
              exact .answered p conn p c.net _ _ hgrant (.finds conn hcached) rfl
          | none =>
              simp only [Option.map_none, Option.getD_none]
              rw [proceed_step dialog (step_claiming dialog hidle hcached)]
              cases hdial : Network.dial p.made c.net with
              | mk result net =>
                  rw [proceed_step dialog (step_dialing dialog hdial)]
                  cases result with
                  | ok _ =>
                      have hmade : (p.beginDial.endDial (Network.now net)).dialing = false := rfl
                      simp only
                      rw [proceed_talking (c := ⟨p.beginDial.endDial (Network.now net), net⟩) dialog
                        p.beginDial.made 0 hmade rfl]
                      exact .answered p p.made _ net _ _ hgrant (.makes net hcached hdial) rfl
                  | error cause =>
                      simp only
                      rw [proceed_ended]
                      exact .unreachable p cause net hgrant hcached hdial

end Client
end Rollcall.Redis
