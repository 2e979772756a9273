import Rollcall.Proofs.Session.Run

/-!
The sessions note no requests.

They count connections, frames, broadcasts and failures in the metrics that they share with the rest
of the service. The requests noted there are none of their business: no event of a world changes
them (`World.requests_after`), so no run does (`Run.requests_eq`).
-/

namespace Rollcall.Presence

namespace Tracker

theorem requests_absorb {α : Type} (t : Tracker) (op : Operation) (result : Except Failure α) :
    (t.absorb op result).2.metrics.requests = t.metrics.requests := by
  cases result with
  | ok value =>
      simp only [absorb]
      split <;> rfl
  | error failure =>
      simp only [absorb]
      split <;> rfl

theorem requests_counted (t : Tracker) (result : Except Failure Nat) :
    (t.counted result).2.metrics.requests = t.metrics.requests := by
  have habsorb := t.requests_absorb .count result
  -- the cases keep the wrapped figure from being computed
  have honline (m : Metrics) (n : Nat) : (m.setOnlineUsers n).requests = m.requests := by
    cases m
    rfl
  unfold counted
  split
  case h_1 n seen heq =>
    rw [heq] at habsorb
    exact (honline _ n).trans habsorb
  case h_2 seen heq =>
    rw [heq] at habsorb
    exact habsorb

theorem requests_reading (t : Tracker) (limit : Nat) (course : Course (Except Failure Nat)) :
    (t.reading limit course).2.metrics.requests = t.metrics.requests := by
  have hcounted := t.requests_counted (bounded limit course)
  unfold reading
  split
  all_goals
    rename_i heq
    rwa [heq] at hcounted

theorem requests_ping (t : Tracker) (limit : Nat) (course : Course (Except Failure Unit)) :
    (t.ping limit course).2.metrics.requests = t.metrics.requests :=
  t.requests_absorb .ping (bounded limit course)

end Tracker

namespace Service

def requests (p : Service) : List RequestSeries := p.tracker.metrics.requests

theorem requests_finishJoin (p : Service) (member : String) (passed : Except Failure Unit) :
    (p.finishJoin member passed).2.requests = p.requests := by
  cases passed with
  | ok _ => exact p.tracker.requests_absorb .join (.ok (p.store.join member).1 : Except _ Nat)
  | error failure => exact p.tracker.requests_absorb .join (.error failure : Except _ Nat)

theorem requests_finishLeave (p : Service) (member : String) (passed : Except Failure Unit) :
    (p.finishLeave member passed).2.requests = p.requests := by
  cases passed with
  | ok _ => exact p.tracker.requests_absorb .leave (.ok (p.store.leave member).1 : Except _ Nat)
  | error failure => exact p.tracker.requests_absorb .leave (.error failure : Except _ Nat)

theorem requests_finishCount (p : Service) (passed : Except Failure Unit) :
    (p.finishCount passed).2.requests = p.requests := by
  have hcounted := p.tracker.requests_counted (passed.map fun () => p.store.count)
  exact hcounted

end Service
end Rollcall.Presence

namespace Rollcall.Session

open Connection

namespace Instance

def requests (s : Instance) : List RequestSeries := s.presence.requests

theorem requests_settleBroadcast (s : Instance) (b : Broadcast) :
    (s.settleBroadcast b).requests = s.requests := by
  unfold settleBroadcast
  simp only
  split <;> rfl

theorem requests_pursueBroadcast (s : Instance) (b : Broadcast) :
    (s.pursueBroadcast b).2.requests = s.requests := by
  unfold pursueBroadcast
  split
  · exact s.requests_settleBroadcast b
  split <;> rfl

end Instance

namespace Announcement

theorem requests_step (a : Announcement) (s : Instance) : (a.step s).2.requests = s.requests := by
  cases a with
  | counting call =>
      have hcount := s.presence.requests_finishCount call.passed
      simp only [step]
      split
      · split
        all_goals
          rename_i heq
          rw [heq] at hcount
          exact hcount
      · rfl
  | sending b =>
      have hpursue := s.requests_pursueBroadcast b
      simp only [step]
      split
      all_goals
        rename_i heq
        rwa [heq] at hpursue

theorem requests_abandon (a : Announcement) (s : Instance) :
    (a.abandon s).requests = s.requests := by
  cases a <;> rfl

end Announcement

namespace Conn

variable {c : Conn} {i : Nat} {s : Instance} {r : Conn × Instance}

theorem requests_handle (c : Conn) (i : Nat) (s : Instance) (frame : Frame) :
    (c.handle i s frame).2.requests = s.requests := by
  cases frame with
  | text content =>
      simp only [handle]
      split <;> rfl
  | binary content =>
      simp only [handle]
      split <;> rfl
  | ping content => rfl
  | pong content => rfl
  | close detail => rfl

theorem requests_heed {b : Branch} (hheed : c.heed i s b = some r) :
    r.2.requests = s.requests := by
  cases b with
  | signal =>
      simp only [heed] at hheed
      split at hheed
      · cases hheed
        rfl
      · cases hheed
  | writer =>
      simp only [heed] at hheed
      split at hheed
      · cases hheed
        rfl
      · cases hheed
  | arrival =>
      simp only [heed] at hheed
      split at hheed
      · cases hheed
        exact requests_handle _ i s _
      · cases hheed
        rfl
      · split at hheed
        · cases hheed
          rfl
        · cases hheed

theorem requests_hear {first : Branch} (hhear : c.hear i s first = some r) :
    r.2.requests = s.requests := by
  rcases hear_cases hhear with ⟨b, hheed⟩ | ⟨_, _, rfl⟩
  · exact requests_heed hheed
  · rfl

theorem requests_drop (c : Conn) (i : Nat) (s : Instance) (runtime : Bool) :
    (c.drop i s runtime).2.requests = s.requests := by
  unfold drop
  cases c.owner with
  | announcing a => exact a.requests_abandon s
  | _ => rfl

theorem requests_ownerStep {first : Branch} (hstep : c.ownerStep i s first = some r) :
    r.2.requests = s.requests := by
  unfold ownerStep at hstep
  split at hstep
  · cases hstep
  split at hstep
  · cases hstep
    exact requests_drop c i s true
  split at hstep
  case h_1 =>
    cases hstep
    rfl
  case h_2 call _ =>
    split at hstep
    · cases hstep
      exact s.presence.requests_finishJoin (member s i) call.passed
    · cases hstep
  case h_3 a _ =>
    have ha := a.requests_step s
    split at hstep
    · cases hstep
    all_goals
      rename_i heq
      rw [heq] at ha
      cases hstep
    · exact ha
    · exact ha
  case h_4 => exact requests_hear hstep
  case h_5 send _ =>
    simp only at hstep
    split at hstep
    · cases hstep
    · cases hstep
      rfl
    · cases hstep
      rfl
  case h_6 b _ =>
    have hb := s.requests_pursueBroadcast b
    split at hstep
    · cases hstep
    all_goals
      rename_i heq
      rw [heq] at hb
      cases hstep
    · exact hb
    · exact hb
  case h_7 =>
    split at hstep
    · cases hstep
      rfl
    · cases hstep
  case h_8 =>
    split at hstep
    · cases hstep
      rfl
    split at hstep
    · cases hstep
      rfl
    · cases hstep
  all_goals cases hstep

theorem requests_writerStep {held : Bool} (hstep : c.writerStep i s held = some r) :
    r.2.requests = s.requests := by
  unfold writerStep at hstep
  simp only at hstep
  repeat' split at hstep
  all_goals
    cases hstep <;> rfl

theorem requests_cleanupStep (hstep : c.cleanupStep i s = some r) : r.2.requests = s.requests := by
  unfold cleanupStep at hstep
  split at hstep
  case h_1 => cases hstep
  case h_2 registered _ =>
    cases registered
    all_goals
      simp only [Bool.false_eq_true, if_false, if_true] at hstep
      split at hstep
    all_goals
      cases hstep
      rfl
  case h_3 call _ =>
    split at hstep
    · cases hstep
      exact s.presence.requests_finishLeave (member s i) call.passed
    · cases hstep
  case h_4 a _ =>
    have ha := a.requests_step s
    split at hstep
    · cases hstep
    all_goals
      rename_i heq
      rw [heq] at ha
      cases hstep
      exact ha
  case h_5 => cases hstep

end Conn

namespace World

variable {w w' : World}

theorem requests_task {i : Nat} {step : Conn → Option (Conn × Instance)}
    (hkeeps : ∀ c r, step c = some r → r.2.requests = w.site.requests)
    (hstep : (w.conns[i]?.bind step).map (w.put i) = some w') :
    w'.site.requests = w.site.requests := by
  simp only [Option.map_eq_some_iff, Option.bind_eq_some_iff] at hstep
  obtain ⟨r, ⟨c, -, hmove⟩, rfl⟩ := hstep
  exact hkeeps c r hmove

theorem requests_step {task : Task} (hstep : w.step task = some w') :
    w'.site.requests = w.site.requests := by
  cases task with
  | owner i first => exact requests_task (fun c r => Conn.requests_ownerStep) hstep
  | writer i => exact requests_task (fun c r => Conn.requests_writerStep) hstep
  | cleanup i => exact requests_task (fun c r => Conn.requests_cleanupStep) hstep

theorem requests_operate (hstep : w.operate = some w') : w'.site.requests = w.site.requests := by
  unfold operate at hstep
  split at hstep
  case h_1 =>
    split at hstep
    · cases hstep
      rfl
    · cases hstep
  case h_2 a _ =>
    have ha := a.requests_step w.site
    split at hstep
    · cases hstep
    all_goals
      rename_i heq
      rw [heq] at ha
      cases hstep
      exact ha
  case h_3 b _ =>
    have hb := w.site.requests_pursueBroadcast b
    split at hstep
    · cases hstep
    all_goals
      rename_i heq
      rw [heq] at hb
      cases hstep
      exact hb
  case h_4 =>
    split at hstep
    · split at hstep
      all_goals
        cases hstep
        rfl
    · cases hstep
  case h_5 => cases hstep

theorem requests_after {e : Event} (hafter : w.after e = some w') :
    w'.site.requests = w.site.requests := by
  cases e with
  | turn task => exact requests_step hafter
  | operate => exact requests_operate hafter
  | arrive i arrivals =>
      cases hafter
      unfold arrive
      split <;> rfl
  | orphan i =>
      cases hafter
      unfold orphan
      split
      · exact Conn.requests_drop _ i w.site false
      · rfl
  | close i =>
      cases hafter
      unfold close
      split <;> rfl
  | order what =>
      simp only [after, Option.ite_none_right_eq_some, Option.some.injEq] at hafter
      obtain ⟨-, rfl⟩ := hafter
      cases what <;> rfl
  | _ =>
      cases hafter
      rfl

end World

/-- No event of a run records a request. -/
theorem Run.requests_eq {may : Event → Prop} {v w : World} (run : Run may v w) :
    w.site.requests = v.site.requests := by
  have hkept (e : Event) (u u' : World) (_ : may e) (hafter : u.after e = some u')
      (hbefore : u.site.requests = v.site.requests) : u'.site.requests = v.site.requests :=
    (World.requests_after hafter).trans hbefore
  exact run.invariant hkept rfl

theorem World.requests_sleep (w : World) (millis : Nat) :
    (w.sleep millis).site.requests = w.site.requests := by
  have run : Run (fun _ => True) (w.take (.sleep millis)) (w.sleep millis) :=
    Run.schedule (fun _ _ => trivial) _ _ _ _
  exact run.requests_eq

end Rollcall.Session
