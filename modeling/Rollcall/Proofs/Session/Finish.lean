import Mathlib.Algebra.Order.BigOperators.Group.List
import Mathlib.Algebra.Order.Group.Nat
import Rollcall.Proofs.Connection.Deadlines
import Rollcall.Proofs.Session.Smooth

/-!
Bringing connections to their end.

While everyone is closing and the store keeps up, a connection can be brought to its end by dropping
its owner, by the steps of its cleanup and by the passing of time: every step of the cleanup lowers
a rank (`Conn.cleanup_progress`). Nothing else happens to the other connections meanwhile
(`World.Beside`), so all but one can be brought to their end together
(`World.Ready.exists_allFinished`).
-/

namespace Rollcall.Session

open Connection

def Event.isPlain (e : Event) : Bool := e.isSmooth && !e.isOrder

/-- How many steps are left for a cleanup where everyone is closing. -/
def Cleanup.rank : Cleanup → Nat
  | .absent => 0
  | .ready _ => 4
  | .leaving _ => 3
  | .announcing (.counting _) => 3
  | .announcing (.sending b) => if b.isOver then 1 else 2
  | .done => 0

/-- A connection whose owner has ended and whose cleanup, if there is one, is done. -/
structure Conn.Finished (c : Conn) : Prop where
  owner : c.owner.hasEnded = true
  cleanup : c.cleanup.rank = 0

theorem Cleanup.rank_eq_zero {cleanup : Cleanup} (hrank : cleanup.rank = 0) :
    cleanup = .absent ∨ cleanup = .done := by
  cases cleanup with
  | absent => exact .inl rfl
  | done => exact .inr rfl
  | ready registered => simp [Cleanup.rank] at hrank
  | leaving call => simp [Cleanup.rank] at hrank
  | announcing a =>
      cases a with
      | counting call => simp [Cleanup.rank] at hrank
      | sending b =>
          simp only [Cleanup.rank] at hrank
          split at hrank <;> cases hrank

section Progress

variable {i : Nat} {c : Conn} {s : Instance}

theorem rank_announceEnd (hclosing : s.hub.shuttingDown = true) :
    (c.announceEnd s).cleanup.rank = 0 ∧ (c.announceEnd s).owner = c.owner := by
  simp [Conn.announceEnd, hclosing, Cleanup.rank]

/-- A call that will succeed is due once its moment is past. -/
theorem StoreCall.Succeeds.isDue {call : StoreCall} (hsucceeds : call.Succeeds) {now : Nat}
    (hpast : ∀ moment ∈ call.due.toList, moment ≤ now) : call.isDue now = true := by
  obtain ⟨moment, hdue⟩ := Option.isSome_iff_exists.mp hsucceeds.due
  simpa [StoreCall.isDue, hdue] using hpast

theorem closing_undo (registered : Bool) (hclosing : s.hub.shuttingDown = true) :
    (c.undo registered i s).2.hub.shuttingDown = true ∧
      (c.undo registered i s).1.owner = c.owner := by
  cases registered with
  | true => exact ⟨hclosing, rfl⟩
  | false => exact ⟨hclosing, rfl⟩

/-- Every step of a cleanup lowers its rank, but for further attempts at its broadcast. -/
theorem CleanupMove.rank_lt {r : Conn × Instance} (hmove : CleanupMove i c s r)
    (hclosing : s.hub.shuttingDown = true) :
    r.1.owner = c.owner ∧ (r.1.cleanup.rank < c.cleanup.rank ∨
      ∃ b, c.cleanup = .announcing (.sending b)) := by
  cases hmove with
  | leave registered hcleanup =>
      refine ⟨(closing_undo registered hclosing).2, .inl ?_⟩
      simp [Conn.note, hcleanup, Cleanup.rank]
  | skip registered hcleanup =>
      obtain ⟨hlater, howner⟩ := closing_undo (i := i) (c := c) registered hclosing
      obtain ⟨hrank, hsame⟩ := rank_announceEnd (c := (c.undo registered i s).1) hlater
      refine ⟨hsame.trans howner, .inl ?_⟩
      rw [hrank, hcleanup]
      exact Nat.succ_pos _
  | left call score presence hcleanup =>
      obtain ⟨hrank, hsame⟩ :=
        rank_announceEnd (c := c.note .left) (s := { s with presence }) hclosing
      refine ⟨hsame, .inl ?_⟩
      rw [hrank, hcleanup]
      exact Nat.succ_pos _
  | fail call failure presence hcleanup =>
      obtain ⟨hrank, hsame⟩ := rank_announceEnd (c := c) (s := { s with presence }) hclosing
      refine ⟨hsame, .inl ?_⟩
      rw [hrank, hcleanup]
      exact Nat.succ_pos _
  | announce a b s' hcleanup =>
      cases a with
      | counting call =>
          refine ⟨rfl, .inl ?_⟩
          simp only [hcleanup, Cleanup.rank]
          split <;> decide
      | sending before => exact ⟨rfl, .inr ⟨before, hcleanup⟩⟩
  | done a s' hcleanup =>
      cases a with
      | counting call => exact ⟨rfl, .inl (by simp [hcleanup, Cleanup.rank])⟩
      | sending before => exact ⟨rfl, .inr ⟨before, hcleanup⟩⟩

/-- A broadcast that is to end is settled or makes its last attempt. -/
theorem Conn.sending_progress {b : Broadcast} (hcleanup : c.cleanup = .announcing (.sending b))
    (hpast : ∀ moment ∈ b.deadlines, moment ≤ s.now) :
    ∃ r, c.cleanupStep i s = some r ∧ r.1.cleanup.rank < c.cleanup.rank ∧ r.1.owner = c.owner := by
  cases hover : b.isOver with
  | true =>
      refine ⟨({ c with cleanup := .done }, s.settleBroadcast b), ?_, ?_, rfl⟩
      · simp [Conn.cleanupStep, hcleanup, Announcement.step, Instance.pursueBroadcast, hover]
      · simp [hcleanup, Cleanup.rank, hover]
  | false =>
      have hproceeds : b.canProceed s.hub s.now = true := by
        refine Bool.eq_true_of_not_eq_false fun hwaits => ?_
        obtain ⟨moment, hmoment, hlater⟩ := Broadcast.deadline_of_waiting hover hwaits
        exact Nat.not_le_of_lt hlater (hpast moment hmoment)
      refine ⟨({ c with cleanup := .announcing (.sending (b.resume s.hub s.now).1) },
        { s with hub := (b.resume s.hub s.now).2 }), ?_, ?_, rfl⟩
      · simp [Conn.cleanupStep, hcleanup, Announcement.step, Instance.pursueBroadcast, hover,
          hproceeds]
      · simp [hcleanup, Cleanup.rank, hover, Broadcast.isOver_resume s.hub hpast]

/-- Where everyone is closing, a cleanup whose moments have come takes a step that lowers its
rank. -/
theorem Conn.cleanup_progress (hsmooth : c.Smooth) (hclosing : s.hub.shuttingDown = true)
    (hpast : ∀ moment ∈ c.cleanup.deadlines, moment ≤ s.now) (hrank : 0 < c.cleanup.rank) :
    ∃ r, c.cleanupStep i s = some r ∧ r.1.cleanup.rank < c.cleanup.rank ∧ r.1.owner = c.owner := by
  -- every move lowers the rank but a further attempt at a broadcast, which has a lemma of its own
  have hlowers {r : Conn × Instance} (hother : ∀ b, c.cleanup ≠ .announcing (.sending b))
      (hstep : c.cleanupStep i s = some r) :
      ∃ r, c.cleanupStep i s = some r ∧ r.1.cleanup.rank < c.cleanup.rank ∧
        r.1.owner = c.owner := by
    obtain ⟨howner, hlower⟩ := (Conn.cleanupStep_move hstep).rank_lt hclosing
    exact ⟨r, hstep, hlower.resolve_right fun ⟨b, hsending⟩ => hother b hsending, howner⟩
  cases hcleanup : c.cleanup with
  | absent => simp [hcleanup, Cleanup.rank] at hrank
  | done => simp [hcleanup, Cleanup.rank] at hrank
  | ready registered =>
      obtain ⟨r, hstep⟩ := Conn.cleanup_starts hcleanup i s
      exact hcleanup ▸ hlowers (by simp [hcleanup]) hstep
  | leaving call =>
      rw [hcleanup] at hpast
      have hdue := (hsmooth.leaving call hcleanup).isDue hpast
      have hstep : ∃ r, c.cleanupStep i s = some r := by
        simp [Conn.cleanupStep, hcleanup, hdue]
      obtain ⟨r, hstep⟩ := hstep
      exact hcleanup ▸ hlowers (by simp [hcleanup]) hstep
  | announcing a =>
      cases a with
      | counting call =>
          rw [hcleanup] at hpast
          have hdue := (hsmooth.counting call hcleanup).isDue hpast
          have hstep : ∃ r, c.cleanupStep i s = some r := by
            simp only [Conn.cleanupStep, hcleanup, Announcement.step, hdue, if_true]
            rcases s.presence.finishCount call.passed with ⟨_ | online, presence⟩
            · exact ⟨_, rfl⟩
            · exact ⟨_, rfl⟩
          obtain ⟨r, hstep⟩ := hstep
          exact hcleanup ▸ hlowers (by simp [hcleanup]) hstep
      | sending b =>
          rw [hcleanup] at hpast
          exact hcleanup ▸ Conn.sending_progress hcleanup hpast

end Progress

namespace World

/-- What bringing connection `i` to its end is to the operator and to the others. -/
structure Beside (i : Nat) (w w' : World) : Prop where
  operator : w'.operator = w.operator
  others : ∀ j : Nat, j ≠ i → w'.conns[j]? = w.conns[j]?

variable {i : Nat} {u v w : World} {c : Conn}

theorem Beside.refl (i : Nat) (w : World) : Beside i w w := ⟨rfl, fun _ _ => rfl⟩

theorem Beside.trans (huv : Beside i u v) (hvw : Beside i v w) : Beside i u w where
  operator := hvw.operator.trans huv.operator
  others j hj := (hvw.others j hj).trans (huv.others j hj)

theorem Beside.of_put (w : World) (i : Nat) (r : Conn × Instance) : Beside i w (w.put i r) where
  operator := rfl
  others j hj := by simp [put, Ne.symm hj]

/-- What a run that may be continued at will is known to keep. -/
structure Ready (w : World) : Prop where
  sound : w.Sound False
  smooth : w.Smooth
  closing : w.site.hub.shuttingDown = true

theorem Ready.of_run (hready : w.Ready) (run : Run (fun e => e.isPlain) w v) : v.Ready := by
  have hplain : ∀ e : Event, e.isPlain = true → e.isSmooth = true := by
    simp +contextual [Event.isPlain]
  obtain ⟨hsound, hsmooth⟩ := run.smooth hplain hready.sound hready.smooth
  refine ⟨hsound, hsmooth, ?_⟩
  exact run.invariant (fun _ _ _ _ hafter => (after_advance hafter).shuttingDown) hready.closing

/-- A cleanup can be brought to its end. -/
theorem Ready.exists_cleaned (hready : w.Ready) (hconn : w.conns[i]? = some c) :
    ∃ w' c', Run (fun e => e.isPlain) w w' ∧ w.Beside i w' ∧ w'.conns[i]? = some c' ∧
      c'.cleanup.rank = 0 ∧ c'.owner = c.owner := by
  induction hrank : c.cleanup.rank using Nat.strong_induction_on generalizing w c with
  | _ n ih =>
      by_cases hdone : n = 0
      · exact ⟨w, c, .refl, Beside.refl i w, hconn, hrank.trans hdone, rfl⟩
      -- all the moments come that the cleanup waits for, and then it takes a step
      let u := machine.setNow w (w.site.now + c.cleanup.deadlines.sum)
      have hpass : Run (fun e => e.isPlain) w u := .single (.pass c.cleanup.deadlines.sum) rfl rfl
      have hsame : u.conns[i]? = some c := hconn
      have hpast : ∀ moment ∈ c.cleanup.deadlines, moment ≤ u.site.now := fun moment hmoment =>
        Nat.le_trans (List.le_sum_of_mem hmoment) (Nat.le_add_left _ _)
      obtain ⟨r, hstep, hlower, howner⟩ := Conn.cleanup_progress (i := i) (s := u.site)
        (hready.smooth.conns i c hconn) hready.closing hpast (by omega)
      have hturn : Run (fun e => e.isPlain) u (u.put i r) :=
        .single (.turn (.cleanup i)) rfl (by simp [after, step, hsame, hstep])
      have hbound := (List.getElem?_eq_some_iff.mp hsame).1
      have hnext : (u.put i r).conns[i]? = some r.1 := by simp [put, hbound]
      obtain ⟨w', c', run, hbeside, hconn', hrank', howner'⟩ :=
        ih r.1.cleanup.rank (hrank ▸ hlower) (hready.of_run (hpass.trans hturn)) hnext rfl
      have hpassed : w.Beside i u := ⟨rfl, fun _ _ => rfl⟩
      exact ⟨w', c', (hpass.trans hturn).trans run,
        (hpassed.trans (Beside.of_put u i r)).trans hbeside, hconn', hrank', howner'.trans howner⟩

theorem exists_dropped (hconn : w.conns[i]? = some c) :
    ∃ w' c', Run (fun e => e.isPlain) w w' ∧ w.Beside i w' ∧ w'.conns[i]? = some c' ∧
      c'.owner.hasEnded = true ∧ (.left ∈ c'.deeds → .left ∈ c.deeds) := by
  have habort : Run (fun e => e.isPlain) w (w.abort i) := .single (.abort i) rfl rfl
  have hconn' : (w.abort i).conns[i]? = some { c with ownerDropped := true } := by
    simp [abort, mapConn, hconn]
  have hbeside : w.Beside i (w.abort i) :=
    ⟨rfl, fun j hj => by simp [abort, mapConn, Ne.symm hj]⟩
  cases hended : c.owner.hasEnded with
  | true => exact ⟨w.abort i, _, habort, hbeside, hconn', hended, id⟩
  | false =>
      let r := Conn.drop { c with ownerDropped := true } i (w.abort i).site true
      have hmove := Conn.drop_move { c with ownerDropped := true } i (w.abort i).site true
      have hstep : Conn.ownerStep { c with ownerDropped := true } i (w.abort i).site .signal =
          some r := by
        simp [Conn.ownerStep, hended, r]
      have hturn : Run (fun e => e.isPlain) (w.abort i) ((w.abort i).put i r) :=
        .single (.turn (.owner i .signal)) rfl (by simp [after, step, hconn', hstep])
      have hbound := (List.getElem?_eq_some_iff.mp hconn').1
      refine ⟨_, r.1, habort.trans hturn, hbeside.trans (Beside.of_put _ i r),
        by simp [put, hbound], ?_, fun hleft => ?_⟩
      · rw [hmove.aborted]
        rfl
      · exact (hmove.mem_deeds hleft).resolve_right (by decide)

/-- Any connection can be brought to its end, and nothing happens to the others. -/
theorem Ready.exists_finished (hready : w.Ready) (hconn : w.conns[i]? = some c) :
    ∃ w' c', Run (fun e => e.isPlain) w w' ∧ w.Beside i w' ∧ w'.conns[i]? = some c' ∧
      c'.Finished := by
  obtain ⟨v, d, hdropped, hbeside, hd, hended, _⟩ := exists_dropped hconn
  obtain ⟨w', c', hcleaned, hbeside', hc', hrank, howner⟩ :=
    (hready.of_run hdropped).exists_cleaned hd
  exact ⟨w', c', hdropped.trans hcleaned, hbeside.trans hbeside', hc', howner ▸ hended, hrank⟩

/-- Any connections can be brought to their end, and nothing happens to the rest. -/
theorem Ready.exists_allFinished (hready : w.Ready) (targets : List Nat) :
    ∃ w', Run (fun e => e.isPlain) w w' ∧ w'.operator = w.operator ∧
      (∀ (j : Nat) (d : Conn), j ∈ targets → w'.conns[j]? = some d → d.Finished) ∧
      ∀ j : Nat, j ∉ targets → w'.conns[j]? = w.conns[j]? := by
  -- the rest is brought to its end before `first`, whose steps leave all other connections alone
  induction targets with
  | nil => exact ⟨w, .refl, rfl, fun _ _ hmem => absurd hmem List.not_mem_nil, fun _ _ => rfl⟩
  | cons first rest ih =>
      obtain ⟨v, hrun, hoperator, hfinished, hrest⟩ := ih
      have hlater (j : Nat) (hj : j ∉ first :: rest) : v.conns[j]? = w.conns[j]? :=
        hrest j fun hmem => hj (List.mem_cons_of_mem _ hmem)
      cases hconn : v.conns[first]? with
      | none =>
          refine ⟨v, hrun, hoperator, fun j d hj hd => ?_, hlater⟩
          rcases List.mem_cons.mp hj with rfl | hmem
          · rw [hconn] at hd
            cases hd
          · exact hfinished j d hmem hd
      | some c =>
          obtain ⟨w', c', hone, hbeside, hc', hthis⟩ := (hready.of_run hrun).exists_finished hconn
          refine ⟨w', hrun.trans hone, hbeside.operator.trans hoperator, fun j d hj hd => ?_,
            fun j hj => ?_⟩
          · by_cases hsame : j = first
            · rw [hsame, hc'] at hd
              cases hd
              exact hthis
            · rw [hbeside.others j hsame] at hd
              exact hfinished j d ((List.mem_cons.mp hj).resolve_left hsame) hd
          · have hother : j ≠ first := fun hsame => hj (hsame ▸ List.mem_cons_self)
            exact (hbeside.others j hother).trans (hlater j hj)

end World
end Rollcall.Session
