import Rollcall.Proofs.Session.Accounts

/-!
Exact presence.

The score of a member in the store is the number of its connections that have joined and not left,
in every state that any run can reach, and only the cleanup of such a connection ever lowers it
(`Run.presence_exact`).
-/

namespace Rollcall.Session

open Presence (Store)

namespace Instance

/-- What the store holds for a member. -/
def score (s : Instance) (member : String) : Nat := (s.presence.store.score? member).getD 0

theorem score_of_ledger {s s' : Instance} (hledger : s'.ledger = s.ledger) (member : String) :
    s'.score member = s.score member :=
  congrArg (fun l : Ledger => (l.store.score? member).getD 0) hledger

theorem score_le_join {s s' : Instance} {member : String}
    (hledger : s'.ledger = s.ledger.enter member .joined) (other : String) :
    s.score other ≤ s'.score other := by
  have hscore := congrArg (fun l : Ledger => (l.store.score? other).getD 0) hledger
  simp only [Ledger.enter, Store.score?_join] at hscore
  simp only [score, Instance.ledger] at hscore ⊢
  split at hscore
  case isTrue hsame =>
    rw [hsame] at hscore ⊢
    simp only [Option.getD_some] at hscore
    omega
  case isFalse => exact Nat.le_of_eq hscore.symm

/-- A leave changes no score but its own member's. -/
theorem score_leave {s s' : Instance} {member : String}
    (hledger : s'.ledger = s.ledger.enter member .left) {other : String} (hother : other ≠ member) :
    s'.score other = s.score other := by
  have hscore := congrArg (fun l : Ledger => (l.store.score? other).getD 0) hledger
  simp only [Ledger.enter, Store.score?_leave, if_neg hother] at hscore
  exact hscore

end Instance

section Lowering

variable {i : Nat} {c : Conn} {s : Instance} {r : Conn × Instance}

theorem DropMove.score_eq {runtime : Bool} (hmove : DropMove i c s runtime r) (member : String) :
    r.2.score member = s.score member := by
  cases hmove with
  | unpolled => rfl
  | undo s' howner haside => exact Instance.score_of_ledger haside.ledger member
  | late => rfl

/-- An owner lowers no score. -/
theorem OwnerMove.score_le (hmove : OwnerMove i c s r) (member : String) :
    s.score member ≤ r.2.score member := by
  cases hmove with
  | drop => exact Nat.le_of_eq ((c.drop_move i s true).score_eq member).symm
  | start => exact Nat.le_refl _
  | join call score presence howner hpassed hfinish =>
      exact Instance.score_le_join (Instance.finishJoin_ledger hfinish).2 member
  | miss call failure presence howner hpassed hfinish =>
      exact Nat.le_of_eq
        (Instance.score_of_ledger (Instance.finishJoin_ledger hfinish).2 member).symm
  | work c' s' hopen hstays hkeeps haside =>
      exact Nat.le_of_eq (Instance.score_of_ledger haside.ledger member).symm
  | finish c' s' reason hopen hkeeps howner hcleanup haside =>
      exact Nat.le_of_eq (Instance.score_of_ledger haside.ledger member).symm
  | part s' reason deadline howner hdone hspares =>
      exact Nat.le_of_eq (Instance.score_of_ledger hspares.ledger member).symm
  | stop => exact Nat.le_refl _

/-- A cleanup lowers a score only where its own leave takes effect. -/
theorem CleanupMove.score_lower (hmove : CleanupMove i c s r) {member : String}
    (hlower : r.2.score member < s.score member) :
    member = Conn.member s i ∧ ∃ call, c.cleanup = .leaving call ∧ call.passed = .ok () := by
  have hsame (hledger : r.2.ledger = s.ledger) : False :=
    Nat.ne_of_lt hlower (Instance.score_of_ledger hledger member)
  have hundo (registered : Bool) : (c.undo registered i s).2.score member = s.score member := by
    cases registered <;> rfl
  cases hmove with
  | leave registered => exact absurd (hundo registered) (Nat.ne_of_lt hlower)
  | skip registered => exact absurd (hundo registered) (Nat.ne_of_lt hlower)
  | left call score presence hcleanup hdue hpassed hfinish =>
      refine ⟨Decidable.byContradiction fun hother => ?_, call, hcleanup, hpassed⟩
      exact Nat.ne_of_lt hlower
        (Instance.score_leave (Instance.finishLeave_ledger hfinish).2 hother)
  | fail call failure presence hcleanup hdue hpassed hfinish =>
      exact (hsame (Instance.finishLeave_ledger hfinish).2).elim
  | announce a b s' hcleanup hspares => exact (hsame hspares.ledger).elim
  | done a s' hcleanup hspares => exact (hsame hspares.ledger).elim

end Lowering

/-- Whoever takes a score away had joined for it and has not left. -/
theorem World.Sound.lowering {orphans : Prop} {w w' : World} {e : Event} {member : String}
    (hsound : w.Sound orphans) (hafter : w.after e = some w')
    (hlower : w'.site.score member < w.site.score member) :
    ∃ i c, e = .turn (.cleanup i) ∧ w.conns[i]? = some c ∧ Conn.member w.site i = member ∧
      .joined ∈ c.deeds ∧ .left ∉ c.deeds := by
  have hsame (hledger : w'.site.ledger = w.site.ledger) : False :=
    Nat.ne_of_lt hlower (Instance.score_of_ledger hledger member)
  cases World.after_advance hafter with
  | owner i c r hconn hmove => exact absurd hlower (Nat.not_lt.mpr (hmove.score_le member))
  | writer i c r hconn howner hkeeps hspares => exact (hsame hspares.ledger).elim
  | cleanup i c r hconn hmove =>
      obtain ⟨hmember, call, hcleanup, _⟩ := hmove.score_lower hlower
      obtain ⟨_, _, hdeeds⟩ := (hsound.conns i c hconn).recorded.of_leaving hcleanup
      refine ⟨i, c, rfl, hconn, hmember.symm, ?_⟩
      rw [hdeeds]
      decide
  | orphan i c r hconn hmove => exact absurd (hmove.score_eq member) (Nat.ne_of_lt hlower)
  | outside e i change => exact (hsame rfl).elim
  | connect user input output => exact (hsame rfl).elim
  | spare e w' hspares => exact (hsame hspares.ledger).elim

/-- A connection that never joined asks for no leave. -/
theorem Orderly.not_joined {deeds : List Deed} (horderly : Orderly deeds)
    (hnever : .joined ∉ deeds) : .leaveAsked ∉ deeds ∧ .left ∉ deeds :=
  ⟨fun hasked => hnever (horderly.asked hasked).1,
    fun hleft => hnever (horderly.asked (horderly.left hleft)).1⟩

/-- In every state that a run can reach the store holds for each member the number of its
connections whose join took effect and whose leave has not, and counts the members for which this is
not zero. A connection that did not join never asks for a leave, and a score is lowered only by the
cleanup of a connection that joined for it and has not left. -/
theorem Run.presence_exact {may : Event → Prop} {policy : MessagePolicy} {buffer sendTimeout : Nat}
    {w : World} (run : Run may (World.create (Instance.create policy buffer sendTimeout)) w) :
    (∀ member, w.site.presence.store.score? member =
      if w.present.count member = 0 then none else some (w.present.count member)) ∧
    w.site.presence.store.count = w.present.toFinset.card ∧
    (∀ c ∈ w.conns, .joined ∉ c.deeds → .leaveAsked ∉ c.deeds ∧ .left ∉ c.deeds) ∧
    ∀ (e : Event) (w' : World) (member : String), w.after e = some w' →
      w'.site.score member < w.site.score member →
        ∃ i c, e = .turn (.cleanup i) ∧ w.conns[i]? = some c ∧ Conn.member w.site i = member ∧
          .joined ∈ c.deeds ∧ .left ∉ c.deeds := by
  obtain ⟨hsound, hbalanced⟩ := run.balanced (World.sound_create True policy buffer sendTimeout)
    (World.balanced_create policy buffer sendTimeout)
  refine ⟨hbalanced.store.scores, hbalanced.store.count, fun c hc hnever => ?_, ?_⟩
  · obtain ⟨i, hconn⟩ := List.mem_iff_getElem?.mp hc
    exact (hsound.conns i c hconn).recorded.orderly.not_joined hnever
  · intro e w' member hafter hlower
    exact hsound.lowering hafter hlower

/-- Of a user's two connections one is dropped before its join took effect. -/
def cutOffEvents : List Event :=
  [.connect "alice" ⟨[], false⟩ (.create .accepting none),
    .connect "alice" ⟨[], false⟩ (.create .accepting none),
    .turn (.owner 0 .signal), .turn (.owner 1 .signal), .turn (.owner 0 .signal), .abort 1,
    .turn (.owner 1 .signal), .turn (.cleanup 1)]

theorem presence_exact_cutOff :
    ∃ w, (World.create (Instance.create .echo 8 2000)).play cutOffEvents = some w ∧
      w.present = ["alice"] ∧ w.site.presence.store.score? "alice" = some 1 ∧
      w.site.presence.store.count = 1 := by
  have hplays : ((World.create (Instance.create .echo 8 2000)).play cutOffEvents).isSome := by
    decide
  obtain ⟨w, hplay⟩ := Option.isSome_iff_exists.mp hplays
  have hpresent : w.present = ["alice"] := by
    have hpresents : ((World.create (Instance.create .echo 8 2000)).play cutOffEvents).map
        World.present = some ["alice"] := by decide
    simpa [hplay] using hpresents
  have run : Run (fun _ => True) (World.create (Instance.create .echo 8 2000)) w :=
    .of_play (fun _ _ => trivial) hplay
  obtain ⟨hscores, hcount, _⟩ := run.presence_exact
  refine ⟨w, hplay, hpresent, ?_, ?_⟩
  · rw [hscores, hpresent]
    decide
  · rw [hcount, hpresent]
    rfl

end Rollcall.Session
