import Rollcall.Proofs.Session.Smooth
import Rollcall.Proofs.Session.Traffic

/-!
Announcements that are owed.

Whoever changes the store or registers a connection owes an announcement
(`World.same_of_not_owes`). As long as calls to the store succeed and nobody has asked everyone to
close, it goes on owing it until the announcement begins (`World.Owes.of_after`).
-/

namespace Rollcall.Session

open Connection

/-- Whether an announcement is still to begin, and will. -/
def Announcement.owes : Announcement → Prop
  | .counting call => call.passed = .ok ()
  | .sending _ => False

def Owner.owes : Owner → Prop
  | .joining _ => True
  | .announcing a => a.owes
  | _ => False

def Cleanup.owes : Cleanup → Prop
  | .ready _ => True
  | .leaving _ => True
  | .announcing a => a.owes
  | _ => False

/-- Whether a task of the connection has an announcement still to begin. -/
def Conn.owes (c : Conn) : Prop := c.owner.owes ∨ c.cleanup.owes

namespace World

def Owes (w : World) : Prop := ∃ (i : Nat) (c : Conn), w.conns[i]? = some c ∧ c.owes

/-- A broadcast begins that was not under way. -/
structure Starts (w : World) (k : Sender) (b : Broadcast) (parcel : Parcel)
    (w' : World) : Prop where
  idle : w.underway k = none
  begins : w.site.Only (b.Begins parcel) w'.site
  underway : w'.underway = Function.update w.underway k (some b)

end World

/-- With the store open an announcement that starts will come to its broadcast. -/
theorem Announcement.owes_start {s : Instance} (hopen : s.presence.gate.isOpen = true) :
    (Announcement.start s).owes := (Instance.callStore_succeeds hopen).passed

/-- An announcement that is owed can only begin. -/
theorem Announcement.begins_of_owes {a : Announcement} (howes : a.owes) (s : Instance)
    (hdistinct : s.hub.registered.Nodup) :
    a.broadcast? = none ∧
      match a.step s with
      | (.waits, _) => True
      | (.goesOn a', s') => ∃ b, a'.broadcast? = some b ∧ s.Only (b.Begins s.announcement) s'
      | (.ends _, _) => False := by
  cases a with
  | sending b => cases howes
  | counting call =>
      have hact := (Announcement.counting call).act_step s hdistinct
      refine ⟨rfl, ?_⟩
      cases heq : (Announcement.counting call).step s with
      | mk progress s' =>
          rw [heq] at hact
          cases progress with
          | waits => trivial
          | goesOn a' =>
              obtain ⟨b, rfl⟩ := Announcement.sending_of_goesOn heq
              cases hact with
              | announce _ hsite => exact ⟨b, rfl, hsite⟩
          | ends result =>
              -- a count that could be read is announced
              have hpassed : call.passed = .ok () := howes
              simp only [step, hpassed] at heq
              split at heq
              · cases heq
              · cases heq

section Steps

variable {i : Nat} {c : Conn} {s : Instance} {r : Conn × Instance}

/-- What an owner owes that is dropped, its cleanup owes. -/
theorem DropMove.owes (hmove : DropMove i c s true r) (howes : c.owes) : r.1.cleanup.owes := by
  cases hmove with
  | unpolled howner => exact howes.resolve_left (by simp [howner, Owner.owes])
  | undo => trivial
  | late howner =>
      refine howes.resolve_left fun hnever => ?_
      cases hphase : c.owner <;> simp_all [Owner.owes, Owner.stage]

theorem DropMove.owes_of_opened (hmove : DropMove i c s true r)
    (hopened : c.owner.stage = .opened) :
    r.1.cleanup.owes := by
  cases hmove with
  | unpolled howner => simp [howner, Owner.stage] at hopened
  | undo => trivial
  | late howner => simp [hopened] at howner

theorem OwnerMove.owes (hmove : OwnerMove i c s r) (howes : c.cleanup.owes) : r.1.cleanup.owes := by
  cases hmove with
  | drop => exact (c.drop_move i s true).owes (.inr howes)
  | start => exact howes
  | join => exact howes
  | miss => exact howes
  | work c' s' hopened hstays hkeeps => exact hkeeps.cleanup ▸ howes
  | finish c' s' reason hopened hkeeps howner hready =>
      rw [hready]
      trivial
  | part => exact howes
  | stop => exact howes

/-- Whoever has joined, or has tried to, owes an announcement. -/
theorem OwnerMove.owes_of_joining (hmove : OwnerMove i c s r)
    (hopen : s.presence.gate.isOpen = true) {call : StoreCall}
    (hjoining : c.owner = .joining call) : r.1.owes := by
  cases hmove with
  | drop => exact .inr ((c.drop_move i s true).owes (.inl (by rw [hjoining]; trivial)))
  | start hunborn => simp [hjoining] at hunborn
  | join call' score presence _ hpassed hfinish =>
      exact .inl (Announcement.owes_start ((Instance.finishJoin_ledger hfinish).1 ▸ hopen))
  | miss call' failure presence _ hpassed hfinish =>
      exact .inl (Announcement.owes_start ((Instance.finishJoin_ledger hfinish).1 ▸ hopen))
  | work c' s' hopened => simp [hjoining, Owner.stage] at hopened
  | finish c' s' reason hopened => simp [hjoining, Owner.stage] at hopened
  | part s' reason deadline hfinishing => simp [hjoining] at hfinishing
  | stop reason deadline dropped hparting => simp [hjoining] at hparting

theorem Conn.owes_announceEnd (hopen : s.presence.gate.isOpen = true)
    (hrunning : s.hub.shuttingDown = false) : (c.announceEnd s).owes := by
  unfold announceEnd
  rw [if_neg (by simp [hrunning])]
  exact .inr (Announcement.owes_start hopen)

/-- Up to its announcement a cleanup owes it. -/
theorem CleanupMove.owes (hmove : CleanupMove i c s r) (hopen : s.presence.gate.isOpen = true)
    (hrunning : s.hub.shuttingDown = false) : r.1.owes ∨ ∃ a, c.cleanup = .announcing a := by
  cases hmove with
  | leave => exact .inl (.inr trivial)
  | skip registered =>
      have hothers := c.others_undo registered i s
      exact .inl (Conn.owes_announceEnd (hothers.gate ▸ hopen) (hothers.shuttingDown ▸ hrunning))
  | left call score presence hleaving hdue hpassed hfinish =>
      exact .inl (Conn.owes_announceEnd ((Instance.finishLeave_ledger hfinish).1 ▸ hopen) hrunning)
  | fail call failure presence hleaving hdue hpassed hfinish =>
      exact .inl (Conn.owes_announceEnd ((Instance.finishLeave_ledger hfinish).1 ▸ hopen) hrunning)
  | announce a b s' hannouncing => exact .inr ⟨a, hannouncing⟩
  | done a s' hannouncing => exact .inr ⟨a, hannouncing⟩

/-- An owner goes on owing its announcement until it begins. -/
theorem Conn.owes_ownerStep {first : Branch} (hopen : s.presence.gate.isOpen = true)
    (hdistinct : s.hub.registered.Nodup) (howes : c.owes)
    (hstep : c.ownerStep i s first = some r) :
    r.1.owes ∨ c.owner.broadcast? = none ∧
      ∃ b, r.1.owner.broadcast? = some b ∧ s.Only (b.Begins s.announcement) r.2 := by
  rcases howes with howner | hcleanup
  · cases hphase : c.owner with
    | joining call => exact .inl ((ownerStep_move hstep).owes_of_joining hopen hphase)
    | announcing a =>
        rw [hphase] at howner
        obtain ⟨hidle, hbegins⟩ := Announcement.begins_of_owes (a := a) howner s hdistinct
        cases hdropped : c.ownerDropped with
        | true =>
            have hdrop : c.drop i s true = r := by
              simpa [ownerStep, hphase, hdropped, Owner.hasEnded] using hstep
            exact .inl (.inr (hdrop ▸ (c.drop_move i s true).owes (.inl (hphase ▸ howner))))
        | false =>
            simp only [ownerStep, hphase, hdropped, Owner.hasEnded, Bool.false_eq_true,
              if_false] at hstep
            split at hstep
            · cases hstep
            case h_2 a' s' heq =>
              cases hstep
              rw [heq] at hbegins
              exact .inr ⟨hidle, hbegins⟩
            case h_3 result s' heq =>
              rw [heq] at hbegins
              cases hbegins
    | _ =>
        rw [hphase] at howner
        cases howner
  · exact .inl (.inr ((ownerStep_move hstep).owes hcleanup))

/-- A cleanup goes on owing its announcement until it begins. -/
theorem Conn.owes_cleanupStep (hopen : s.presence.gate.isOpen = true)
    (hrunning : s.hub.shuttingDown = false) (hdistinct : s.hub.registered.Nodup) (howes : c.owes)
    (hstep : c.cleanupStep i s = some r) :
    r.1.owes ∨ c.cleanup.broadcast? = none ∧
      ∃ b, r.1.cleanup.broadcast? = some b ∧ s.Only (b.Begins s.announcement) r.2 := by
  have hmove := cleanupStep_move hstep
  rcases howes with howner | hcleanup
  · exact .inl (.inl (hmove.owner_eq ▸ howner))
  rcases hmove.owes hopen hrunning with hstays | ⟨a, hphase⟩
  · exact .inl hstays
  rw [hphase] at hcleanup
  obtain ⟨hidle, hbegins⟩ := Announcement.begins_of_owes (a := a) hcleanup s hdistinct
  simp only [cleanupStep, hphase] at hstep
  split at hstep
  · cases hstep
  case h_2 a' s' heq =>
    cases hstep
    rw [heq] at hbegins
    exact .inr ⟨hphase ▸ hidle, hbegins⟩
  case h_3 result s' heq =>
    rw [heq] at hbegins
    cases hbegins

/-- A step that changes the store or registers its connection owes an announcement. -/
theorem DropMove.owes_or_same (hmove : DropMove i c s true r) :
    r.1.owes ∨ r.2.presence.store = s.presence.store ∧
      (i ∈ r.2.hub.registered → i ∈ s.hub.registered) := by
  cases hmove with
  | unpolled => exact .inr ⟨rfl, id⟩
  | undo => exact .inl (.inr trivial)
  | late => exact .inr ⟨rfl, id⟩

/-- An owner that changes the store, or registers its connection, owes an announcement from then
on. -/
theorem OwnerMove.owes_or_same (hmove : OwnerMove i c s r) (hopen : s.presence.gate.isOpen = true) :
    r.1.owes ∨ r.2.presence.store = s.presence.store ∧
      (i ∈ r.2.hub.registered → i ∈ s.hub.registered) := by
  have hsame {s' : Instance} (haside : s.Aside i s') : s'.presence.store = s.presence.store ∧
      (i ∈ s'.hub.registered → i ∈ s.hub.registered) :=
    ⟨congrArg Ledger.store haside.ledger, haside.registered⟩
  cases hmove with
  | drop => exact (c.drop_move i s true).owes_or_same
  | start => exact .inl (.inl trivial)
  | join call score presence howner hpassed hfinish =>
      exact .inl (.inl (Announcement.owes_start ((Instance.finishJoin_ledger hfinish).1 ▸ hopen)))
  | miss call failure presence howner hpassed hfinish =>
      exact .inl (.inl (Announcement.owes_start ((Instance.finishJoin_ledger hfinish).1 ▸ hopen)))
  | work c' s' hopened hstays hkeeps haside => exact .inr (hsame haside)
  | finish c' s' reason hopened hkeeps howner hready haside => exact .inr (hsame haside)
  | part s' reason deadline howner hdone hspares => exact .inr (hsame (hspares.aside i))
  | stop => exact .inr ⟨rfl, id⟩

/-- A cleanup that changes the store owes an announcement from then on, unless the server is
closing. -/
theorem CleanupMove.owes_or_same (hmove : CleanupMove i c s r)
    (hopen : s.presence.gate.isOpen = true) (hrunning : s.hub.shuttingDown = false) :
    r.1.owes ∨ r.2.presence.store = s.presence.store := by
  rcases hmove.owes hopen hrunning with howes | ⟨a, hannouncing⟩
  · exact .inl howes
  cases hmove with
  | leave registered hready => simp [hannouncing] at hready
  | skip registered hready => simp [hannouncing] at hready
  | left call score presence hleaving => simp [hannouncing] at hleaving
  | fail call failure presence hleaving => simp [hannouncing] at hleaving
  | announce a b s' _ hspares => exact .inr (congrArg Ledger.store hspares.ledger)
  | done a s' _ hspares => exact .inr (congrArg Ledger.store hspares.ledger)

end Steps

namespace World

variable {w w' : World} {e : Event}

/-- Where calls to the store succeed and nobody asks everyone to close, what is owed stays owed
until the announcement begins. -/
theorem Owes.of_after (howes : w.Owes) (hsmooth : w.Smooth) (hsound : w.Sound False)
    (hrunning : w.site.hub.shuttingDown = false) (hevent : e.isSmooth = true)
    (hafter : w.after e = some w') : w'.Owes ∨ ∃ k b, w.Starts k b w.site.announcement w' := by
  obtain ⟨i, c, hconn, howes⟩ := howes
  obtain ⟨c', hconn', hfate⟩ := (after_advance hafter).fate hconn
  cases hfate with
  | aside howner hkeeps =>
      refine .inl ⟨i, c', hconn', ?_⟩
      rw [Conn.owes, howner, hkeeps.cleanup]
      exact howes
  | owner hturn hmove =>
      subst hturn
      obtain ⟨r, hstep, rfl, hlater⟩ := put_eq_of_turn hconn hafter
      rcases Conn.owes_ownerStep hsmooth.gate hsound.distinct howes hstep with
        hstays | ⟨hidle, b, hbegun, hsite⟩
      · exact .inl ⟨i, r.1, hlater, hstays⟩
      · have hcleanup :=
          (Conn.ownerStep_move hstep).cleanup_broadcast (hsound.conns i c hconn).recorded
        exact .inr ⟨.owner i, b, (underway_owner hconn).trans hidle, hsite,
          hbegun ▸ underway_put_owner hconn hcleanup⟩
  | cleanup hturn hmove =>
      subst hturn
      obtain ⟨r, hstep, rfl, hlater⟩ := put_eq_of_turn hconn hafter
      rcases Conn.owes_cleanupStep hsmooth.gate hrunning hsound.distinct howes hstep with
        hstays | ⟨hidle, b, hbegun, hsite⟩
      · exact .inl ⟨i, r.1, hlater, hstays⟩
      · have howner := (Conn.cleanupStep_move hstep).owner_eq
        exact .inr ⟨.cleanup i, b, (underway_cleanup hconn).trans hidle, hsite,
          hbegun ▸ underway_put_cleanup hconn howner⟩
  | orphan horphan =>
      rw [horphan] at hevent
      cases hevent

/-- Where nothing is owed the store is as it was, and nobody has been registered. -/
theorem same_of_not_owes (hsmooth : w.Smooth) (hrunning : w.site.hub.shuttingDown = false)
    (hevent : e.isSmooth = true) (hafter : w.after e = some w') (hpaid : ¬ w'.Owes) :
    w'.site.presence.store = w.site.presence.store ∧
      ∀ j ∈ w'.site.hub.registered, j ∈ w.site.hub.registered := by
  have hnone {i : Nat} {c : Conn} {r : Conn × Instance} (hconn : w.conns[i]? = some c)
      (hw' : w' = w.put i r) : ¬ r.1.owes := by
    have hbound := (List.getElem?_eq_some_iff.mp hconn).1
    exact fun howes => hpaid ⟨i, r.1, by simp [hw', put, hbound], howes⟩
  have hadvance := after_advance hafter
  cases hadvance with
  | owner i c r hconn hmove =>
      obtain ⟨hstore, hown⟩ := (hmove.owes_or_same hsmooth.gate).resolve_left (hnone hconn rfl)
      refine ⟨hstore, fun j hj => ?_⟩
      by_cases hij : j = i
      · exact hij ▸ hown (hij ▸ hj)
      · exact (hmove.others.peers j hij).registered hj
  | writer i c r hconn howner hkeeps hspares =>
      exact ⟨congrArg Ledger.store hspares.ledger, fun j => (hspares.peers j).registered⟩
  | cleanup i c r hconn hmove =>
      have hstore := (hmove.owes_or_same hsmooth.gate hrunning).resolve_left (hnone hconn rfl)
      refine ⟨hstore, fun j hj => ?_⟩
      by_cases hij : j = i
      · exact hij ▸ hmove.registered (hij ▸ hj)
      · exact (hmove.others.peers j hij).registered hj
  | orphan => cases hevent
  | outside => exact ⟨rfl, fun _ => id⟩
  | connect => exact ⟨rfl, fun _ => id⟩
  | spare e w' hspares =>
      exact ⟨congrArg Ledger.store hspares.ledger, fun j => (hspares.peers j).registered⟩

/-- An owner that is dropped in the middle of a broadcast leaves its cleanup to be done. -/
theorem owes_of_givesUp {i : Nat} {c : Conn} {b : Broadcast} (hconn : w.conns[i]? = some c)
    (hbefore : w.underway (.owner i) = some b) : (w.put i (c.drop i w.site true)).Owes := by
  have hbound := (List.getElem?_eq_some_iff.mp hconn).1
  have hopened : c.owner.stage = .opened := by
    rw [underway_owner hconn] at hbefore
    cases howner : c.owner <;> simp_all [Owner.broadcast?, Owner.stage]
  exact ⟨i, _, by simp [put, hbound], .inr ((c.drop_move i w.site true).owes_of_opened hopened)⟩

end World
end Rollcall.Session
