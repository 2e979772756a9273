import Rollcall.Proofs.Session.Moves
import Rollcall.Proofs.Session.Run

/-!
The life of a connection.

A table of phases (`Conn.Recorded`): for every phase of the owner and of the cleanup, exactly which
deeds have been done and in which order. Beside it stand two facts that the others could spoil: only
connections that were opened and not closed are registered, and the owner minds its close signal.
All three hold of every connection at the end of every run (`Run.sound`).
-/

namespace Rollcall.Session

open Connection

def openingDeeds (joined : Bool) : List Deed := if joined then [.opened, .joined] else [.opened]

/-- The deeds of a cleanup, from the deregistration on. -/
def closingDeeds (asked left announced : Bool) : List Deed :=
  .closed :: ((if asked then [.leaveAsked] else []) ++ (if left then [.left] else []) ++
    if announced then [.announced] else [])

/-- All that can be done for a connection, in the order in which it is done. -/
def Deed.course : List Deed := [.opened, .joined, .closed, .leaveAsked, .left, .announced]

/-- Deeds in their order, none twice. What is closed was opened, a leave is asked for only after a
join and the deregistration, and takes effect only after it was asked for. -/
structure Orderly (deeds : List Deed) : Prop where
  course : deeds.Sublist Deed.course
  closed : .closed ∈ deeds → .opened ∈ deeds
  asked : .leaveAsked ∈ deeds → .joined ∈ deeds ∧ .closed ∈ deeds
  left : .left ∈ deeds → .leaveAsked ∈ deeds

/-- An owner that has left the open stage without waiting for the writer yet. -/
def Owner.awaitsCleanup (o : Owner) : Prop := o = .aborted ∨ ∃ reason, o = .finishing reason

/-- Phases and deeds of a connection. `orphans` tells whether owners may be dropped where no cleanup
can be started. -/
inductive Conn.Recorded (orphans : Prop) (c : Conn) : Prop where
  | unborn (howner : c.owner = .unborn) (hcleanup : c.cleanup = .absent)
      (hjoined : c.joined = false) (hdeeds : c.deeds = [])
  | unpolled (howner : c.owner = .aborted) (hcleanup : c.cleanup = .absent)
      (hjoined : c.joined = false) (hdeeds : c.deeds = [])
  | joining (call : StoreCall) (howner : c.owner = .joining call) (hcleanup : c.cleanup = .absent)
      (hjoined : c.joined = false) (hdeeds : c.deeds = openingDeeds false)
  | opened (howner : c.owner.stage = .opened) (hcleanup : c.cleanup = .absent)
      (hdeeds : c.deeds = openingDeeds c.joined)
  | ending (howner : c.owner.awaitsCleanup) (hcleanup : c.cleanup = .ready true)
      (hdeeds : c.deeds = openingDeeds c.joined)
  | dropped (howner : c.owner = .aborted) (hcleanup : c.cleanup = .ready false)
      (hdeeds : c.deeds = openingDeeds c.joined ++ closingDeeds false false false)
  | leaving (call : StoreCall) (howner : c.owner.awaitsCleanup)
      (hcleanup : c.cleanup = .leaving call) (hjoined : c.joined = true)
      (hdeeds : c.deeds = openingDeeds c.joined ++ closingDeeds true false false)
  | announcing (a : Announcement) (left : Bool) (howner : c.owner.awaitsCleanup)
      (hcleanup : c.cleanup = .announcing a) (hleft : left = true → c.joined = true)
      (hdeeds : c.deeds = openingDeeds c.joined ++ closingDeeds c.joined left true)
  | done (left announced : Bool) (howner : c.owner.stage = .closing ∨ c.owner.stage = .closed)
      (hcleanup : c.cleanup = .done) (hleft : left = true → c.joined = true)
      (hdeeds : c.deeds = openingDeeds c.joined ++ closingDeeds c.joined left announced)
  | lost (horphans : orphans) (howner : c.owner = .aborted) (hcleanup : c.cleanup = .done)
      (hdeeds : c.deeds = openingDeeds c.joined ++ closingDeeds false false false)

structure Conn.Sound (orphans : Prop) (c : Conn) (i : Nat) (s : Instance) : Prop where
  recorded : c.Recorded orphans
  registered : i ∈ s.hub.registered → .opened ∈ c.deeds ∧ .closed ∉ c.deeds
  attends : c.Attends i s

namespace Conn

variable {orphans : Prop} {i : Nat} {c : Conn} {s s' : Instance} {r : Conn × Instance}

theorem opened_mem_openingDeeds (joined : Bool) : .opened ∈ openingDeeds joined := by
  cases joined <;> simp [openingDeeds]

theorem closed_not_mem_openingDeeds (joined : Bool) : .closed ∉ openingDeeds joined := by
  cases joined <;> simp [openingDeeds]

theorem orderly_openingDeeds (joined : Bool) : Orderly (openingDeeds joined) := by
  cases joined <;> exact ⟨by decide, by decide, by decide, by decide⟩

/-- Each deed at most once, and in the order of a connection's life. -/
theorem orderly_deeds (joined asked left announced : Bool) (hasked : asked = true → joined = true)
    (hleft : left = true → asked = true) :
    Orderly (openingDeeds joined ++ closingDeeds asked left announced) := by
  cases joined <;> cases asked <;> cases left <;> cases announced <;> simp_all <;>
    exact ⟨by decide, by decide, by decide, by decide⟩

theorem Recorded.orderly (hrecorded : c.Recorded orphans) : Orderly c.deeds := by
  cases hrecorded with
  | unborn _ _ _ hdeeds => exact hdeeds ▸ ⟨by decide, by decide, by decide, by decide⟩
  | unpolled _ _ _ hdeeds => exact hdeeds ▸ ⟨by decide, by decide, by decide, by decide⟩
  | joining _ _ _ _ hdeeds => exact hdeeds ▸ orderly_openingDeeds false
  | opened _ _ hdeeds => exact hdeeds ▸ orderly_openingDeeds _
  | ending _ _ hdeeds => exact hdeeds ▸ orderly_openingDeeds _
  | dropped _ _ hdeeds => exact hdeeds ▸ orderly_deeds _ false false false (by simp) (by simp)
  | leaving _ _ _ hjoined hdeeds =>
      exact hdeeds ▸ orderly_deeds _ true false false (fun _ => hjoined) (by simp)
  | announcing _ left _ _ hleft hdeeds => exact hdeeds ▸ orderly_deeds _ _ left true id hleft
  | done left announced _ _ hleft hdeeds => exact hdeeds ▸ orderly_deeds _ _ left announced id hleft
  | lost _ _ _ hdeeds => exact hdeeds ▸ orderly_deeds _ false false false (by simp) (by simp)

theorem awaitsCleanup_stage {o : Owner} (hawaits : o.awaitsCleanup) :
    o.stage = .closing ∨ o.stage = .closed := by
  rcases hawaits with rfl | ⟨reason, rfl⟩
  · exact .inr rfl
  · exact .inl rfl

/-- An open connection has done its opening and nothing else. -/
theorem Recorded.of_opened (hrecorded : c.Recorded orphans) (hopen : c.owner.stage = .opened) :
    c.cleanup = .absent ∧ c.deeds = openingDeeds c.joined := by
  have hlate (hlater : c.owner.stage = .closing ∨ c.owner.stage = .closed) : False := by
    simp [hopen] at hlater
  cases hrecorded with
  | opened _ hcleanup hdeeds => exact ⟨hcleanup, hdeeds⟩
  | joining call howner => simp [howner, Owner.stage] at hopen
  | unborn howner => simp [howner, Owner.stage] at hopen
  | unpolled howner => simp [howner, Owner.stage] at hopen
  | ending howner => exact (hlate (awaitsCleanup_stage howner)).elim
  | dropped howner => simp [howner, Owner.stage] at hopen
  | leaving _ howner => exact (hlate (awaitsCleanup_stage howner)).elim
  | announcing _ _ howner => exact (hlate (awaitsCleanup_stage howner)).elim
  | done _ _ howner => exact (hlate howner).elim
  | lost _ howner => simp [howner, Owner.stage] at hopen

/-- A step of other connections cannot spoil what is known of a connection. -/
theorem Sound.of_others (hsound : c.Sound orphans i s) (hspares : Hub.Spares i s.hub s'.hub) :
    c.Sound orphans i s' := by
  refine ⟨hsound.recorded, hsound.registered ∘ hspares.registered, ?_, ?_⟩
  · intro howner σ hσ
    rcases hspares.signal with hsame | hraised
    · exact hsound.attends.listening howner σ (hsame ▸ hσ)
    · rw [hraised, Option.map_eq_some_iff] at hσ
      obtain ⟨before, hbefore, rfl⟩ := hσ
      have hwoken := hsound.attends.listening howner before hbefore
      unfold CloseSignal.raise CloseSignal.setFlag CloseSignal.notify
      cases hflag : before.raised <;> cases hwait : before.wait <;> simp_all
  · intro howner
    exact hspares.wait_none (hsound.attends.elsewhere howner)

theorem Sound.of_keeps {c' : Conn} (hsound : c.Sound orphans i s) (howner : c'.owner = c.owner)
    (hkeeps : c.Keeps c') : c'.Sound orphans i s := by
  obtain ⟨hrecorded, hregistered, hattends⟩ := hsound
  obtain ⟨hcleanup, hjoined, hdeeds⟩ := hkeeps
  refine ⟨?_, hdeeds ▸ hregistered, howner ▸ hattends.listening, howner ▸ hattends.elsewhere⟩
  cases hrecorded with
  | unborn => exact .unborn (by simp_all) (by simp_all) (by simp_all) (by simp_all)
  | unpolled => exact .unpolled (by simp_all) (by simp_all) (by simp_all) (by simp_all)
  | joining call => exact .joining call (by simp_all) (by simp_all) (by simp_all) (by simp_all)
  | opened => exact .opened (by simp_all) (by simp_all) (by simp_all)
  | ending => exact .ending (by simp_all) (by simp_all) (by simp_all)
  | dropped => exact .dropped (by simp_all) (by simp_all) (by simp_all)
  | leaving call => exact .leaving call (by simp_all) (by simp_all) (by simp_all) (by simp_all)
  | announcing a left =>
      exact .announcing a left (by simp_all) (by simp_all) (by simp_all) (by simp_all)
  | done left announced =>
      exact .done left announced (by simp_all) (by simp_all) (by simp_all) (by simp_all)
  | lost horphans => exact .lost horphans (by simp_all) (by simp_all) (by simp_all)

theorem Recorded.of_unborn (hrecorded : c.Recorded orphans) (howner : c.owner = .unborn) :
    c.cleanup = .absent ∧ c.joined = false ∧ c.deeds = [] := by
  cases hrecorded <;> simp_all [Owner.stage, Owner.awaitsCleanup]

theorem Recorded.of_joining {call : StoreCall} (hrecorded : c.Recorded orphans)
    (howner : c.owner = .joining call) :
    c.cleanup = .absent ∧ c.joined = false ∧ c.deeds = openingDeeds false := by
  cases hrecorded <;> simp_all [Owner.stage, Owner.awaitsCleanup]

theorem Recorded.of_ready {registered : Bool} (hrecorded : c.Recorded orphans)
    (hcleanup : c.cleanup = .ready registered) :
    c.owner.awaitsCleanup ∧
      c.deeds = openingDeeds c.joined ++
        if registered then [] else closingDeeds false false false := by
  cases hrecorded <;> simp_all [Owner.awaitsCleanup]

theorem Recorded.of_leaving {call : StoreCall} (hrecorded : c.Recorded orphans)
    (hcleanup : c.cleanup = .leaving call) :
    c.owner.awaitsCleanup ∧ c.joined = true ∧
      c.deeds = openingDeeds true ++ closingDeeds true false false := by
  cases hrecorded <;> simp_all

theorem Recorded.of_announcing {a : Announcement} (hrecorded : c.Recorded orphans)
    (hcleanup : c.cleanup = .announcing a) :
    c.owner.awaitsCleanup ∧ ∃ left, (left = true → c.joined = true) ∧
      c.deeds = openingDeeds c.joined ++ closingDeeds c.joined left true := by
  cases hrecorded with
  | announcing a left howner _ hleft hdeeds => exact ⟨howner, left, hleft, hdeeds⟩
  | _ => simp_all

/-- An owner that is dropped leaves a sound connection; where the cleanup is lost, orphans must be
reckoned with. -/
theorem Sound.of_drop {runtime : Bool} (hsound : c.Sound orphans i s)
    (hdistinct : s.hub.registered.Nodup) (horphans : runtime = false → orphans)
    (hmove : DropMove i c s runtime r) : r.1.Sound orphans i r.2 := by
  cases hmove with
  | unpolled howner =>
      obtain ⟨hcleanup, hjoined, hdeeds⟩ := hsound.recorded.of_unborn howner
      have hquiet := hsound.attends.elsewhere (by simp [howner])
      exact ⟨.unpolled rfl hcleanup hjoined hdeeds, hsound.registered, .of_quiet (by simp) hquiet⟩
  | undo s' howner haside hquiet =>
      have hopening : c.deeds = openingDeeds c.joined := by
        rcases howner with hopen | ⟨call, hjoining⟩
        · exact (hsound.recorded.of_opened hopen).2
        · obtain ⟨_, hjoined, hdeeds⟩ := hsound.recorded.of_joining hjoining
          rw [hjoined, hdeeds]
      have hdeeds : c.deeds ++ [.closed] =
          openingDeeds c.joined ++ closingDeeds false false false := by
        rw [hopening]
        rfl
      refine ⟨?_, fun hregistered => ?_, .of_quiet (by simp [deregister, note]) hquiet⟩
      · cases runtime with
        | true => exact .dropped rfl rfl hdeeds
        | false => exact .lost (horphans rfl) rfl rfl hdeeds
      · have hgone := (haside.distinct hdistinct).not_mem_erase (a := i)
        exact absurd hregistered hgone
  | late howner =>
      have hlate : c.owner ≠ .unborn ∧ c.owner ≠ .listening ∧ c.owner.stage ≠ .opened := by
        refine ⟨?_, ?_, ?_⟩ <;> intro hother <;> simp_all [Owner.stage]
      obtain ⟨hborn, hlistens, hnotopen⟩ := hlate
      have hquiet := hsound.attends.elsewhere hlistens
      refine ⟨?_, hsound.registered, .of_quiet (by simp) hquiet⟩
      -- the owner had stopped reading, so only its phase changes and the record stays
      cases hsound.recorded with
      | unborn hunborn => exact absurd hunborn hborn
      | unpolled _ hcleanup hjoined hdeeds => exact .unpolled rfl hcleanup hjoined hdeeds
      | joining call hjoining => simp [hjoining, Owner.stage] at howner
      | opened hopen => exact absurd hopen hnotopen
      | ending _ hcleanup hdeeds => exact .ending (.inl rfl) hcleanup hdeeds
      | dropped _ hcleanup hdeeds => exact .dropped rfl hcleanup hdeeds
      | leaving call _ hcleanup hjoined hdeeds =>
          exact .leaving call (.inl rfl) hcleanup hjoined hdeeds
      | announcing a left _ hcleanup hleft hdeeds =>
          exact .announcing a left (.inl rfl) hcleanup hleft hdeeds
      | done left announced _ hcleanup hleft hdeeds =>
          exact .done left announced (.inr rfl) hcleanup hleft hdeeds
      | lost horphan _ hcleanup hdeeds => exact .lost horphan rfl hcleanup hdeeds

/-- Every move of an owner keeps the connection sound. -/
theorem Sound.of_owner (hsound : c.Sound orphans i s) (hdistinct : s.hub.registered.Nodup)
    (hmove : OwnerMove i c s r) : r.1.Sound orphans i r.2 := by
  cases hmove with
  | drop => exact hsound.of_drop hdistinct (by simp) (drop_move c i s true)
  | start howner =>
      obtain ⟨hcleanup, hjoined, hdeeds⟩ := hsound.recorded.of_unborn howner
      have hquiet := hsound.attends.elsewhere (by simp [howner])
      have hopened : c.deeds ++ [.opened] = openingDeeds false := by
        rw [hdeeds]
        rfl
      refine ⟨.joining _ rfl hcleanup hjoined hopened, fun _ => ?_,
        .of_quiet (by simp [note]) fun σ hσ => ?_⟩
      · change _ ∈ c.deeds ++ [_] ∧ _ ∉ c.deeds ++ [_]
        rw [hopened]
        exact ⟨opened_mem_openingDeeds _, closed_not_mem_openingDeeds _⟩
      · refine hquiet σ ?_
        have hpeers : (s.hub.add i).peers = s.hub.peers := by
          unfold Hub.add
          split <;> rfl
        simpa [Hub.signal?, Instance.mapHub, Instance.mapMetrics, hpeers] using hσ
  | join call score presence howner =>
      obtain ⟨hcleanup, _, hdeeds⟩ := hsound.recorded.of_joining howner
      have hquiet := hsound.attends.elsewhere (by simp [howner])
      have hjoined : c.deeds ++ [.joined] = openingDeeds true := by
        rw [hdeeds]
        rfl
      refine ⟨.opened rfl hcleanup hjoined, fun _ => ?_, .of_quiet (by simp) hquiet⟩
      change _ ∈ c.deeds ++ [_] ∧ _ ∉ c.deeds ++ [_]
      rw [hjoined]
      exact ⟨opened_mem_openingDeeds _, closed_not_mem_openingDeeds _⟩
  | miss call failure presence howner =>
      obtain ⟨hcleanup, hjoined, hdeeds⟩ := hsound.recorded.of_joining howner
      have hquiet := hsound.attends.elsewhere (by simp [howner])
      exact ⟨.opened rfl hcleanup (by rw [hdeeds, hjoined]), hsound.registered,
        .of_quiet (by simp) hquiet⟩
  | work c' s' hopen hstays hkeeps haside hattends =>
      obtain ⟨hcleanup, hdeeds⟩ := hsound.recorded.of_opened hopen
      refine ⟨.opened hstays (hkeeps.cleanup.trans hcleanup) ?_, ?_, hattends hsound.attends⟩
      · rw [hkeeps.deeds, hkeeps.joined, hdeeds]
      · rw [hkeeps.deeds]
        exact hsound.registered ∘ haside.registered
  | finish c' s' reason hopen hkeeps howner hcleanup haside hquiet =>
      obtain ⟨_, hdeeds⟩ := hsound.recorded.of_opened hopen
      have hsame : c'.deeds = c.deeds ∧ c'.joined = c.joined := ⟨hkeeps.deeds, hkeeps.joined⟩
      refine ⟨.ending (.inr ⟨reason, howner⟩) hcleanup ?_, ?_, .of_quiet (by simp [howner]) hquiet⟩
      · rw [hsame.1, hsame.2, hdeeds]
      · simp only [hsame.1]
        exact hsound.registered ∘ haside.registered
  | part s' reason deadline howner hdone hspares =>
      have hquiet := hsound.attends.elsewhere (by simp [howner])
      refine ⟨?_, hsound.registered ∘ (hspares.peers i).registered,
        .of_quiet (by simp) ((hspares.peers i).wait_none hquiet)⟩
      cases hsound.recorded with
      | done left announced _ hcleanup hleft hdeeds =>
          exact .done left announced (.inl rfl) hcleanup hleft hdeeds
      | lost _ haborted => simp [haborted] at howner
      | _ => simp_all
  | stop reason deadline dropped howner =>
      have hquiet := hsound.attends.elsewhere (by simp [howner])
      refine ⟨?_, hsound.registered, .of_quiet (by simp) hquiet⟩
      cases hsound.recorded with
      | done left announced _ hcleanup hleft hdeeds =>
          exact .done left announced (.inr rfl) hcleanup hleft hdeeds
      | _ => simp_all [Owner.stage, Owner.awaitsCleanup]

/-- What a cleanup finds: the deregistration is done if it had not been. -/
theorem Sound.of_undo {registered : Bool} (hsound : c.Sound orphans i s)
    (hdistinct : s.hub.registered.Nodup) (hcleanup : c.cleanup = .ready registered) :
    Hub.Spares i s.hub (c.undo registered i s).2.hub ∧
      i ∉ (c.undo registered i s).2.hub.registered ∧
      (c.undo registered i s).1 = { c with
        deeds := openingDeeds c.joined ++ closingDeeds false false false } := by
  obtain ⟨_, hdeeds⟩ := hsound.recorded.of_ready hcleanup
  cases registered with
  | true =>
      refine ⟨Hub.Spares.remove s.hub i i, hdistinct.not_mem_erase, ?_⟩
      simp [undo, deregister, note, hdeeds, closingDeeds]
  | false =>
      refine ⟨Hub.Spares.refl i s.hub, fun hregistered => ?_, ?_⟩
      · have hopen := (hsound.registered hregistered).2
        simp [hdeeds, closingDeeds] at hopen
      · simp only [undo, Bool.false_eq_true, if_false] at hdeeds ⊢
        rw [← hdeeds]

/-- A connection that is out of the registry and whose owner listens no more is sound if its record
is. -/
theorem Sound.of_gone {s' : Instance} (howner : c.owner.awaitsCleanup)
    (hrecorded : c.Recorded orphans) (hgone : i ∉ s'.hub.registered)
    (hquiet : ∀ σ, s'.hub.signal? i = some σ → σ.wait = .none) : c.Sound orphans i s' := by
  refine ⟨hrecorded, fun hregistered => absurd hregistered hgone, .of_quiet ?_ hquiet⟩
  rcases howner with haborted | ⟨reason, hfinishing⟩
  · simp [haborted]
  · simp [hfinishing]

theorem recorded_announceEnd (c : Conn) (s : Instance) (left : Bool)
    (hleft : left = true → c.joined = true) (howner : c.owner.awaitsCleanup)
    (hdeeds : c.deeds = openingDeeds c.joined ++ closingDeeds c.joined left false) :
    (c.announceEnd s).Recorded orphans := by
  unfold announceEnd
  split
  · exact .done left false (awaitsCleanup_stage howner) rfl hleft hdeeds
  · refine .announcing _ left howner rfl hleft ?_
    simp only [note, hdeeds, List.append_assoc]
    simp [closingDeeds]

theorem awaitsCleanup_announceEnd (howner : c.owner.awaitsCleanup) (s : Instance) :
    (c.announceEnd s).owner.awaitsCleanup := by
  unfold announceEnd
  split <;> exact howner

/-- A connection that was closed is out of the registry. -/
theorem Sound.not_registered (hsound : c.Sound orphans i s) (hclosed : .closed ∈ c.deeds) :
    i ∉ s.hub.registered :=
  fun hregistered => (hsound.registered hregistered).2 hclosed

theorem Sound.of_cleanup (hsound : c.Sound orphans i s) (hdistinct : s.hub.registered.Nodup)
    (hmove : CleanupMove i c s r) : r.1.Sound orphans i r.2 := by
  have hquiet (howner : c.owner.awaitsCleanup) :
      ∀ σ, s.hub.signal? i = some σ → σ.wait = .none := by
    refine hsound.attends.elsewhere fun hlistens => ?_
    rcases howner with haborted | ⟨reason, hfinishing⟩ <;> simp_all
  cases hmove with
  | leave registered hcleanup hjoined =>
      obtain ⟨howner, _⟩ := hsound.recorded.of_ready hcleanup
      obtain ⟨hspares, hgone, heq⟩ := hsound.of_undo hdistinct hcleanup
      have hdeeds : (openingDeeds c.joined ++ closingDeeds false false false) ++ [.leaveAsked] =
          openingDeeds c.joined ++ closingDeeds true false false := by
        simp [closingDeeds]
      rw [heq]
      exact .of_gone howner (.leaving _ howner rfl hjoined hdeeds) hgone
        (hspares.wait_none (hquiet howner))
  | skip registered hcleanup hjoined =>
      obtain ⟨howner, _⟩ := hsound.recorded.of_ready hcleanup
      obtain ⟨hspares, hgone, heq⟩ := hsound.of_undo hdistinct hcleanup
      rw [heq]
      refine .of_gone (awaitsCleanup_announceEnd (by exact howner) _) ?_ hgone
        (hspares.wait_none (hquiet howner))
      refine recorded_announceEnd _ _ false (by simp) howner ?_
      simp [hjoined]
  | left call score presence hcleanup hdue hpassed hfinish =>
      obtain ⟨howner, hjoined, hdeeds⟩ := hsound.recorded.of_leaving hcleanup
      have hgone := hsound.not_registered (by simp [hdeeds, closingDeeds])
      have hrecorded : (c.note .left).deeds =
          openingDeeds c.joined ++ closingDeeds c.joined true false := by
        simp [note, hdeeds, hjoined, closingDeeds]
      exact .of_gone (awaitsCleanup_announceEnd (by exact howner) _)
        (recorded_announceEnd _ _ true (fun _ => hjoined) howner hrecorded) hgone (hquiet howner)
  | fail call failure presence hcleanup hdue hpassed hfinish =>
      obtain ⟨howner, hjoined, hdeeds⟩ := hsound.recorded.of_leaving hcleanup
      have hgone := hsound.not_registered (by simp [hdeeds, closingDeeds])
      have hrecorded : c.deeds = openingDeeds c.joined ++ closingDeeds c.joined false false := by
        rw [hdeeds, hjoined]
      exact .of_gone (awaitsCleanup_announceEnd howner _)
        (recorded_announceEnd _ _ false (by simp) howner hrecorded) hgone (hquiet howner)
  | announce a b s' hcleanup hspares =>
      obtain ⟨howner, left, hleft, hdeeds⟩ := hsound.recorded.of_announcing hcleanup
      have hgone := hsound.not_registered (by simp [hdeeds, closingDeeds])
      exact .of_gone howner (.announcing (.sending b) left howner rfl hleft hdeeds)
        (fun hregistered => hgone ((hspares.peers i).registered hregistered))
        ((hspares.peers i).wait_none (hquiet howner))
  | done a s' hcleanup hspares =>
      obtain ⟨howner, left, hleft, hdeeds⟩ := hsound.recorded.of_announcing hcleanup
      have hgone := hsound.not_registered (by simp [hdeeds, closingDeeds])
      exact .of_gone howner (.done left true (awaitsCleanup_stage howner) rfl hleft hdeeds)
        (fun hregistered => hgone ((hspares.peers i).registered hregistered))
        ((hspares.peers i).wait_none (hquiet howner))

end Conn
end Rollcall.Session
