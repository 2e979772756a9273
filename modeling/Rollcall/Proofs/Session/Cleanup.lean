import Rollcall.Proofs.Session.Accounts

/-!
Exactly one cleanup.

However a connection ends, by itself or by being dropped at any point, it is undone once: its
deregistration, its leave and its last announcement each happen at most once, in this order, and
those that are due have happened when its tasks are through (`Run.cleanup_once`).
-/

namespace Rollcall.Session

/-- What holds, in a world where tasks can be started, of the end of connection `i`. -/
structure Conn.UndoneOnce (c : Conn) (i : Nat) (w : World) : Prop where
  /-- Nothing is done twice or out of order. -/
  orderly : Orderly c.deeds
  /-- An owner that ended had never run, or it left a cleanup behind. -/
  started : c.owner.hasEnded = true → c.deeds = [] ∨ c.cleanup ≠ .absent
  /-- When all is through the connection was opened and closed once, and left as often as it
  joined. -/
  through : c.owner.hasEnded = true → c.cleanup = .done →
    c.deeds.count .opened = 1 ∧ c.deeds.count .closed = 1 ∧
      c.deeds.count .leaveAsked = c.deeds.count .joined
  /-- A leave is asked for when the connection is out of the registry, into which it never
  returns. -/
  gone : .closed ∈ c.deeds → i ∉ w.site.hub.registered
  forGood : .opened ∈ c.deeds → i ∉ w.site.hub.registered →
    ∀ w', Run (fun e => e.insideRuntime) w w' → i ∉ w'.site.hub.registered
  /-- The last announcement begins when the leave has returned, if there was one, and not while
  everyone is closing. -/
  announces : ∀ e w' c', w.after e = some w' → w'.conns[i]? = some c' →
    .announced ∉ c.deeds → .announced ∈ c'.deeds →
      w.site.hub.shuttingDown = false ∧
        (.joined ∈ c.deeds → ∃ call, c.cleanup = .leaving call ∧ call.isDue w.site.now)
  /-- A leave that returns while everyone is closing is not announced later either. -/
  silent : ∀ call w', c.cleanup = .leaving call → w.site.hub.shuttingDown = true →
    w.after (.turn (.cleanup i)) = some w' →
      ∀ w'' c'', Run (fun e => e.insideRuntime) w' w'' → w''.conns[i]? = some c'' →
        .announced ∉ c''.deeds

section Steps

variable {i : Nat} {c c' : Conn} {w w' : World} {e : Event} {s : Instance} {r : Conn × Instance}

/-- A connection whose owner has ended either did nothing or has a cleanup. -/
theorem Conn.Recorded.started {orphans : Prop} (hrecorded : c.Recorded orphans)
    (hended : c.owner.hasEnded = true) : c.deeds = [] ∨ c.cleanup ≠ .absent := by
  cases hrecorded with
  | unborn howner => simp [howner, Owner.hasEnded] at hended
  | unpolled _ _ _ hdeeds => exact .inl hdeeds
  | joining call howner => simp [howner, Owner.hasEnded] at hended
  | opened hopen =>
      cases howner : c.owner <;> simp_all [Owner.hasEnded, Owner.stage]
  | _ => exact .inr (by simp_all)

theorem count_deeds (joined left announced : Bool) :
    (openingDeeds joined ++ closingDeeds joined left announced).count .opened = 1 ∧
      (openingDeeds joined ++ closingDeeds joined left announced).count .closed = 1 ∧
      (openingDeeds joined ++ closingDeeds joined left announced).count .leaveAsked =
        (openingDeeds joined ++ closingDeeds joined left announced).count .joined := by
  cases joined <;> cases left <;> cases announced <;> decide

/-- A connection whose cleanup is done was opened once and closed once, and asked to leave as often
as it joined. -/
theorem Conn.Recorded.through (hrecorded : c.Recorded False) (hdone : c.cleanup = .done) :
    c.deeds.count .opened = 1 ∧ c.deeds.count .closed = 1 ∧
      c.deeds.count .leaveAsked = c.deeds.count .joined := by
  cases hrecorded with
  | done left announced _ _ _ hdeeds =>
      rw [hdeeds]
      exact count_deeds c.joined left announced
  | lost hnever => exact hnever.elim
  | _ => simp_all

/-- No deed is undone. -/
theorem Fate.deeds_sublist (hfate : Fate i c w w' e c') {deed : Deed} (hdone : deed ∈ c.deeds) :
    deed ∈ c'.deeds := by
  have henters {member : String} (henters : Enters member (c, w.site) (c', w'.site)) :
      deed ∈ c'.deeds := by
    obtain ⟨fresh, hdeeds, _⟩ := henters
    rw [hdeeds]
    exact List.mem_append_left _ hdone
  cases hfate with
  | aside _ hkeeps => exact hkeeps.deeds ▸ hdone
  | owner _ hmove => exact henters (.of_owner hmove)
  | cleanup _ hmove => exact henters (.of_cleanup hmove)
  | orphan _ hmove =>
      have hdropped : Enters "" (c, w.site) (c', w'.site) := .of_drop hmove
      exact henters hdropped

/-- What a connection has done stays done. -/
theorem World.mem_deeds_of_after {deed : Deed} (hafter : w.after e = some w')
    (hconn : w.conns[i]? = some c) (hdone : deed ∈ c.deeds) :
    ∃ c', w'.conns[i]? = some c' ∧ deed ∈ c'.deeds := by
  obtain ⟨c', hconn', hfate⟩ := (World.after_advance hafter).fate hconn
  exact ⟨c', hconn', hfate.deeds_sublist hdone⟩

theorem World.Sound.opened_of_registered {orphans : Prop} (hsound : w.Sound orphans)
    (hregistered : i ∈ w.site.hub.registered) : ∃ c, w.conns[i]? = some c ∧ .opened ∈ c.deeds := by
  have hconn := List.getElem?_eq_getElem (hsound.known i hregistered)
  exact ⟨_, hconn, ((hsound.conns i _ hconn).registered hregistered).1⟩

/-- A connection that was opened and is out of the registry stays out. -/
theorem Fate.gone {orphans : Prop} (hfate : Fate i c w w' e c') (hsound : w.Sound orphans)
    (hconn : w.conns[i]? = some c) (hopened : .opened ∈ c.deeds)
    (hgone : i ∉ w.site.hub.registered) : i ∉ w'.site.hub.registered := by
  intro hlater
  cases hfate with
  | aside _ _ hregistered => exact hgone (hregistered hlater)
  | owner _ hmove =>
      rcases hmove.registered hlater with hbefore | hunborn
      · exact hgone hbefore
      · obtain ⟨_, _, hdeeds⟩ := (hsound.conns i c hconn).recorded.of_unborn hunborn
        simp [hdeeds] at hopened
  | cleanup _ hmove => exact hgone (hmove.registered hlater)
  | orphan _ hmove => exact hgone (hmove.registered hlater)

/-- A drop takes the connection out of the registry, if anything, and does no other deed. -/
theorem DropMove.mem_deeds {runtime : Bool} {deed : Deed} (hmove : DropMove i c s runtime r)
    (hlater : deed ∈ r.1.deeds) : deed ∈ c.deeds ∨ deed = .closed := by
  cases hmove with
  | unpolled => exact .inl hlater
  | undo => simpa [Conn.deregister, Conn.note] using hlater
  | late => exact .inl hlater

/-- An owner opens, joins and closes, and leaves the rest to the cleanup. -/
theorem OwnerMove.mem_deeds {deed : Deed} (hmove : OwnerMove i c s r) (hlater : deed ∈ r.1.deeds) :
    deed ∈ c.deeds ∨ deed ∈ [.opened, .joined, .closed] := by
  cases hmove with
  | drop =>
      rcases (c.drop_move i s true).mem_deeds hlater with hbefore | rfl
      · exact .inl hbefore
      · exact .inr (by decide)
  | start =>
      rcases List.mem_append.mp hlater with hbefore | hnew
      · exact .inl hbefore
      · exact .inr (by simp_all)
  | join =>
      rcases List.mem_append.mp hlater with hbefore | hnew
      · exact .inl hbefore
      · exact .inr (by simp_all)
  | miss => exact .inl hlater
  | work c' s' _ _ hkeeps => exact .inl (hkeeps.deeds ▸ hlater)
  | finish c' s' _ _ hkeeps => exact .inl (hkeeps.deeds ▸ hlater)
  | part => exact .inl hlater
  | stop => exact .inl hlater

theorem announced_announceEnd (hlater : .announced ∈ (c.announceEnd s).deeds) :
    .announced ∈ c.deeds ∨ s.hub.shuttingDown = false := by
  unfold Conn.announceEnd at hlater
  split at hlater
  · exact .inl hlater
  case isFalse hopen => exact .inr (by simpa using hopen)

theorem announced_undo {registered : Bool} (hlater : .announced ∈ (c.undo registered i s).1.deeds) :
    .announced ∈ c.deeds := by
  cases registered with
  | true => simpa [Conn.undo, Conn.deregister, Conn.note] using hlater
  | false => exact hlater

theorem CleanupMove.announced {orphans : Prop} (hmove : CleanupMove i c s r)
    (hrecorded : c.Recorded orphans) (hlater : .announced ∈ r.1.deeds) :
    .announced ∈ c.deeds ∨ (s.hub.shuttingDown = false ∧
      (.joined ∈ c.deeds → ∃ call, c.cleanup = .leaving call ∧ call.isDue s.now)) := by
  cases hmove with
  | leave registered =>
      have hbefore : .announced ∈ (c.undo registered i s).1.deeds := by
        simpa [Conn.note] using hlater
      exact .inl (announced_undo hbefore)
  | skip registered hcleanup hjoined =>
      have hnever : .joined ∉ c.deeds := by
        rw [(hrecorded.of_ready hcleanup).2, hjoined]
        cases registered <;> decide
      have hdown : (c.undo registered i s).2.hub.shuttingDown = s.hub.shuttingDown :=
        (c.others_undo registered i s).shuttingDown
      rcases announced_announceEnd hlater with hbefore | hopen
      · exact .inl (announced_undo hbefore)
      · exact .inr ⟨hdown ▸ hopen, fun hjoin => absurd hjoin hnever⟩
  | left call score presence hcleanup hdue =>
      rcases announced_announceEnd hlater with hbefore | hopen
      · exact .inl (by simpa [Conn.note] using hbefore)
      · exact .inr ⟨hopen, fun _ => ⟨call, hcleanup, hdue⟩⟩
  | fail call failure presence hcleanup hdue =>
      rcases announced_announceEnd hlater with hbefore | hopen
      · exact .inl hbefore
      · exact .inr ⟨hopen, fun _ => ⟨call, hcleanup, hdue⟩⟩
  | announce => exact .inl hlater
  | done => exact .inl hlater

/-- A leave that returns while everyone is closing ends the cleanup. -/
theorem CleanupMove.silent {orphans : Prop} {call : StoreCall} (hmove : CleanupMove i c s r)
    (hrecorded : c.Recorded orphans) (hcleanup : c.cleanup = .leaving call)
    (hclosing : s.hub.shuttingDown = true) : r.1.cleanup = .done ∧ .announced ∉ r.1.deeds := by
  obtain ⟨_, _, hdeeds⟩ := hrecorded.of_leaving hcleanup
  have hnever : .announced ∉ c.deeds := by
    rw [hdeeds]
    decide
  cases hmove with
  | left => simp [Conn.announceEnd, Conn.note, hclosing, hnever]
  | fail => simp [Conn.announceEnd, hclosing, hnever]
  | leave _ hready => simp [hcleanup] at hready
  | skip _ hready => simp [hcleanup] at hready
  | announce _ _ _ hannounces => simp [hcleanup] at hannounces
  | done _ _ hannounces => simp [hcleanup] at hannounces

theorem Conn.Recorded.of_done {orphans : Prop} (hrecorded : c.Recorded orphans)
    (hdone : c.cleanup = .done) : c.owner.stage = .closing ∨ c.owner.stage = .closed := by
  cases hrecorded with
  | done _ _ howner => exact howner
  | lost _ howner => exact .inr (by rw [howner]; rfl)
  | _ => simp_all

theorem DropMove.final {orphans : Prop} {runtime : Bool} (hmove : DropMove i c s runtime r)
    (hrecorded : c.Recorded orphans) (hdone : c.cleanup = .done) :
    r.1.cleanup = .done ∧ r.1.deeds = c.deeds := by
  have hlate := hrecorded.of_done hdone
  cases hmove with
  | unpolled howner => simp [howner, Owner.stage] at hlate
  | undo s' howner =>
      rcases howner with hopen | ⟨call, hjoining⟩
      · simp [hopen] at hlate
      · simp [hjoining, Owner.stage] at hlate
  | late => exact ⟨hdone, rfl⟩

theorem OwnerMove.final {orphans : Prop} (hmove : OwnerMove i c s r)
    (hrecorded : c.Recorded orphans) (hdone : c.cleanup = .done) :
    r.1.cleanup = .done ∧ r.1.deeds = c.deeds := by
  have hlate := hrecorded.of_done hdone
  cases hmove with
  | drop => exact (c.drop_move i s true).final hrecorded hdone
  | start howner => simp [howner, Owner.stage] at hlate
  | join call _ _ howner => simp [howner, Owner.stage] at hlate
  | miss call _ _ howner => simp [howner, Owner.stage] at hlate
  | work c' s' hopen => simp [hopen] at hlate
  | finish c' s' reason hopen => simp [hopen] at hlate
  | part => exact ⟨hdone, rfl⟩
  | stop => exact ⟨hdone, rfl⟩

theorem CleanupMove.not_done (hmove : CleanupMove i c s r) : c.cleanup ≠ .done := by
  intro hdone
  cases hmove <;> simp_all

/-- A cleanup that is done is the end of the connection's story. -/
theorem Fate.final {orphans : Prop} (hfate : Fate i c w w' e c') (hrecorded : c.Recorded orphans)
    (hdone : c.cleanup = .done) : c'.cleanup = .done ∧ c'.deeds = c.deeds := by
  cases hfate with
  | aside _ hkeeps => exact ⟨hkeeps.cleanup.trans hdone, hkeeps.deeds⟩
  | owner _ hmove => exact hmove.final hrecorded hdone
  | cleanup _ hmove => exact absurd hdone hmove.not_done
  | orphan _ hmove => exact hmove.final hrecorded hdone

/-- A connection that has begun and done nothing was dropped before its start. -/
theorem Conn.Recorded.of_nothing {orphans : Prop} (hrecorded : c.Recorded orphans)
    (hbegun : c.owner ≠ .unborn) (hnothing : .opened ∉ c.deeds) :
    c.owner = .aborted ∧ c.cleanup = .absent := by
  cases hrecorded with
  | unborn howner => exact absurd howner hbegun
  | unpolled howner hcleanup => exact ⟨howner, hcleanup⟩
  | _ => simp_all [Conn.opened_mem_openingDeeds]

theorem OwnerMove.not_aborted (hmove : OwnerMove i c s r) : c.owner ≠ .aborted := by
  intro haborted
  cases hmove with
  | drop hrunning => simp [haborted, Owner.hasEnded] at hrunning
  | work c' s' hopen => simp [haborted, Owner.stage] at hopen
  | finish c' s' reason hopen => simp [haborted, Owner.stage] at hopen
  | _ => simp_all

theorem CleanupMove.not_absent (hmove : CleanupMove i c s r) : c.cleanup ≠ .absent := by
  intro habsent
  cases hmove <;> simp_all

/-- Nothing but the start of its owner opens a connection. -/
theorem Fate.opened {orphans : Prop} (hfate : Fate i c w w' e c') (hrecorded : c.Recorded orphans)
    (hbegun : c.owner ≠ .unborn) (hlater : .opened ∈ c'.deeds) : .opened ∈ c.deeds := by
  by_contra hnothing
  obtain ⟨howner, hcleanup⟩ := hrecorded.of_nothing hbegun hnothing
  cases hfate with
  | aside _ hkeeps => exact hnothing (hkeeps.deeds ▸ hlater)
  | owner _ hmove => exact hmove.not_aborted howner
  | cleanup _ hmove => exact hmove.not_absent hcleanup
  | orphan _ hmove =>
      rcases hmove.mem_deeds hlater with hbefore | hclosed
      · exact hnothing hbefore
      · cases hclosed

end Steps

/-- Where every connection is sound and none is lost, each is undone once. -/
theorem World.Sound.undoneOnce {w : World} {i : Nat} {c : Conn} (hsound : w.Sound False)
    (hconn : w.conns[i]? = some c) : c.UndoneOnce i w := by
  have hrecorded := (hsound.conns i c hconn).recorded
  have hinside : ∀ j, (Event.orphan j).insideRuntime = true → False := nofun
  refine {
    orderly := hrecorded.orderly
    started := hrecorded.started
    through := fun _ hdone => hrecorded.through hdone
    gone := (hsound.conns i c hconn).not_registered
    forGood := ?_
    announces := ?_
    silent := ?_ }
  · intro hopened hgone w' run
    -- what is followed along the run: opened, and out of the registry
    obtain ⟨c', _, _, hout⟩ := run.follow hinside
      (fun e u u' d d' _ _ husound hd _ hfate
          (hkept : .opened ∈ d.deeds ∧ i ∉ u.site.hub.registered) =>
        ⟨hfate.deeds_sublist hkept.1, hfate.gone husound hd hkept.1 hkept.2⟩)
      hsound hconn ⟨hopened, hgone⟩
    exact hout
  · intro e w' c' hafter hc' hnever hlater
    obtain ⟨d', hd', hfate⟩ := (World.after_advance hafter).fate hconn
    obtain rfl : d' = c' := Option.some.inj (hd'.symm.trans hc')
    cases hfate with
    | aside _ hkeeps => exact absurd (hkeeps.deeds ▸ hlater) hnever
    | owner _ hmove => exact absurd ((hmove.mem_deeds hlater).resolve_right (by decide)) hnever
    | cleanup _ hmove => exact (hmove.announced hrecorded hlater).resolve_left hnever
    | orphan _ hmove => exact absurd ((hmove.mem_deeds hlater).resolve_right (by decide)) hnever
  · intro call w' hcleanup hclosing hafter w'' c'' run hc''
    obtain ⟨d, r, hd, hstep, rfl⟩ := World.put_eq_of_step hafter
    obtain rfl : c = d := Option.some.inj (hconn.symm.trans hd)
    have hmove := Conn.cleanupStep_move hstep
    have hbound := (List.getElem?_eq_some_iff.mp hconn).1
    have hnext : (w.put i r).conns[i]? = some r.1 := by simp [World.put, hbound]
    -- the leave has ended the cleanup, and a cleanup that is done stays as it is
    have hlater : (w.put i r).Sound False :=
      hsound.of_advance (by simp) (World.after_advance hafter)
    obtain ⟨d, hd, _, hnever⟩ := run.follow hinside
      (fun e u u' d d' _ _ husound hd _ hfate (hkept : d.cleanup = .done ∧ .announced ∉ d.deeds) =>
        have hfinal := hfate.final (husound.conns i d hd).recorded hkept.1
        ⟨hfinal.1, hfinal.2 ▸ hkept.2⟩)
      hlater hnext (hmove.silent hrecorded hcleanup hclosing)
    obtain rfl : d = c'' := Option.some.inj (hd.symm.trans hc'')
    exact hnever

/-- The connections that were opened and not closed make up the difference of the counts. -/
theorem World.Sound.countP_opened {orphans : Prop} {w : World} (hsound : w.Sound orphans) :
    (w.conns.countP fun c => c.deeds.contains .opened) =
      (w.conns.countP fun c => c.deeds.contains .closed) +
        w.conns.countP fun c => c.deeds.contains .opened && !c.deeds.contains .closed := by
  rw [List.countP_eq_countP_filter_add w.conns _ fun c => c.deeds.contains .closed,
    List.countP_filter, List.countP_filter]
  congr 1
  refine List.countP_congr fun c hc => ?_
  obtain ⟨i, hconn⟩ := List.mem_iff_getElem?.mp hc
  have hclosed := (hsound.conns i c hconn).recorded.orderly.closed
  simpa using hclosed

/-- However a connection ends while tasks can be started, it is undone exactly once; so the counters
differ by the number of connections that were opened and not deregistered. -/
theorem Run.cleanup_once {policy : MessagePolicy} {buffer sendTimeout : Nat} {w : World}
    (run : Run (fun e => e.insideRuntime) (World.create (Instance.create policy buffer sendTimeout))
      w) :
    (∀ (i : Nat) (c : Conn), w.conns[i]? = some c → c.UndoneOnce i w) ∧
    w.site.metrics.connectionsOpened = w.site.metrics.connectionsClosed +
      w.conns.countP fun c => c.deeds.contains .opened && !c.deeds.contains .closed := by
  have hsound := run.sound (fun _ hnever => nomatch hnever)
    (World.sound_create False policy buffer sendTimeout)
  obtain ⟨_, hbalanced⟩ := run.balanced (World.sound_create True policy buffer sendTimeout)
    (World.balanced_create policy buffer sendTimeout)
  refine ⟨fun i c hconn => hsound.undoneOnce hconn, ?_⟩
  have hopened : w.site.metrics.connectionsOpened = w.conns.countP fun c =>
      c.deeds.contains .opened :=
    hbalanced.opened.trans (w.countP_accounts fun deeds => deeds.contains .opened)
  have hclosed : w.site.metrics.connectionsClosed = w.conns.countP fun c =>
      c.deeds.contains .closed :=
    hbalanced.closed.trans (w.countP_accounts fun deeds => deeds.contains .closed)
  rw [hopened, hclosed, hsound.countP_opened]

/-- A connection is dropped while it announces itself. -/
def droppedEvents : List Event :=
  [.connect "alice" ⟨[], false⟩ (.create .accepting none), .turn (.owner 0 .signal),
    .turn (.owner 0 .signal), .abort 0, .turn (.owner 0 .signal), .turn (.cleanup 0),
    .turn (.cleanup 0), .turn (.cleanup 0), .turn (.cleanup 0)]

theorem cleanup_once_dropped :
    ∃ w, (World.create (Instance.create .echo 8 2000)).play droppedEvents = some w ∧
      (∃ c, w.conns[0]? = some c ∧ c.deeds.count .opened = 1 ∧ c.deeds.count .closed = 1 ∧
        c.deeds.count .leaveAsked = c.deeds.count .joined ∧ c.deeds.count .joined = 1) ∧
      w.site.metrics.connectionsOpened = w.site.metrics.connectionsClosed := by
  have hplays : ((World.create (Instance.create .echo 8 2000)).play droppedEvents).isSome := by
    decide
  obtain ⟨w, hplay⟩ := Option.isSome_iff_exists.mp hplays
  have hdeeds : w.conns.map Conn.deeds =
      [[.opened, .joined, .closed, .leaveAsked, .left, .announced]] := by
    have hplayed : ((World.create (Instance.create .echo 8 2000)).play droppedEvents).map
        (fun w => w.conns.map Conn.deeds) =
          some [[.opened, .joined, .closed, .leaveAsked, .left, .announced]] := by decide
    simpa [hplay] using hplayed
  have hended : w.conns.all fun c => c.owner.hasEnded && c.cleanup.isDone := by
    have hplayed : ((World.create (Instance.create .echo 8 2000)).play droppedEvents).all
        (fun w => w.conns.all fun c => c.owner.hasEnded && c.cleanup.isDone) := by decide
    simpa [hplay] using hplayed
  have run : Run (fun e => e.insideRuntime) (World.create (Instance.create .echo 8 2000)) w :=
    .of_play (by decide) hplay
  obtain ⟨honce, hcounts⟩ := run.cleanup_once
  obtain ⟨c, hconns, hc⟩ := List.map_eq_singleton_iff.mp hdeeds
  have hthrough : c.owner.hasEnded = true ∧ c.cleanup.isDone = true := by
    simpa [hconns] using hended
  have hdone : c.cleanup = .done := by
    cases hphase : c.cleanup <;> simp_all [Cleanup.isDone]
  obtain ⟨hopened, hclosed, hleft⟩ := (honce 0 c (by simp [hconns])).through hthrough.1 hdone
  refine ⟨w, hplay, ⟨c, by simp [hconns], hopened, hclosed, hleft, by simp [hc]⟩, ?_⟩
  simpa [hconns, hc] using hcounts

end Rollcall.Session
