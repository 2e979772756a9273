import Rollcall.Proofs.Session.Finish

/-!
What a successful drain tells.

The drain waits for the connections that were registered when the shutdown was ordered, and for
those it may be trusted: a connection that nobody refers to any more has left. A connection that had
been deregistered before is not waited for, although its leave may still be under way. So a
successful shutdown leaves nobody behind exactly if everyone who is present is registered when it is
ordered (`Run.drainsClean_iff`).
-/

namespace Rollcall.Connection.Drain

variable {d d' : Drain} {now : Nat} {isHeld : Nat → Bool} {i : Nat} {r : DrainResult}

/-- A drain returns at a look that finds no handle left, or when its time is up. -/
theorem look_some (hlook : d.look now isHeld = (some r, d')) :
    ((d.pending.filter isHeld).isEmpty = true ∨ d.isTimeUp now = true) ∧
      r = ⟨d.signalled, (d.pending.filter isHeld).length, (d.pending.filter isHeld).isEmpty⟩ := by
  unfold look at hlook
  simp only [Prod.mk.injEq, Option.ite_none_right_eq_some, Option.some.injEq, Bool.or_eq_true]
    at hlook
  exact ⟨hlook.1.1, hlook.1.2.symm⟩

/-- A drain that goes on keeps the handles that are still held. -/
theorem look_none (hlook : d.look now isHeld = (none, d')) :
    (d.pending.filter isHeld).isEmpty = false ∧ d.isTimeUp now = false ∧
      d' = { d with pending := d.pending.filter isHeld, nextLook := now + interval } := by
  unfold look at hlook
  simp only [Prod.mk.injEq, ite_eq_right_iff, Option.some_ne_none, imp_false, Bool.not_eq_true,
    Bool.or_eq_false_iff] at hlook
  exact ⟨hlook.1.1, hlook.1.2, hlook.2.symm⟩

/-- A drain returns with success only if every handle that it watches was released. -/
theorem released_of_look (hlook : d.look now isHeld = (some r, d')) (hsuccess : r.success = true)
    (hpending : i ∈ d.pending) : isHeld i = false := by
  obtain ⟨_, rfl⟩ := look_some hlook
  have hnone := List.filter_eq_nil_iff.mp (List.isEmpty_iff.mp hsuccess) i hpending
  simpa using hnone

theorem pending_of_look (hlook : d.look now isHeld = (none, d')) (hpending : i ∈ d.pending)
    (hheld : isHeld i = true) : i ∈ d'.pending := by
  obtain ⟨_, _, rfl⟩ := look_none hlook
  exact List.mem_filter.mpr ⟨hpending, hheld⟩

end Rollcall.Connection.Drain

namespace Rollcall.Session

open Connection

/-- Whoever had joined when a shutdown was ordered has left when it succeeds. -/
def World.DrainsClean (w : World) : Prop :=
  ∀ (limit pace : Nat) (w' : World) (r : DrainResult),
    Run (fun e => e.isPlain) (w.take (.shutdown limit pace)) w' → w'.operator = .drained r →
      r.success = true → ∀ (i : Nat) (c c' : Conn), w.conns[i]? = some c →
        w'.conns[i]? = some c' → .joined ∈ c.deeds → .left ∈ c'.deeds

section Looking

variable {w w' : World} {i : Nat} {c : Conn}

/-- A connection that was opened and that its own tasks have let go of is cleaned up. -/
theorem Conn.Recorded.done_of_released {orphans : Prop} (hrecorded : c.Recorded orphans)
    (hopened : .opened ∈ c.deeds) (hreleased : c.holdsOwn = false) : c.cleanup = .done := by
  simp only [Conn.holdsOwn, Bool.or_eq_false_iff] at hreleased
  obtain ⟨howner, hcleanup⟩ := hreleased
  cases hrecorded with
  | unborn _ _ _ hdeeds => simp [hdeeds] at hopened
  | unpolled _ _ _ hdeeds => simp [hdeeds] at hopened
  | joining call hjoining => simp [hjoining, Owner.holdsOwn] at howner
  | opened hopen => cases hphase : c.owner <;> simp_all [Owner.stage, Owner.holdsOwn]
  | ending _ hready => simp [hready, Cleanup.holdsOwn] at hcleanup
  | dropped _ hready => simp [hready, Cleanup.holdsOwn] at hcleanup
  | leaving call _ hleaving => simp [hleaving, Cleanup.holdsOwn] at hcleanup
  | announcing a left _ hannouncing => simp [hannouncing, Cleanup.holdsOwn] at hcleanup
  | done left announced _ hdone => exact hdone
  | lost _ _ hdone => exact hdone

theorem World.holdsOwn_of_isHeld (hconn : w.conns[i]? = some c) (hheld : w.isHeld i = false) :
    c.holdsOwn = false := by
  simp only [isHeld, Bool.or_eq_false_iff] at hheld
  simpa [hconn] using hheld.1.1.2

/-- A look drops only what is not held, and succeeds only where it dropped everything. -/
theorem World.operate_draining {d : Drain} (hdrains : w.operator = .draining d)
    (hstep : w.operate = some w') :
    w'.conns = w.conns ∧
      ((∃ r, w'.operator = .drained r ∧
          (r.success = true → ∀ j ∈ d.pending, w.isHeld j = false)) ∨
        ∃ d', w'.operator = .draining d' ∧
          ∀ j ∈ d.pending, w.isHeld j = true → j ∈ d'.pending) := by
  refine ⟨(operate_spares hstep).1, ?_⟩
  simp only [operate, hdrains] at hstep
  split at hstep
  · split at hstep
    case h_1 r d' hlook =>
      cases hstep
      refine .inl ⟨r, rfl, fun hsuccess j hj => ?_⟩
      exact Drain.released_of_look hlook hsuccess hj
    case h_2 d' hlook =>
      cases hstep
      exact .inr ⟨d', rfl, fun j hj hheld => Drain.pending_of_look hlook hj hheld⟩
  · cases hstep

/-- Only orders and the operator's own turns concern the operator. -/
theorem World.operator_after {e : Event} (hafter : w.after e = some w') (hother : e ≠ .operate)
    (horder : e.isOrder = false) : w'.operator = w.operator := by
  cases e with
  | turn task =>
      cases task with
      | owner i first =>
          obtain ⟨c, r, _, _, rfl⟩ := put_eq_of_step hafter
          rfl
      | writer i =>
          obtain ⟨c, r, _, _, rfl⟩ := put_eq_of_step hafter
          rfl
      | cleanup i =>
          obtain ⟨c, r, _, _, rfl⟩ := put_eq_of_step hafter
          rfl
  | operate => exact absurd rfl hother
  | order what => cases horder
  | arrive i arrivals =>
      cases hafter
      unfold arrive
      split <;> rfl
  | orphan i =>
      cases hafter
      unfold orphan
      split <;> rfl
  | close i =>
      cases hafter
      unfold close
      split <;> rfl
  | _ =>
      cases hafter
      rfl

/-- What the drain knows of a connection it waits for: it is pending, or it is cleaned up. -/
structure Conn.Awaited (i : Nat) (c : Conn) (w : World) : Prop where
  opened : .opened ∈ c.deeds
  joined : .joined ∈ c.deeds
  watched : (∃ d, w.operator = .draining d ∧ (i ∈ d.pending ∨ c.cleanup = .done)) ∨
    ∃ r, w.operator = .drained r ∧ (r.success = true → c.cleanup = .done)

theorem Conn.Awaited.of_after {orphans : Prop} {e : Event} {c' : Conn} (hawaited : c.Awaited i w)
    (hplain : e.isPlain = true) (hafter : w.after e = some w') (hsound : w.Sound orphans)
    (hconn : w.conns[i]? = some c) (hfate : Fate i c w w' e c') (hconn' : w'.conns[i]? = some c') :
    c'.Awaited i w' := by
  have hrecorded := (hsound.conns i c hconn).recorded
  have hdone (hbefore : c.cleanup = .done) : c'.cleanup = .done := (hfate.final hrecorded hbefore).1
  refine ⟨hfate.deeds_sublist hawaited.opened, hfate.deeds_sublist hawaited.joined, ?_⟩
  -- a look of the operator moves a connection from pending to released; nothing else touches the
  -- drain
  by_cases hoperates : e = .operate
  · subst hoperates
    rcases hawaited.watched with ⟨d, hdrains, hpending⟩ | ⟨r, hdrained, _⟩
    · obtain ⟨hconns, hlooked⟩ := World.operate_draining hdrains hafter
      obtain rfl : c = c' := Option.some.inj (hconn.symm.trans (hconns ▸ hconn'))
      have hreleased (hheld : w.isHeld i = false) : c.cleanup = .done :=
        hrecorded.done_of_released hawaited.opened (World.holdsOwn_of_isHeld hconn hheld)
      rcases hlooked with ⟨r, hdrained, hall⟩ | ⟨d', hdrains', hkept⟩
      · refine .inr ⟨r, hdrained, fun hsuccess => ?_⟩
        rcases hpending with hmem | hbefore
        · exact hreleased (hall hsuccess i hmem)
        · exact hbefore
      · refine .inl ⟨d', hdrains', ?_⟩
        rcases hpending with hmem | hbefore
        · cases hheld : w.isHeld i with
          | true => exact .inl (hkept i hmem hheld)
          | false => exact .inr (hreleased hheld)
        · exact .inr hbefore
    · simp [World.after, World.operate, hdrained] at hafter
  · have hsame := World.operator_after hafter hoperates (by simp_all [Event.isPlain])
    rw [hsame]
    rcases hawaited.watched with ⟨d, hdrains, hpending⟩ | ⟨r, hdrained, hsuccess⟩
    · exact .inl ⟨d, hdrains, hpending.imp_right hdone⟩
    · exact .inr ⟨r, hdrained, hdone ∘ hsuccess⟩

end Looking

section Shutdown

variable {w : World} {i : Nat} {c : Conn}

theorem World.ready_take {limit pace : Nat} (hsound : w.Sound False) (hsmooth : w.Smooth) :
    (w.take (.shutdown limit pace)).Ready where
  sound := hsound.of_spares (spares_take w _)
  smooth := ⟨hsmooth.gate, hsmooth.conns⟩
  closing := shuttingDown_closeAll w.site.hub

/-- Whoever has joined and is registered when a shutdown is ordered has left when it succeeds. -/
theorem World.left_of_registered {limit pace : Nat} {w' : World} {c' : Conn} {r : DrainResult}
    (hsound : w.Sound False) (hsmooth : w.Smooth)
    (run : Run (fun e => e.isPlain) (w.take (.shutdown limit pace)) w')
    (hdrained : w'.operator = .drained r) (hsuccess : r.success = true)
    (hconn : w.conns[i]? = some c) (hconn' : w'.conns[i]? = some c') (hjoined : .joined ∈ c.deeds)
    (hregistered : i ∈ w.site.hub.registered) : .left ∈ c'.deeds := by
  have hready : (w.take (.shutdown limit pace)).Ready := ready_take hsound hsmooth
  have hstart : c.Awaited i (w.take (.shutdown limit pace)) :=
    ⟨((hsound.conns i c hconn).registered hregistered).1, hjoined,
      .inl ⟨_, rfl, .inl hregistered⟩⟩
  obtain ⟨d, hd, hawaited⟩ := run.follow (fun i hplain => by cases hplain)
    (fun e u u' d d' hplain hafter husound hd hd' hfate hawaited =>
      Conn.Awaited.of_after hawaited hplain hafter husound hd hfate hd')
    hready.sound hconn hstart
  obtain rfl : d = c' := Option.some.inj (hd.symm.trans hconn')
  have hdone : d.cleanup = .done := by
    rcases hawaited.watched with ⟨_, hdrains, _⟩ | ⟨_, hother, hsucceeds⟩
    · simp [hdrains] at hdrained
    · obtain rfl := Operator.drained.inj (hother.symm.trans hdrained)
      exact hsucceeds hsuccess
  exact ((hready.of_run run).smooth.conns i d hd).left (.inl hdone) hawaited.joined

theorem World.mem_deeds_of_run {w' : World} {deed : Deed} (run : Run (fun e => e.isPlain) w w')
    (hsound : w.Sound False) (hconn : w.conns[i]? = some c) (hdone : deed ∈ c.deeds) :
    ∃ c', w'.conns[i]? = some c' ∧ deed ∈ c'.deeds :=
  run.follow (fun i hplain => by cases hplain)
    (fun e u u' d d' _ _ _ _ _ hfate (hkept : deed ∈ d.deeds) => hfate.deeds_sublist hkept)
    hsound hconn hdone

theorem Owner.released_of_hasEnded {o : Owner} (hended : o.hasEnded = true) (j : Nat) :
    o.holdsOwn = false ∧ o.holds j = false := by
  cases o <;> simp_all [Owner.hasEnded, Owner.holdsOwn, Owner.holds]

theorem Conn.Finished.holds (hfinished : c.Finished) (j : Nat) : c.holds j = false := by
  have hcleanup : c.cleanup.holds j = false := by
    rcases Cleanup.rank_eq_zero hfinished.cleanup with habsent | hdone
    · simp [habsent, Cleanup.holds]
    · simp [hdone, Cleanup.holds]
  simp [Conn.holds, (Owner.released_of_hasEnded hfinished.owner j).2, hcleanup]

theorem Conn.Smooth.holds (hsmooth : c.Smooth) (hended : c.owner.hasEnded = true)
    (hjoined : .joined ∈ c.deeds) (howing : .left ∉ c.deeds) (j : Nat) : c.holds j = false := by
  have hcleanup : c.cleanup.holds j = false := by
    cases hphase : c.cleanup with
    | announcing a => exact absurd (hsmooth.left (.inr ⟨a, hphase⟩) hjoined) howing
    | _ => rfl
  simp [Conn.holds, (Owner.released_of_hasEnded hended j).2, hcleanup]

/-- A connection that was opened and is finished is out of the registry, and its tasks have let go
of it. -/
theorem Conn.Finished.released (hfinished : c.Finished) (hsound : c.Sound False i w.site)
    (hopened : .opened ∈ c.deeds) : i ∉ w.site.hub.registered ∧ c.holdsOwn = false := by
  have hdone : c.cleanup = .done := by
    refine (Cleanup.rank_eq_zero hfinished.cleanup).resolve_left fun habsent => ?_
    rcases hsound.recorded.started hfinished.owner with hnothing | hbegun
    · simp [hnothing] at hopened
    · exact hbegun habsent
  have hclosed : .closed ∈ c.deeds := by
    have honce := (hsound.recorded.through hdone).2.1
    exact List.count_pos_iff.mp (by omega)
  refine ⟨hsound.not_registered hclosed, ?_⟩
  simp [Conn.holdsOwn, (Owner.released_of_hasEnded hfinished.owner i).1, hdone, Cleanup.holdsOwn]

/-- Where all connections but one are finished and this one has not left, nobody else is held. -/
theorem World.Ready.not_isHeld {drain : Drain} (hready : w.Ready)
    (hdrains : w.operator = .draining drain) (hconn : w.conns[i]? = some c)
    (hended : c.owner.hasEnded = true) (hjoined : .joined ∈ c.deeds) (howing : .left ∉ c.deeds)
    (hothers : ∀ (j : Nat) (d : Conn), j ≠ i → w.conns[j]? = some d → d.Finished)
    {j : Nat} {d : Conn} (hj : j ≠ i) (hd : w.conns[j]? = some d) (hopened : .opened ∈ d.deeds) :
    w.isHeld j = false := by
  obtain ⟨hgone, hreleased⟩ :=
    (hothers j d hj hd).released (hready.sound.conns j d hd) hopened
  have hholds : (w.conns.any fun c => c.holds j) = false := by
    refine List.any_eq_false.mpr fun other hother => ?_
    obtain ⟨k, hk⟩ := List.mem_iff_getElem?.mp hother
    by_cases hown : k = i
    · rw [hown, hconn] at hk
      cases hk
      simp [(hready.smooth.conns i c hconn).holds hended hjoined howing j]
    · simp [(hothers k other hown hk).holds j]
  simp [isHeld, Hub.isRegistered, hgone, hd, hreleased, hholds, hdrains, Operator.holds]

/-- A drain that looks when it waits for nobody who is held succeeds. -/
theorem World.exists_success {drain : Drain} (hdrains : w.operator = .draining drain)
    (hreleased : ∀ j ∈ drain.pending, w.isHeld j = false) :
    ∃ w' r, Run (fun e => e.isPlain) w w' ∧ w'.conns = w.conns ∧ w'.operator = .drained r ∧
      r.success = true := by
  let u := machine.setNow w (w.site.now + drain.nextLook)
  have hpass : Run (fun e => e.isPlain) w u := .single (.pass drain.nextLook) rfl rfl
  have hdrains' : u.operator = .draining drain := hdrains
  have htime : drain.nextLook ≤ u.site.now := Nat.le_add_left _ _
  have hnone : drain.pending.filter u.isHeld = [] :=
    List.filter_eq_nil_iff.mpr fun j hj => Bool.eq_false_iff.mp (hreleased j hj)
  let r : DrainResult := ⟨drain.signalled, 0, true⟩
  have hlooks : u.operate = some { u with operator := .drained r } := by
    simp [operate, hdrains', htime, Drain.look, hnone, r]
  exact ⟨_, r, hpass.trans (.single .operate rfl hlooks), rfl, rfl, rfl⟩

/-- Whoever is present and not registered when a shutdown is ordered may still be present when it
succeeds: everyone else can be brought to the end first. -/
theorem World.exists_leftBehind (hsound : w.Sound False) (hsmooth : w.Smooth)
    (hconn : w.conns[i]? = some c) (hjoined : .joined ∈ c.deeds) (howing : .left ∉ c.deeds)
    (hout : i ∉ w.site.hub.registered) (limit pace : Nat) :
    ∃ w' r c', Run (fun e => e.isPlain) (w.take (.shutdown limit pace)) w' ∧
      w'.operator = .drained r ∧ r.success = true ∧ w'.conns[i]? = some c' ∧ .left ∉ c'.deeds := by
  let start := w.take (.shutdown limit pace)
  have hready : start.Ready := ready_take hsound hsmooth
  -- everyone but `i` is brought to the end, and then the owner of `i` is dropped: its tasks may go
  -- on leaving, but nobody holds a connection that the drain waits for
  obtain ⟨w₂, run₂, hoperator₂, hfinished, hrest⟩ :=
    hready.exists_allFinished ((List.range w.conns.length).filter (· ≠ i))
  have hconn₂ : w₂.conns[i]? = some c := (hrest i (by simp)).trans hconn
  obtain ⟨w₃, c₃, run₃, hbeside, hconn₃, hended, hleft⟩ := exists_dropped hconn₂
  have run : Run (fun e => e.isPlain) start w₃ := run₂.trans run₃
  have hdrains : w₃.operator =
      .draining (Drain.start w.site.now limit pace w.site.hub.registered) :=
    hbeside.operator.trans hoperator₂
  have hothers (j : Nat) (d : Conn) (hj : j ≠ i) (hd : w₃.conns[j]? = some d) : d.Finished := by
    rw [hbeside.others j hj] at hd
    by_cases hknown : j < w.conns.length
    · exact hfinished j d (by simp [hknown, hj]) hd
    · have hnobody : w.conns[j]? = none := List.getElem?_eq_none (Nat.le_of_not_lt hknown)
      rw [hrest j (by simp [hknown])] at hd
      exact absurd (hd.symm.trans hnobody) (by simp)
  have hjoined₃ : .joined ∈ c₃.deeds := by
    obtain ⟨d, hd, hkept⟩ := mem_deeds_of_run run hready.sound hconn hjoined
    rw [hconn₃] at hd
    cases hd
    exact hkept
  have hreleased : ∀ j ∈ w.site.hub.registered, w₃.isHeld j = false := by
    intro j hj
    obtain ⟨d, hd⟩ : ∃ d, w.conns[j]? = some d := ⟨_, List.getElem?_eq_getElem (hsound.known j hj)⟩
    obtain ⟨d₃, hd₃, hopened⟩ :=
      mem_deeds_of_run run hready.sound hd ((hsound.conns j d hd).registered hj).1
    have hother : j ≠ i := fun hsame => hout (hsame ▸ hj)
    exact (hready.of_run run).not_isHeld hdrains hconn₃ hended hjoined₃ (howing ∘ hleft) hothers
      hother hd₃ hopened
  obtain ⟨w', r, run', hconns, hdrained, hsuccess⟩ := exists_success hdrains hreleased
  exact ⟨w', r, c₃, run.trans run', hdrained, hsuccess, hconns ▸ hconn₃, howing ∘ hleft⟩

end Shutdown

/-- In a run in which every call to the store succeeds, a shutdown that succeeds leaves nobody
behind exactly if everyone who is present is registered when it is ordered. -/
theorem Run.drainsClean_iff {policy : MessagePolicy} {buffer sendTimeout : Nat} {w : World}
    (run : Run (fun e => e.isSmooth) (World.create (Instance.create policy buffer sendTimeout)) w) :
    w.DrainsClean ↔ ∀ (i : Nat) (c : Conn), w.conns[i]? = some c → .joined ∈ c.deeds →
      .left ∉ c.deeds → i ∈ w.site.hub.registered := by
  obtain ⟨hsound, hsmooth⟩ := run.smooth (fun _ => id)
    (World.sound_create False policy buffer sendTimeout)
    (World.smooth_create policy buffer sendTimeout)
  constructor
  · intro hclean i c hconn hjoined howing
    refine Decidable.byContradiction fun hout => ?_
    obtain ⟨w', r, c', hdrain, hdrained, hsuccess, hconn', hbehind⟩ :=
      World.exists_leftBehind hsound hsmooth hconn hjoined howing hout 0 0
    exact hbehind (hclean 0 0 w' r hdrain hdrained hsuccess i c c' hconn hconn' hjoined)
  · intro hregistered limit pace w' r hdrain hdrained hsuccess i c c' hconn hconn' hjoined
    by_cases howing : .left ∈ c.deeds
    · have hready : (w.take (.shutdown limit pace)).Ready := World.ready_take hsound hsmooth
      obtain ⟨d, hd, hkept⟩ := World.mem_deeds_of_run hdrain hready.sound hconn howing
      obtain rfl : d = c' := Option.some.inj (hd.symm.trans hconn')
      exact hkept
    · exact World.left_of_registered hsound hsmooth hdrain hdrained hsuccess hconn hconn' hjoined
        (hregistered i c hconn hjoined howing)

def Operator.result? : Operator → Option DrainResult
  | .drained r => some r
  | _ => none

theorem Operator.eq_drained {o : Operator} {r : DrainResult} (hresult : o.result? = some r) :
    o = .drained r := by
  cases o <;> simp_all [Operator.result?]

def openEvents : List Event :=
  [.connect "alice" ⟨[], false⟩ (.create .accepting none), .turn (.owner 0 .signal),
    .turn (.owner 0 .signal), .turn (.owner 0 .signal), .turn (.owner 0 .signal)]

theorem drainsClean_iff_open :
    ∃ w, (World.create (Instance.create .echo 8 2000)).play openEvents = some w ∧
      w.present = ["alice"] ∧ w.DrainsClean := by
  have hplayed : ((World.create (Instance.create .echo 8 2000)).play openEvents).any
      (fun w => w.present == ["alice"] && w.site.hub.registered == [0] && w.conns.length == 1) := by
    decide
  obtain ⟨w, hplay, hopen⟩ := (Option.any_eq_true _ _).mp hplayed
  simp only [Bool.and_eq_true, beq_iff_eq] at hopen
  obtain ⟨⟨hpresent, hregistered⟩, hlength⟩ := hopen
  have run : Run (fun e => e.isSmooth) (World.create (Instance.create .echo 8 2000)) w :=
    .of_play (by decide) hplay
  refine ⟨w, hplay, hpresent, run.drainsClean_iff.mpr fun i c hconn _ _ => ?_⟩
  have hbound := (List.getElem?_eq_some_iff.mp hconn).1
  rw [hregistered]
  exact List.mem_singleton.mpr (by omega)

/-- The client closes the connection while the store is slow. -/
def closingEvents : List Event :=
  openEvents ++ [.setGate (.slow 1000), .arrive 0 [.frame (.close none)], .turn (.owner 0 .signal),
    .turn (.cleanup 0)]

/-- A shutdown ordered while a leave is under way succeeds at once, and the member stays. -/
theorem slow_leave_left_behind :
    ∃ w w', (World.create (Instance.create .echo 8 2000)).play closingEvents = some w ∧
      (w.take (.shutdown 5000 1)).play [.operate] = some w' ∧
      w'.operator = .drained ⟨0, 0, true⟩ ∧ w'.site.presence.store.score? "alice" = some 1 ∧
      ¬ w.DrainsClean := by
  have hplayed : ((World.create (Instance.create .echo 8 2000)).play closingEvents).any (fun w =>
      ((w.take (.shutdown 5000 1)).play [.operate]).any fun w' =>
        w'.operator.result? == some ⟨0, 0, true⟩ &&
          w'.site.presence.store.score? "alice" == some 1 &&
          w.conns.map Conn.deeds == [[.opened, .joined, .closed, .leaveAsked]] &&
          w'.conns.map Conn.deeds == [[.opened, .joined, .closed, .leaveAsked]]) := by
    decide
  obtain ⟨w, hplay, hthen⟩ := (Option.any_eq_true _ _).mp hplayed
  obtain ⟨w', hplay', hthen⟩ := (Option.any_eq_true _ _).mp hthen
  simp only [Bool.and_eq_true, beq_iff_eq] at hthen
  obtain ⟨⟨⟨hresult, hscore⟩, hdeeds⟩, hdeeds'⟩ := hthen
  have hdrained := Operator.eq_drained hresult
  refine ⟨w, w', hplay, hplay', hdrained, hscore, fun hclean => ?_⟩
  obtain ⟨c, hconns, hc⟩ := List.map_eq_singleton_iff.mp hdeeds
  obtain ⟨c', hconns', hc'⟩ := List.map_eq_singleton_iff.mp hdeeds'
  have hdrain : Run (fun e => e.isPlain) (w.take (.shutdown 5000 1)) w' :=
    .of_play (by decide) hplay'
  have hleft := hclean 5000 1 w' _ hdrain hdrained rfl 0 c c' (by simp [hconns])
    (by simp [hconns']) (by simp [hc])
  simp [hc'] at hleft

end Rollcall.Session
