import Rollcall.Proofs.Session.Cleanup
import Rollcall.Proofs.Session.Traffic

/-!
Closing everyone.

Whoever is registered when everyone is asked to close is closing from then on. A connection that
takes its first step later is registered all the same and nobody asks it to close, so that all who
are registered are closing lasts exactly as long as no connection opens (`Run.closes_all`).
-/

namespace Rollcall.Session

open Connection

/-- Only an owner that is not dropped first registers its connection. -/
theorem Conn.registered_ownerStep {i : Nat} {c : Conn} {s : Instance} {first : Branch}
    {r : Conn × Instance} (hstep : c.ownerStep i s first = some r)
    (hlater : i ∈ r.2.hub.registered) :
    i ∈ s.hub.registered ∨ c.owner = .unborn ∧ c.ownerDropped = false := by
  rcases (ownerStep_move hstep).registered hlater with hbefore | hunborn
  · exact .inl hbefore
  cases hdropped : c.ownerDropped with
  | false => exact .inr ⟨hunborn, rfl⟩
  | true =>
      have hdrop : c.drop i s true = r := by
        simpa [ownerStep, hunborn, hdropped, Owner.hasEnded] using hstep
      exact .inl ((c.drop_move i s true).registered (hdrop ▸ hlater))

namespace World

def AllClosing (w : World) : Prop :=
  ∀ i ∈ w.site.hub.registered, w.site.hub.isClosing i = true

/-- At this event connection `i` takes its first step. -/
def Opens (w : World) (e : Event) (i : Nat) : Prop :=
  (∃ first, e = .turn (.owner i first)) ∧
    ∃ c, w.conns[i]? = some c ∧ c.owner = .unborn ∧ c.ownerDropped = false

/-- Nobody asks a connection to close that has not opened. -/
structure Unasked (w : World) : Prop where
  unopened : ∀ i c, w.conns[i]? = some c → .opened ∉ c.deeds → w.site.hub.isClosing i = false
  targets : ∀ k b, w.underway k = some b → ∀ i ∈ b.targets,
    ∃ c, w.conns[i]? = some c ∧ .opened ∈ c.deeds

variable {w w' : World} {e : Event}

/-- A peer that was asked to close stays asked. -/
theorem Traffic.closing (htraffic : w.Traffic e w') {i : Nat}
    (hclosing : w.site.hub.isClosing i = true) : w'.site.hub.isClosing i = true := by
  cases htraffic with
  | quiet hsite => exact hsite.hub.closing i hclosing
  | begins k b parcel hidle hsite => rwa [hsite.hub.closing]
  | goesOn k b b' hbefore hsite => rwa [hsite.hub.closing]
  | settles k b hbefore hsite => exact (hsite.hub.closing i).mpr (.inl hclosing)
  | givesUp j b c runtime hconn hbefore hdrop hruntime hsite => exact hsite.hub.closing i hclosing

/-- Only those who are registered, or to whom a broadcast was under way, are asked to close. -/
theorem Traffic.asked (htraffic : w.Traffic e w') {i : Nat}
    (hclosing : w'.site.hub.isClosing i = true) :
    w.site.hub.isClosing i = true ∨ i ∈ w.site.hub.registered ∨
      ∃ k b, w.underway k = some b ∧ i ∈ b.targets := by
  have hquiet (hsite : w.site.Quiet w'.site) : w.site.hub.isClosing i = true ∨
      i ∈ w.site.hub.registered ∨ ∃ k b, w.underway k = some b ∧ i ∈ b.targets := by
    rcases hsite.hub.asked i hclosing with hbefore | hregistered
    · exact .inl hbefore
    · exact .inr (.inl hregistered)
  cases htraffic with
  | quiet hsite => exact hquiet hsite
  | begins k b parcel hidle hsite => exact .inl (by rwa [← hsite.hub.closing])
  | goesOn k b b' hbefore hsite => exact .inl (by rwa [← hsite.hub.closing])
  | settles k b hbefore hsite =>
      rcases (hsite.hub.closing i).mp hclosing with hearlier | ⟨hfailed, _⟩
      · exact .inl hearlier
      · exact .inr (.inr ⟨k, b, hbefore, (b.mem_targets i).mpr (.inr hfailed)⟩)
  | givesUp j b c runtime hconn hbefore hdrop hruntime hsite => exact hquiet hsite

theorem Unasked.of_after (hunasked : w.Unasked) (hregular : w.Regular True)
    (hafter : w.after e = some w') : w'.Unasked := by
  have htraffic := hregular.traffic hafter
  have hadvance := after_advance hafter
  -- who has opened stays so
  have hstays {i : Nat} (hopened : ∃ c, w.conns[i]? = some c ∧ .opened ∈ c.deeds) :
      ∃ c, w'.conns[i]? = some c ∧ .opened ∈ c.deeds := by
    obtain ⟨c, hconn, hdeed⟩ := hopened
    exact mem_deeds_of_after hafter hconn hdeed
  refine ⟨fun i c' hconn' hunopened => ?_, fun k b hlater i hi => ?_⟩
  · refine Bool.eq_false_iff.mpr fun hclosing => ?_
    have hnever (hopened : ∃ c, w.conns[i]? = some c ∧ .opened ∈ c.deeds) : False := by
      obtain ⟨d, hd, hdeed⟩ := hstays hopened
      obtain rfl : d = c' := Option.some.inj (hd.symm.trans hconn')
      exact hunopened hdeed
    rcases htraffic.asked hclosing with hbefore | hregistered | ⟨k, b, hunderway, hi⟩
    · have hbound : i < w.conns.length := by
        rw [← hregular.sound.sizes]
        refine Decidable.byContradiction fun hbeyond => ?_
        simp [Hub.isClosing, List.getElem?_eq_none_iff.mpr (Nat.le_of_not_lt hbeyond)] at hbefore
      have hconn := List.getElem?_eq_getElem hbound
      have hopened : .opened ∈ w.conns[i].deeds := Decidable.byContradiction fun hnot => by
        simp [hunasked.unopened i _ hconn hnot] at hbefore
      exact hnever ⟨_, hconn, hopened⟩
    · exact hnever (hregular.sound.opened_of_registered hregistered)
    · exact hnever (hunasked.targets k b hunderway i hi)
  · rcases htraffic.source hlater with hsame | ⟨before, hbefore, hsite⟩ | ⟨parcel, hsite, _⟩
    · exact hstays (hunasked.targets k b hsame i hi)
    · rw [hsite.hub.targets] at hi
      exact hstays (hunasked.targets k before hbefore i hi)
    · rw [hsite.hub.targets] at hi
      exact hstays (hregular.sound.opened_of_registered hi)

theorem unasked_create (policy : MessagePolicy) (buffer sendTimeout : Nat) :
    (create (Instance.create policy buffer sendTimeout)).Unasked where
  unopened i c hconn := by simp [create] at hconn
  targets k b hk := by cases k <;> simp [create, World.underway, Operator.broadcast?] at hk

/-- Whoever is registered was so before, unless it has just opened. -/
theorem registered_after (hafter : w.after e = some w') {i : Nat}
    (hlater : i ∈ w'.site.hub.registered) : i ∈ w.site.hub.registered ∨ w.Opens e i := by
  cases after_advance hafter with
  | owner j c r hconn hmove =>
      by_cases hij : i = j
      · subst hij
        obtain ⟨d, r', hconn', hstep, heq⟩ := put_eq_of_step hafter
        have hsite : r.2 = r'.2 := congrArg World.site heq
        rcases Conn.registered_ownerStep hstep (hsite ▸ hlater) with hbefore | hopens
        · exact .inl hbefore
        · exact .inr ⟨⟨_, rfl⟩, d, hconn', hopens⟩
      · exact .inl ((hmove.others.peers i hij).registered hlater)
  | writer j c r hconn howner hkeeps hspares => exact .inl ((hspares.peers i).registered hlater)
  | cleanup j c r hconn hmove =>
      by_cases hij : i = j
      · exact .inl (hij ▸ hmove.registered (hij ▸ hlater))
      · exact .inl ((hmove.others.peers i hij).registered hlater)
  | orphan j c r hconn hmove =>
      by_cases hij : i = j
      · exact .inl (hij ▸ hmove.registered (hij ▸ hlater))
      · exact .inl ((hmove.others.peers i hij).registered hlater)
  | outside e j change => exact .inl hlater
  | connect user input output => exact .inl hlater
  | spare e w' hspares => exact .inl ((hspares.peers i).registered hlater)

/-- A connection that opens is registered, and nobody has asked it to close. -/
theorem Opens.not_allClosing {i : Nat} (hopens : w.Opens e i) (hregular : w.Regular True)
    (hunasked : w.Unasked) (hafter : w.after e = some w') : ¬ w'.AllClosing := by
  obtain ⟨⟨first, rfl⟩, c, hconn, howner, hkept⟩ := hopens
  obtain ⟨r, hstep, rfl, _⟩ := put_eq_of_turn hconn hafter
  obtain ⟨_, _, hdeeds⟩ := (hregular.sound.conns i c hconn).recorded.of_unborn howner
  have hopen := hunasked.unopened i c hconn (by simp [hdeeds])
  have hhub : r.2.hub = w.site.hub.add i := by
    simp only [Conn.ownerStep, howner, hkept, Owner.hasEnded] at hstep
    obtain rfl := Option.some.inj hstep
    rfl
  have hpeers : (w.site.hub.add i).peers = w.site.hub.peers := by
    unfold Hub.add
    split <;> rfl
  have hsame : (w.put i r).site.hub.isClosing i = w.site.hub.isClosing i := by
    change r.2.hub.isClosing i = _
    rw [hhub, Hub.isClosing, hpeers, Hub.isClosing]
  intro hall
  have hregistered : i ∈ (w.put i r).site.hub.registered := by
    change i ∈ r.2.hub.registered
    rw [hhub]
    exact (w.site.hub.mem_registered_add i i).mpr (.inr rfl)
  have hclosing := hall i hregistered
  rw [hsame, hopen] at hclosing
  cases hclosing

/-- If nobody opens at an event, all who are registered are closing after it too. -/
theorem AllClosing.of_after (hall : w.AllClosing) (hregular : w.Regular True)
    (hafter : w.after e = some w') (hnobody : ∀ i, ¬ w.Opens e i) : w'.AllClosing := by
  intro i hlater
  have hbefore := (registered_after hafter hlater).resolve_right (hnobody i)
  exact (hregular.traffic hafter).closing (hall i hbefore)

/-- The close of all asks everyone who is registered, and takes nobody out. -/
theorem allClosing_closeAll {orphans : Prop} (hsound : w.Sound orphans)
    (hcloses : e.closesAll = true) (hafter : w.after e = some w') :
    w'.AllClosing ∧ w'.site.hub.shuttingDown = true ∧
      w'.site.hub.registered = w.site.hub.registered := by
  have hhub : w'.site.hub = w.site.hub.closeAll.2 := by
    cases e with
    | closeAll =>
        cases hafter
        rfl
    | order what =>
        simp only [after] at hafter
        split at hafter
        · cases what with
          | shutdown limit pace =>
              cases hafter
              rfl
          | _ => cases hcloses
        · cases hafter
    | _ => cases hcloses
  have hregistered : w'.site.hub.registered = w.site.hub.registered := by
    rw [hhub]
    exact (spares_closeEach w.site.hub.registered { w.site.hub with shuttingDown := true } 0).2.1
  refine ⟨fun i hi => ?_, hhub ▸ shuttingDown_closeAll w.site.hub, hregistered⟩
  rw [hregistered] at hi
  rw [hhub]
  exact Hub.isClosing_closeEach hi (hsound.sizes ▸ hsound.known i hi)

end World

theorem Run.unasked {may : Event → Prop} {v w : World} (run : Run may v w)
    (hregular : v.Regular True) (hunasked : v.Unasked) : w.Regular True ∧ w.Unasked := by
  have hstep (e : Event) (u u' : World) (_ : may e) (hafter : u.after e = some u')
      (hbefore : u.Regular True ∧ u.Unasked) : u'.Regular True ∧ u'.Unasked :=
    ⟨hbefore.1.of_after (fun _ _ => trivial) hafter, hbefore.2.of_after hbefore.1 hafter⟩
  exact run.invariant hstep ⟨hregular, hunasked⟩

/-- Once everyone has been asked to close, whoever was registered then is closing for good. That all
who are registered are closing holds at the end of every further run just if in none of these runs a
connection opens. -/
theorem Run.closes_all {may : Event → Prop} {policy : MessagePolicy} {buffer sendTimeout : Nat}
    {v w : World} {e : Event}
    (run : Run may (World.create (Instance.create policy buffer sendTimeout)) v)
    (hcloses : e.closesAll = true) (hafter : v.after e = some w) :
    w.AllClosing ∧ w.site.hub.shuttingDown = true ∧
    (∀ (later : Event → Prop) (u : World), Run later w u →
      ∀ i ∈ v.site.hub.registered, u.site.hub.isClosing i = true) ∧
    ∀ later : Event → Prop, (∀ u, Run later w u → u.AllClosing) ↔
      ∀ u f u', Run later w u → later f → u.after f = some u' → ∀ i, ¬ u.Opens f i := by
  obtain ⟨hregular, hunasked⟩ := run.unasked (World.regular_create True policy buffer sendTimeout)
    (World.unasked_create policy buffer sendTimeout)
  obtain ⟨hall, hdown, hregistered⟩ := World.allClosing_closeAll hregular.sound hcloses hafter
  have hregular' := hregular.of_after (fun _ _ => trivial) hafter
  have hunasked' := hunasked.of_after hregular hafter
  refine ⟨hall, hdown, fun later u hlater i hi => ?_,
    fun later => ⟨fun hstays => ?_, fun hnobody => ?_⟩⟩
  · have hstep (f : Event) (u u' : World) (_ : later f) (hafter : u.after f = some u')
        (hbefore : u.Regular True ∧ u.site.hub.isClosing i = true) :
        u'.Regular True ∧ u'.site.hub.isClosing i = true :=
      ⟨hbefore.1.of_after (fun _ _ => trivial) hafter, (hbefore.1.traffic hafter).closing hbefore.2⟩
    exact (hlater.invariant hstep ⟨hregular', hall i (hregistered ▸ hi)⟩).2
  · intro u f u' hlater hf hafter i hopens
    obtain ⟨hreached, hunopened⟩ := hlater.unasked hregular' hunasked'
    exact hopens.not_allClosing hreached hunopened hafter (hstays u' (.step f hlater hf hafter))
  · intro u hlater
    induction hlater with
    | refl => exact hall
    | step f hrun hf hafter ih =>
        have hreached := hrun.regular (fun _ _ => trivial) hregular'
        exact ih.of_after hreached hafter (hnobody _ f _ hrun hf hafter)

/-- One client has opened, another has only connected. -/
def lateEvents : List Event :=
  [.connect "alice" ⟨[], false⟩ (.create .accepting none), .turn (.owner 0 .signal),
    .connect "bob" ⟨[], false⟩ (.create .accepting none)]

theorem closes_all_late :
    ∃ v w, (World.create (Instance.create .echo 8 2000)).play lateEvents = some v ∧
      v.after .closeAll = some w ∧ w.site.hub.registered = [0] ∧
      (∀ u, Run (fun f => f = .pass 50) w u → u.AllClosing) ∧
      ¬ ∀ u, Run (fun _ => True) w u → u.AllClosing := by
  have hplayed : ((World.create (Instance.create .echo 8 2000)).play lateEvents).any (fun v =>
      (v.after .closeAll).any fun w => w.site.hub.registered == [0] &&
        (w.after (.turn (.owner 1 .signal))).isSome &&
        w.conns[1]?.any fun c => c.owner.stage == .connecting && !c.owner.holdsOwn &&
          !c.ownerDropped) := by
    decide
  obtain ⟨v, hplay, hthen⟩ := (Option.any_eq_true _ _).mp hplayed
  obtain ⟨w, hafter, hthen⟩ := (Option.any_eq_true _ _).mp hthen
  simp only [Bool.and_eq_true, beq_iff_eq] at hthen
  obtain ⟨⟨hregistered, hturn⟩, hlast⟩ := hthen
  obtain ⟨c, hconn, hlast⟩ := (Option.any_eq_true _ _).mp hlast
  obtain ⟨u, hturn⟩ := Option.isSome_iff_exists.mp hturn
  simp only [Bool.and_eq_true, beq_iff_eq, Bool.not_eq_true'] at hlast
  obtain ⟨⟨hstage, hholds⟩, hkept⟩ := hlast
  have hunborn : c.owner = .unborn := by
    cases howner : c.owner <;> simp_all [Owner.stage, Owner.holdsOwn]
  have run : Run (fun _ => True) (World.create (Instance.create .echo 8 2000)) v :=
    .of_play (fun _ _ => trivial) hplay
  obtain ⟨_, _, _, hstays⟩ := run.closes_all rfl hafter
  refine ⟨v, w, hplay, hafter, hregistered, (hstays _).mpr ?_, fun hall => ?_⟩
  · rintro u f u' _ rfl _ i ⟨⟨_, hnever⟩, _⟩
    cases hnever
  · exact (hstays _).mp hall w (.turn (.owner 1 .signal)) u .refl trivial hturn 1
      ⟨⟨_, rfl⟩, c, hconn, hunborn, hkept⟩

/-- A client connects after everyone was asked to close. -/
def tooLateEvents : List Event :=
  [.closeAll, .connect "alice" ⟨[], false⟩ (.create .accepting none), .turn (.owner 0 .signal)]

/-- Not everyone who is registered during a shutdown is closing. -/
theorem late_connection_stays_open :
    ¬ ∀ w, Run (fun _ => True) (World.create (Instance.create .echo 8 2000)) w →
      w.site.hub.shuttingDown = true → w.AllClosing := by
  intro hclaim
  have hplayed : ((World.create (Instance.create .echo 8 2000)).play tooLateEvents).any (fun w =>
      w.site.hub.shuttingDown && w.site.hub.registered.contains 0 && !w.site.hub.isClosing 0) := by
    decide
  obtain ⟨w, hplay, hthen⟩ := (Option.any_eq_true _ _).mp hplayed
  simp only [Bool.and_eq_true, List.contains_iff_mem, Bool.not_eq_true'] at hthen
  obtain ⟨⟨hdown, hregistered⟩, hopen⟩ := hthen
  have hclosing := hclaim w (.of_play (fun _ _ => trivial) hplay) hdown 0 hregistered
  rw [hopen] at hclosing
  cases hclosing

end Rollcall.Session
