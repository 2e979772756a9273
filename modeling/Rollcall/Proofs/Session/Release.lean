import Rollcall.Proofs.Session.Drain
import Rollcall.Proofs.Session.Traffic

/-!
Letting go of a connection.

The handle of a connection is held by the registry, by the tasks of the connection and by broadcasts
that have not reached it. The owner hands it to the cleanup without a gap, also where it is dropped,
so a handle that nobody holds belongs to a connection that has left (`Conn.Released`). Nobody takes
it up again: a broadcast begins with the registry, which no connection enters twice.
-/

namespace Rollcall.Connection.Broadcast

variable {b b' : Broadcast} {parcel : Parcel} {h h' : Hub} {i : Nat}

/-- A broadcast refers to those that it has not reached. -/
theorem holds_iff : b.holds i = true ↔ i ∈ b.failures := by
  simp only [holds, failures, List.any_eq_true, List.mem_map, List.mem_filter, Bool.and_eq_true,
    beq_iff_eq]
  constructor
  case mp =>
    rintro ⟨s, hs, htarget, hstate⟩
    exact ⟨s, ⟨hs, hstate⟩, htarget⟩
  case mpr =>
    rintro ⟨s, ⟨hs, hstate⟩, htarget⟩
    exact ⟨s, hs, htarget, hstate⟩

theorem Begins.holds (hbegins : b.Begins parcel h h') (hholds : b.holds i = true) :
    i ∈ h.registered := by
  rw [← hbegins.targets]
  exact (b.mem_targets i).mpr (.inr (holds_iff.mp hholds))

/-- Whom a broadcast has reached it does not take up again. -/
theorem GoesOn.holds (hgoesOn : b.GoesOn b' h h') (hcarries : b.Carries parcel)
    (hdistinct : b.targets.Nodup) (hholds : b'.holds i = true) : b.holds i = true := by
  rw [holds_iff] at hholds ⊢
  have htarget : i ∈ b.targets := by
    rw [← hgoesOn.targets]
    exact (b'.mem_targets i).mpr (.inr hholds)
  refine ((b.mem_targets i).mp htarget).resolve_left fun hreached => ?_
  obtain ⟨n, _, hcount⟩ := hgoesOn.entered parcel hcarries i
  have hstill : i ∈ b'.reached := by
    have hpositive := List.count_pos_iff.mpr hreached
    exact List.count_pos_iff.mp (by omega)
  exact not_mem_failures (hgoesOn.targets ▸ hdistinct) hstill hholds

end Rollcall.Connection.Broadcast

namespace Rollcall.Session

open Connection

theorem Announcement.holds_eq (a : Announcement) (i : Nat) :
    a.holds i = a.broadcast?.any fun b => b.holds i := by
  cases a <;> rfl

theorem Owner.holds_eq (o : Owner) (i : Nat) : o.holds i = o.broadcast?.any fun b => b.holds i := by
  cases o with
  | announcing a => exact a.holds_eq i
  | _ => rfl

theorem Cleanup.holds_eq (c : Cleanup) (i : Nat) :
    c.holds i = c.broadcast?.any fun b => b.holds i := by
  cases c with
  | announcing a => exact a.holds_eq i
  | _ => rfl

theorem Operator.holds_eq (o : Operator) (i : Nat) :
    o.holds i = o.broadcast?.any fun b => b.holds i := by
  cases o with
  | announcing a => exact a.holds_eq i
  | _ => rfl

section Steps

variable {i : Nat} {c c' : Conn} {w w' : World} {e : Event} {s : Instance} {r : Conn × Instance}

/-- An owner that has let go of a connection that is cleaned up does not take it up again. -/
theorem OwnerMove.holdsOwn {orphans : Prop} (hmove : OwnerMove i c s r)
    (hrecorded : c.Recorded orphans)
    (hdone : c.cleanup = .done) (hreleased : c.owner.holdsOwn = false) :
    r.1.owner.holdsOwn = false := by
  have hlate := hrecorded.of_done hdone
  cases hmove with
  | drop => rw [(c.drop_move i s true).aborted]; rfl
  | start howner => simp [howner, Owner.stage] at hlate
  | join call _ _ howner => simp [howner, Owner.stage] at hlate
  | miss call _ _ howner => simp [howner, Owner.stage] at hlate
  | work c' s' hopen => simp [hopen] at hlate
  | finish c' s' reason hopen => simp [hopen] at hlate
  | part s' reason deadline howner => simp [howner, Owner.holdsOwn] at hreleased
  | stop => rfl

/-- An owner that has let go of its connection sends nothing any more. -/
theorem Conn.entered_of_released {first : Branch} (hreleased : c.owner.holdsOwn = false)
    (hstep : c.ownerStep i s first = some r) : r.2.hub.entered = s.hub.entered := by
  have hopen : c.owner.stage ≠ .opened := by
    intro hstage
    cases howner : c.owner <;> simp_all [Owner.stage, Owner.holdsOwn]
  cases Conn.ownerStep_move hstep with
  | drop => exact (c.drop_silent i s true).1.entered
  | start => exact Hub.entered_add s.hub i
  | join => rfl
  | miss => rfl
  | work c' s' hstage => exact absurd hstage hopen
  | finish c' s' reason hstage => exact absurd hstage hopen
  | part s' reason deadline howner => simp [howner, Owner.holdsOwn] at hreleased
  | stop => rfl

/-- A connection that has cleaned up and let go of its handle takes none again. -/
theorem Fate.holdsOwn {orphans : Prop} (hfate : Fate i c w w' e c') (hrecorded : c.Recorded orphans)
    (hdone : c.cleanup = .done) (hreleased : c.holdsOwn = false) : c'.holdsOwn = false := by
  have hfinal := (hfate.final hrecorded hdone).1
  simp only [Conn.holdsOwn, Bool.or_eq_false_iff] at hreleased ⊢
  refine ⟨?_, by rw [hfinal]; rfl⟩
  cases hfate with
  | aside howner => exact howner ▸ hreleased.1
  | owner _ hmove => exact hmove.holdsOwn hrecorded hdone hreleased.1
  | cleanup _ hmove => exact absurd hdone hmove.not_done
  | orphan _ hmove => rw [hmove.aborted]; rfl

end Steps

namespace World

variable {orphans : Prop} {w w' : World} {e : Event} {i : Nat} {c c' : Conn}

/-- Whether a broadcast under way refers to connection `i`. -/
def Addresses (w : World) (i : Nat) : Prop := ∃ k b, w.underway k = some b ∧ b.holds i = true

/-- A handle is kept by a broadcast exactly if a task that sends one keeps it. -/
theorem addresses_iff :
    w.Addresses i ↔ ((w.conns.any fun c => c.holds i) || w.operator.holds i) = true := by
  simp only [Bool.or_eq_true, List.any_eq_true, Conn.holds, Owner.holds_eq, Cleanup.holds_eq,
    Operator.holds_eq, Option.any_eq_true]
  constructor
  · rintro ⟨k, b, hk, hb⟩
    cases k with
    | owner j =>
        obtain ⟨d, hd, hbroadcast⟩ := Option.bind_eq_some_iff.mp hk
        exact .inl ⟨d, List.mem_of_getElem? hd, .inl ⟨b, hbroadcast, hb⟩⟩
    | cleanup j =>
        obtain ⟨d, hd, hbroadcast⟩ := Option.bind_eq_some_iff.mp hk
        exact .inl ⟨d, List.mem_of_getElem? hd, .inr ⟨b, hbroadcast, hb⟩⟩
    | operator => exact .inr ⟨b, hk, hb⟩
  · rintro (⟨d, hmem, ⟨b, hbroadcast, hb⟩ | ⟨b, hbroadcast, hb⟩⟩ | ⟨b, hbroadcast, hb⟩)
    · obtain ⟨j, hd⟩ := List.mem_iff_getElem?.mp hmem
      exact ⟨.owner j, b, (underway_owner hd).trans hbroadcast, hb⟩
    · obtain ⟨j, hd⟩ := List.mem_iff_getElem?.mp hmem
      exact ⟨.cleanup j, b, (underway_cleanup hd).trans hbroadcast, hb⟩
    · exact ⟨.operator, b, hbroadcast, hb⟩

/-- Nobody holds a handle that is out of the registry, that its own tasks have let go of, and that
no broadcast refers to. -/
theorem isHeld_eq_false_iff (hconn : w.conns[i]? = some c) :
    w.isHeld i = false ↔ i ∉ w.site.hub.registered ∧ c.holdsOwn = false ∧ ¬ w.Addresses i := by
  rw [addresses_iff, isHeld, Bool.or_assoc, Bool.or_eq_false_iff, Bool.or_eq_false_iff,
    Bool.not_eq_true]
  simp [Hub.isRegistered, hconn, and_assoc]

/-- A broadcast refers to whom it referred to before, or to somebody in the registry. -/
theorem Regular.addresses (hregular : w.Regular orphans) (hafter : w.after e = some w')
    (hlater : w'.Addresses i) : w.Addresses i ∨ i ∈ w.site.hub.registered := by
  obtain ⟨k, b, hk, hb⟩ := hlater
  rcases (hregular.traffic hafter).source hk with
    hsame | ⟨before, hbefore, hsite⟩ | ⟨parcel, hsite, _⟩
  · exact .inl ⟨k, b, hsame, hb⟩
  · obtain ⟨parcel, n, hcarried⟩ := hregular.posted.underway k before hbefore
    exact .inl ⟨k, before, hbefore, hsite.hub.holds hcarried.carries hcarried.distinct hb⟩
  · exact .inr (hsite.hub.holds hb)

/-- Whoever was opened and let go of is not taken up again. -/
theorem Regular.not_isHeld (hregular : w.Regular orphans) (hafter : w.after e = some w')
    (hconn : w.conns[i]? = some c) (hopened : .opened ∈ c.deeds) (hreleased : w.isHeld i = false) :
    w'.isHeld i = false := by
  obtain ⟨c', hconn', hfate⟩ := (after_advance hafter).fate hconn
  have hrecorded := (hregular.sound.conns i c hconn).recorded
  obtain ⟨hgone, hown, hnobody⟩ := (isHeld_eq_false_iff hconn).mp hreleased
  have hdone := hrecorded.done_of_released hopened hown
  refine (isHeld_eq_false_iff hconn').mpr
    ⟨?_, hfate.holdsOwn hrecorded hdone hown, fun hlater => ?_⟩
  · exact hfate.gone hregular.sound hconn hopened hgone
  · exact (hregular.addresses hafter hlater).elim hnobody hgone

/-- Nothing enters the channel of a connection that nobody holds. -/
theorem Regular.entered_of_released (hregular : w.Regular orphans) (hafter : w.after e = some w')
    (hconn : w.conns[i]? = some c) (hreleased : w.isHeld i = false) :
    w'.site.hub.entered i = w.site.hub.entered i := by
  obtain ⟨hgone, hown, hnobody⟩ := (isHeld_eq_false_iff hconn).mp hreleased
  cases hregular.traffic hafter with
  | quiet hsite hunderway hreturning hread hpasses =>
      by_cases hturn : ∃ first, e = .turn (.owner i first)
      case neg => exact (hpasses i (not_exists.mp hturn)).entered
      case pos =>
        obtain ⟨first, rfl⟩ := hturn
        obtain ⟨r, hstep, rfl, _⟩ := put_eq_of_turn hconn hafter
        exact congrFun (Conn.entered_of_released ((Bool.or_eq_false_iff.mp hown).1) hstep) i
  | begins k b parcel hidle hsite =>
      have hmissed : b.reached.count i = 0 := by
        refine List.count_eq_zero.mpr fun hreached => hgone ?_
        rw [← hsite.hub.targets]
        exact (b.mem_targets i).mpr (.inl hreached)
      rw [hsite.hub.entered, hmissed, List.replicate_zero, List.append_nil]
  | goesOn k b b' hbefore hsite =>
      obtain ⟨parcel, n, hcarried⟩ := hregular.posted.underway k b hbefore
      obtain ⟨m, hentered, hcount⟩ := hsite.hub.entered parcel hcarried.carries i
      obtain rfl : m = 0 := by
        -- whoever the broadcast does not hold it has reached, and it reaches nobody twice
        by_contra hagain
        have hlater : i ∈ b'.reached := List.count_pos_iff.mp (by omega)
        have htarget : i ∈ b.targets := by
          rw [← hsite.hub.targets]
          exact (b'.mem_targets i).mpr (.inl hlater)
        have hearlier : i ∈ b.reached := by
          refine ((b.mem_targets i).mp htarget).resolve_right fun hfailed => ?_
          exact hnobody ⟨k, b, hbefore, Broadcast.holds_iff.mpr hfailed⟩
        have hfirst := List.count_pos_iff.mpr hearlier
        have honce := List.nodup_iff_count_le_one.mp
          (Broadcast.nodup_reached (hsite.hub.targets ▸ hcarried.distinct)) i
        omega
      rw [hentered, List.replicate_zero, List.append_nil]
  | settles k b hbefore hsite => rw [hsite.hub.entered]
  | givesUp j b d runtime hd hbefore hdrop hruntime hsite hunderway hreturning hread hentered =>
      rw [hentered]

/-- Inside the runtime a handle that was released is never held again. -/
theorem Regular.not_isHeld_run (hregular : w.Regular False)
    (run : Run (fun e => e.insideRuntime) w w') (hconn : w.conns[i]? = some c)
    (hopened : .opened ∈ c.deeds) (hreleased : w.isHeld i = false) :
    ∃ c', w'.conns[i]? = some c' ∧ .opened ∈ c'.deeds ∧ w'.isHeld i = false := by
  induction run with
  | refl => exact ⟨c, hconn, hopened, hreleased⟩
  | step e run _ hafter ih =>
      obtain ⟨d, hd, hopened, hreleased⟩ := ih
      obtain ⟨d', hd', hopened'⟩ := mem_deeds_of_after hafter hd hopened
      have hregular := run.regular (fun _ hnever => nomatch hnever) hregular
      exact ⟨d', hd', hopened', hregular.not_isHeld hafter hd hopened hreleased⟩

end World

theorem Conn.Recorded.begun {orphans : Prop} {c : Conn} (hrecorded : c.Recorded orphans) :
    c.deeds = [] ∨ .opened ∈ c.deeds := by
  cases hrecorded with
  | unborn _ _ _ hdeeds => exact .inl hdeeds
  | unpolled _ _ _ hdeeds => exact .inl hdeeds
  | _ => exact .inr (by simp_all [Conn.opened_mem_openingDeeds])

/-- What it tells of a connection that nobody holds its handle. -/
structure Conn.Released (c : Conn) (i : Nat) (w : World) : Prop where
  gone : i ∉ w.site.hub.registered
  /-- The leave was asked for and has returned. -/
  left : .joined ∈ c.deeds → .leaveAsked ∈ c.deeds ∧ ∀ call, c.cleanup ≠ .leaving call
  forGood : .opened ∈ c.deeds → ∀ w', Run (fun e => e.insideRuntime) w w' → w'.isHeld i = false

/-- A connection that has joined lets go of its handle only after its leave has come back. -/
theorem Conn.Sound.left_of_released {c : Conn} {i : Nat} {s : Instance} (hsound : c.Sound False i s)
    (hreleased : c.holdsOwn = false) (hjoined : .joined ∈ c.deeds) :
    .leaveAsked ∈ c.deeds ∧ ∀ call, c.cleanup ≠ .leaving call := by
  have hopened : .opened ∈ c.deeds := by
    refine hsound.recorded.begun.resolve_left fun hnothing => ?_
    simp [hnothing] at hjoined
  have hdone := hsound.recorded.done_of_released hopened hreleased
  have hasked := (hsound.recorded.through hdone).2.2
  refine ⟨List.count_pos_iff.mp (hasked ▸ List.count_pos_iff.mpr hjoined), fun call => ?_⟩
  simp [hdone]

theorem World.Regular.released {w : World} {i : Nat} {c : Conn} (hregular : w.Regular False)
    (hconn : w.conns[i]? = some c) (hreleased : w.isHeld i = false) : c.Released i w where
  gone := ((isHeld_eq_false_iff hconn).mp hreleased).1
  left := (hregular.sound.conns i c hconn).left_of_released
    ((isHeld_eq_false_iff hconn).mp hreleased).2.1
  forGood hopened w' run := by
    obtain ⟨_, _, _, hlater⟩ := hregular.not_isHeld_run run hconn hopened hreleased
    exact hlater

end Rollcall.Session
