import Rollcall.Proofs.Session.Release

/-!
What a drain counts.

While a shutdown waits, anything may go on beside it, as long as the clock stops for each look of
the drain and nobody takes up a handle that was released (`World.Meanwhile`); so handles may be
released at any moments, or never. The drain looks at the start and after every interval, and it
returns at the first look at which all handles are released or time is up, with the number of those
still held.

The tasks of an instance go on in this way (`World.Regular.meanwhile`), and a handle that they have
released is that of a connection that has left.
-/

namespace Rollcall.Connection.Drain

variable {d : Drain} {isHeld p : Nat → Bool} {signalled : List Nat}

/-- What was dropped before is not held, so a look finds all that is held. -/
theorem filter_pending (hpending : d.pending = signalled.filter p)
    (hreleased : ∀ i ∈ signalled, p i = false → isHeld i = false) :
    d.pending.filter isHeld = signalled.filter isHeld := by
  rw [hpending, List.filter_filter]
  refine List.filter_congr fun i hi => ?_
  cases hp : p i with
  | true => exact Bool.and_true _
  | false => rw [hreleased i hi hp, Bool.false_and]

end Rollcall.Connection.Drain

namespace Rollcall.Session

open Connection

namespace World

/-- What may go on beside a drain: the clock does not run past the next look, and nobody takes up a
handle that was released. -/
structure Meanwhile (watched : List Nat) (w w' : World) : Prop where
  operator : w'.operator = w.operator
  clock : w.site.now ≤ w'.site.now
  punctual : ∀ d, w.operator = .draining d → w.site.now ≤ d.nextLook → w'.site.now ≤ d.nextLook
  released : ∀ i ∈ watched, w.isHeld i = false → w'.isHeld i = false

/-- A shutdown of `w` under way, with the worlds that its drain has looked at. -/
inductive ShutsDown (w : World) (limit : Nat) : List World → World → Prop where
  | ordered : ShutsDown w limit [] (w.take (.shutdown limit 1))
  | meanwhile {looks : List World} {u u' : World} (earlier : ShutsDown w limit looks u)
      (hmeanwhile : Meanwhile w.site.hub.registered u u') : ShutsDown w limit looks u'
  | look {looks : List World} {u u' : World} (earlier : ShutsDown w limit looks u)
      (hlooks : u.operate = some u') : ShutsDown w limit (looks ++ [u]) u'

/-- Look number `j` finds somebody held, and there is time left. -/
structure GoesOn (w : World) (limit j : Nat) (v : World) : Prop where
  moment : v.site.now = w.site.now + Drain.interval * j
  held : ∃ i ∈ w.site.hub.registered, v.isHeld i = true
  early : Drain.interval * j < limit

/-- Look number `k` finds everybody released or time up, and the drain returns with those still
held. -/
structure Returns (w : World) (limit k : Nat) (v : World) (r : DrainResult) : Prop where
  moment : v.site.now = w.site.now + Drain.interval * k
  ends : (∀ i ∈ w.site.hub.registered, v.isHeld i = false) ∨ limit ≤ Drain.interval * k
  signalled : r.signalled = w.site.hub.registered.length
  remaining : r.remaining = w.site.hub.registered.countP v.isHeld
  success : r.success = true ↔ r.remaining = 0

/-- Where a shutdown stands after its looks: each of them had to go on, and the next one is not
missed; or the last one was the first that had not, and the drain has returned with it. -/
inductive CountsHeld (w : World) (limit : Nat) (looks : List World) (u : World) : Prop where
  | waiting (d : Drain) (hdrains : u.operator = .draining d)
      (hgoesOn : ∀ j v, looks[j]? = some v → w.GoesOn limit j v)
      (hpunctual : u.site.now ≤ w.site.now + Drain.interval * looks.length)
      (hlooks : u.site.now = w.site.now + Drain.interval * looks.length → u.operate.isSome = true)
  | returned (r : DrainResult) (before : List World) (v : World)
      (hdrained : u.operator = .drained r) (hlooks : looks = before ++ [v])
      (hgoesOn : ∀ j v, before[j]? = some v → w.GoesOn limit j v)
      (hreturns : w.Returns limit before.length v r)

/-- What a drain that waits knows. -/
structure Waits (w : World) (limit : Nat) (looks : List World) (u : World) (d : Drain) : Prop where
  operator : u.operator = .draining d
  signalled : d.signalled = w.site.hub.registered.length
  startedAt : d.startedAt = w.site.now
  lasts : d.limit = limit
  pace : d.pace = 1
  nextLook : d.nextLook = w.site.now + Drain.interval * looks.length
  punctual : u.site.now ≤ d.nextLook
  /-- Dropped is only who was not held. -/
  pending : ∃ p : Nat → Bool, d.pending = w.site.hub.registered.filter p ∧
    ∀ i ∈ w.site.hub.registered, p i = false → u.isHeld i = false
  goesOn : ∀ j v, looks[j]? = some v → w.GoesOn limit j v

variable {w u u' : World} {limit : Nat} {looks : List World} {d : Drain}

/-- An ordered shutdown waits for its first look, which is due at once. -/
theorem waits_take (w : World) (limit : Nat) :
    Waits w limit [] (w.take (.shutdown limit 1))
      (Drain.start w.site.now limit 1 w.site.hub.registered) where
  operator := rfl
  signalled := rfl
  startedAt := rfl
  lasts := rfl
  pace := rfl
  nextLook := rfl
  punctual := Nat.le_refl _
  pending := ⟨fun _ => true, (List.filter_true _).symm, fun _ _ hnever => nomatch hnever⟩
  goesOn j v hv := by cases hv

/-- What goes on beside a drain does not change what it knows. -/
theorem Waits.meanwhile (hwaits : Waits w limit looks u d)
    (hmeanwhile : Meanwhile w.site.hub.registered u u') :
    Waits w limit looks u' d where
  operator := hmeanwhile.operator.trans hwaits.operator
  signalled := hwaits.signalled
  startedAt := hwaits.startedAt
  lasts := hwaits.lasts
  pace := hwaits.pace
  nextLook := hwaits.nextLook
  punctual := hmeanwhile.punctual d hwaits.operator hwaits.punctual
  pending := by
    obtain ⟨p, hpending, hreleased⟩ := hwaits.pending
    exact ⟨p, hpending, fun i hi hp => hmeanwhile.released i hi (hreleased i hi hp)⟩
  goesOn := hwaits.goesOn

theorem goesOn_append (hbefore : ∀ j v, looks[j]? = some v → w.GoesOn limit j v)
    (hlast : w.GoesOn limit looks.length u) :
    ∀ j v, (looks ++ [u])[j]? = some v → w.GoesOn limit j v := by
  intro j v hv
  rw [List.getElem?_append] at hv
  split at hv
  case isTrue => exact hbefore j v hv
  case isFalse hlate =>
    obtain ⟨hlt, rfl⟩ := List.getElem?_eq_some_iff.mp hv
    have hlength : j - looks.length < 1 := hlt
    obtain rfl : j = looks.length := by omega
    simpa using hlast

/-- A look is not taken before its moment, and the clock has not run past it. -/
theorem Waits.due (hwaits : Waits w limit looks u d) (hlooks : u.operate = some u') :
    u.site.now = d.nextLook := by
  simp only [operate, hwaits.operator] at hlooks
  split at hlooks
  case isTrue hdue => exact Nat.le_antisymm hwaits.punctual hdue
  case isFalse => cases hlooks

/-- At a look the time is up exactly if the intervals that went by fill the limit. -/
theorem Waits.isTimeUp_iff (hwaits : Waits w limit looks u d) (hnow : u.site.now = d.nextLook) :
    d.isTimeUp u.site.now = true ↔ limit ≤ Drain.interval * looks.length := by
  simp only [Drain.isTimeUp, decide_eq_true_eq]
  rw [hwaits.lasts, hwaits.pace, hwaits.startedAt, hnow, hwaits.nextLook, Nat.mul_one,
    Nat.add_sub_cancel_left]

/-- Those that a look leaves are those who are held. -/
theorem Waits.filter_pending (hwaits : Waits w limit looks u d) :
    d.pending.filter u.isHeld = w.site.hub.registered.filter u.isHeld := by
  obtain ⟨p, hpending, hreleased⟩ := hwaits.pending
  exact Drain.filter_pending hpending hreleased

/-- A look leads to the next one or ends the drain. -/
theorem Waits.look (hwaits : Waits w limit looks u d) (hlooks : u.operate = some u') :
    (∃ d', Waits w limit (looks ++ [u]) u' d') ∨
      ∃ r, u'.operator = .drained r ∧ w.Returns limit looks.length u r := by
  have hnow := hwaits.due hlooks
  have hmoment : u.site.now = w.site.now + Drain.interval * looks.length :=
    hnow.trans hwaits.nextLook
  simp only [operate, hwaits.operator, if_pos (Nat.le_of_eq hnow.symm)] at hlooks
  split at hlooks
  case h_1 r d' hlook =>
    cases hlooks
    obtain ⟨hover, rfl⟩ := Drain.look_some hlook
    refine .inr ⟨_, rfl, hmoment, ?_, hwaits.signalled, ?_, ?_⟩
    · refine hover.imp (fun hempty => ?_) (hwaits.isTimeUp_iff hnow).mp
      rw [hwaits.filter_pending, List.isEmpty_iff] at hempty
      exact fun i hi => Bool.eq_false_iff.mpr (List.filter_eq_nil_iff.mp hempty i hi)
    · rw [hwaits.filter_pending, List.countP_eq_length_filter]
    · exact List.isEmpty_iff_length_eq_zero
  case h_2 d' hlook =>
    cases hlooks
    obtain ⟨hsome, hearly, rfl⟩ := Drain.look_none hlook
    rw [hwaits.filter_pending, List.isEmpty_eq_false_iff_exists_mem] at hsome
    obtain ⟨i, hi⟩ := hsome
    have hlast : w.GoesOn limit looks.length u := by
      refine ⟨hmoment, ⟨i, List.mem_filter.mp hi⟩, Nat.lt_of_not_le fun hover => ?_⟩
      cases hearly.symm.trans ((hwaits.isTimeUp_iff hnow).mpr hover)
    have hlater : u.site.now + Drain.interval =
        w.site.now + Drain.interval * (looks ++ [u]).length := by
      rw [hmoment, List.length_append, List.length_singleton, Nat.mul_succ, Nat.add_assoc]
    refine .inl ⟨{ d with
      pending := d.pending.filter u.isHeld
      nextLook := u.site.now + Drain.interval }, ?_⟩
    constructor
    case operator => rfl
    case signalled => exact hwaits.signalled
    case startedAt => exact hwaits.startedAt
    case lasts => exact hwaits.lasts
    case pace => exact hwaits.pace
    case nextLook => exact hlater
    case punctual => exact Nat.le_add_right _ _
    case pending =>
      refine ⟨u.isHeld, hwaits.filter_pending, fun i _ hreleased => ?_⟩
      rw [← hreleased]
      simp [isHeld, hwaits.operator, Operator.holds]
    case goesOn => exact goesOn_append hwaits.goesOn hlast

/-- A shutdown waits, or the drain has returned with its last look. -/
theorem ShutsDown.waits_or_returned (hshutdown : ShutsDown w limit looks u) :
    (∃ d, Waits w limit looks u d) ∨
      ∃ r before v, u.operator = .drained r ∧ looks = before ++ [v] ∧
        (∀ j v, before[j]? = some v → w.GoesOn limit j v) ∧ w.Returns limit before.length v r := by
  induction hshutdown with
  | ordered => exact .inl ⟨_, waits_take w limit⟩
  | meanwhile earlier hmeanwhile ih =>
      rcases ih with ⟨d, hwaits⟩ | ⟨r, before, v, hdrained, hreturned⟩
      · exact .inl ⟨d, hwaits.meanwhile hmeanwhile⟩
      · exact .inr ⟨r, before, v, hmeanwhile.operator.trans hdrained, hreturned⟩
  | look earlier hlooks ih =>
      rcases ih with ⟨d, hwaits⟩ | ⟨r, before, v, hdrained, _⟩
      · rcases hwaits.look hlooks with hgoesOn | ⟨r, hdrained, hreturns⟩
        · exact .inl hgoesOn
        · exact .inr ⟨r, _, _, hdrained, rfl, hwaits.goesOn, hreturns⟩
      · simp [operate, hdrained] at hlooks

/-- A look that is due is taken. -/
theorem Waits.isSome_operate (hwaits : Waits w limit looks u d)
    (hnow : u.site.now = w.site.now + Drain.interval * looks.length) : u.operate.isSome = true := by
  have hdue : d.nextLook ≤ u.site.now := Nat.le_of_eq (hwaits.nextLook.trans hnow.symm)
  simp only [operate, hwaits.operator, hdue, if_true]
  split <;> rfl

/-- A shutdown looks in time and returns at the first look at which it has nothing to wait for. -/
theorem ShutsDown.countsHeld (hshutdown : ShutsDown w limit looks u) :
    w.CountsHeld limit looks u := by
  rcases hshutdown.waits_or_returned with ⟨d, hwaits⟩ | ⟨r, before, v, hdrained, hlooks, hreturned⟩
  · exact .waiting d hwaits.operator hwaits.goesOn (hwaits.nextLook ▸ hwaits.punctual)
      hwaits.isSome_operate
  · exact .returned r before v hdrained hlooks hreturned.1 hreturned.2

/-- Where nothing happens but that time passes, the next look comes. -/
theorem Waits.exists_look (hwaits : Waits w limit looks u d) :
    ∃ v u', Meanwhile w.site.hub.registered u v ∧ v.operate = some u' := by
  have hmeanwhile : Meanwhile w.site.hub.registered u (machine.setNow u d.nextLook) := by
    refine ⟨rfl, hwaits.punctual, fun d' hdrains _ => ?_, fun _ _ hreleased => hreleased⟩
    cases hwaits.operator.symm.trans hdrains
    exact Nat.le_refl _
  have hlooks := (hwaits.meanwhile hmeanwhile).isSome_operate hwaits.nextLook
  obtain ⟨u', hlooks⟩ := Option.isSome_iff_exists.mp hlooks
  exact ⟨_, u', hmeanwhile, hlooks⟩

/-- A shutdown comes to its end: each look that has to go on is one of the few within the limit. -/
theorem ShutsDown.exists_returned (hshutdown : ShutsDown w limit looks u) :
    ∃ later u' r, ShutsDown w limit (looks ++ later) u' ∧ u'.operator = .drained r := by
  induction hleft : limit - Drain.interval * looks.length using Nat.strongRecOn
    generalizing looks u with
  | ind left ih =>
      rcases hshutdown.waits_or_returned with ⟨d, hwaits⟩ | ⟨r, before, v, hdrained, _⟩
      · obtain ⟨v, u', hmeanwhile, hlooks⟩ := hwaits.exists_look
        have hlater := (hshutdown.meanwhile hmeanwhile).look hlooks
        rcases (hwaits.meanwhile hmeanwhile).look hlooks with ⟨d', hwaits'⟩ | ⟨r, hdrained, _⟩
        · have hearly : Drain.interval * looks.length < limit :=
            (hwaits'.goesOn looks.length v (by simp)).early
          have hless : limit - Drain.interval * (looks ++ [v]).length < left := by
            rw [← hleft, List.length_append, List.length_singleton, Nat.mul_succ]
            have hpositive : 0 < Drain.interval := by decide
            omega
          obtain ⟨later, u'', r, hend, hdrained⟩ := ih _ hless hlater rfl
          rw [List.append_assoc] at hend
          exact ⟨_, u'', r, hend, hdrained⟩
        · exact ⟨[v], u', r, hlater, hdrained⟩
      · exact ⟨[], u, r, (List.append_nil looks).symm ▸ hshutdown, hdrained⟩

section Tasks

variable {orphans : Prop} {e : Event}

/-- Only the clock itself moves the clock. -/
theorem now_after (hafter : w.after e = some u) (hother : ∀ millis, e ≠ .pass millis) :
    u.site.now = w.site.now := by
  cases e with
  | turn task =>
      cases task with
      | owner i first =>
          obtain ⟨c, r, _, hstep, rfl⟩ := put_eq_of_step hafter
          exact (Conn.ownerStep_move hstep).others.now
      | writer i =>
          obtain ⟨c, r, _, hstep, rfl⟩ := put_eq_of_step hafter
          exact (Conn.writerStep_spares hstep).2.2.now
      | cleanup i =>
          obtain ⟨c, r, _, hstep, rfl⟩ := put_eq_of_step hafter
          exact (Conn.cleanupStep_move hstep).others.now
  | operate => exact (operate_spares hafter).2.now
  | pass millis => exact absurd rfl (hother millis)
  | arrive i arrivals =>
      cases hafter
      unfold arrive
      split <;> rfl
  | orphan i =>
      cases hafter
      unfold orphan
      split
      case h_1 c hconn => exact (c.drop_move i w.site false).others.now
      case h_2 => rfl
  | close i =>
      cases hafter
      unfold close
      split <;> rfl
  | order what =>
      simp only [after] at hafter
      split at hafter
      · cases hafter
        cases what <;> rfl
      · cases hafter
  | _ =>
      cases hafter
      rfl

/-- Whether the event leaves the operator alone where it drains, and the clock stops for its
looks. -/
def isTimely (w : World) (e : Event) : Bool :=
  match e, w.operator with
  | .pass millis, .draining d => w.site.now + millis ≤ d.nextLook
  | .order _, _ => false
  | e, _ => e.insideRuntime

/-- What the tasks do, and what comes from outside, goes on beside a drain. -/
theorem Regular.meanwhile {watched : List Nat} (hregular : w.Regular orphans)
    (hopened : ∀ i ∈ watched, ∃ c, w.conns[i]? = some c ∧ .opened ∈ c.deeds)
    (hafter : w.after e = some u) (htimely : w.isTimely e = true) (hother : e ≠ .operate) :
    Meanwhile watched w u := by
  have hreleased : ∀ i ∈ watched, w.isHeld i = false → u.isHeld i = false := by
    intro i hi hreleased
    obtain ⟨c, hconn, hopened⟩ := hopened i hi
    exact hregular.not_isHeld hafter hconn hopened hreleased
  have hoperator : u.operator = w.operator := by
    refine operator_after hafter hother ?_
    cases e <;> first | rfl | (simp [isTimely] at htimely)
  by_cases hclock : ∃ millis, e = .pass millis
  · obtain ⟨millis, rfl⟩ := hclock
    cases hafter
    refine ⟨rfl, Nat.le_add_right _ _, fun d hdrains _ => ?_, hreleased⟩
    have htime : w.site.now + millis ≤ d.nextLook := by simpa [isTimely, hdrains] using htimely
    exact htime
  · have hnow := now_after hafter fun millis he => hclock ⟨millis, he⟩
    exact ⟨hoperator, Nat.le_of_eq hnow.symm, fun d _ hpunctual => hnow ▸ hpunctual, hreleased⟩

def areTimely (w : World) : List Event → Bool
  | [] => true
  | e :: rest => w.isTimely e && (w.after e).all fun w => w.areTimely rest

theorem ShutsDown.of_play {events : List Event} (hshutdown : ShutsDown w limit looks u)
    (hregular : u.Regular False)
    (hopened : ∀ i ∈ w.site.hub.registered, ∃ c, u.conns[i]? = some c ∧ .opened ∈ c.deeds)
    (hplay : u.play events = some u') (htimely : u.areTimely events = true) :
    ∃ looks', ShutsDown w limit looks' u' := by
  induction events generalizing u looks with
  | nil =>
      cases hplay
      exact ⟨looks, hshutdown⟩
  | cons e rest ih =>
      obtain ⟨v, hafter, hrest⟩ := Option.bind_eq_some_iff.mp hplay
      simp only [areTimely, hafter, Option.all_some, Bool.and_eq_true] at htimely
      have hinside : ∀ i, e ≠ .orphan i := by
        rintro i rfl
        simp [isTimely, Event.insideRuntime] at htimely
      have hregular' := hregular.of_after (fun i he => hinside i he) hafter
      have hopened' : ∀ i ∈ w.site.hub.registered, ∃ c, v.conns[i]? = some c ∧
          .opened ∈ c.deeds := by
        intro i hi
        obtain ⟨c, hconn, hopened⟩ := hopened i hi
        exact mem_deeds_of_after hafter hconn hopened
      by_cases hoperates : e = .operate
      · subst hoperates
        exact ih (hshutdown.look hafter) hregular' hopened' hrest htimely.2
      · have hmeanwhile := hregular.meanwhile hopened hafter htimely.1 hoperates
        exact ih (hshutdown.meanwhile hmeanwhile) hregular' hopened' hrest htimely.2

/-- A shutdown that is ordered in a run goes on as one while everything happens in time. -/
theorem Regular.shutsDown {events : List Event} (hregular : w.Regular False)
    (hplay : w.play (.order (.shutdown limit 1) :: events) = some u)
    (htimely : (w.take (.shutdown limit 1)).areTimely events = true) :
    ∃ looks, ShutsDown w limit looks u := by
  obtain ⟨v, hafter, hrest⟩ := Option.bind_eq_some_iff.mp hplay
  have hregular' := hregular.of_after (fun i he => by cases he) hafter
  simp only [after] at hafter
  split at hafter
  case isFalse => cases hafter
  case isTrue =>
    cases hafter
    exact ShutsDown.ordered.of_play hregular' (fun i hi => hregular.sound.opened_of_registered hi)
      hrest htimely

end Tasks

end World

/-- A drain returns at its first look at which all that it waits for are released or time is up,
with the number of those still held, whatever is released when, and it can always go on until it
does; runs of an instance are no exception, and a handle of theirs that is released is that of a
connection that has left. -/
theorem Run.drain_counts_held {policy : MessagePolicy} {buffer sendTimeout : Nat} {w : World}
    (run : Run (fun e => e.insideRuntime) (World.create (Instance.create policy buffer sendTimeout))
      w) :
    (∀ (v : World) (limit : Nat) (looks : List World) (u : World),
      v.ShutsDown limit looks u → v.CountsHeld limit looks u ∧
        ∃ later u' r, v.ShutsDown limit (looks ++ later) u' ∧ u'.operator = .drained r) ∧
    (∀ (limit : Nat) (events : List Event) (u : World),
      w.play (.order (.shutdown limit 1) :: events) = some u →
        (w.take (.shutdown limit 1)).areTimely events = true → ∃ looks, w.ShutsDown limit looks u) ∧
    ∀ (i : Nat) (c : Conn), w.conns[i]? = some c → w.isHeld i = false → c.Released i w := by
  have hregular := run.regular (fun _ hnever => nomatch hnever)
    (World.regular_create False policy buffer sendTimeout)
  exact ⟨fun _ _ _ _ hshutdown => ⟨hshutdown.countsHeld, hshutdown.exists_returned⟩,
    fun _ _ _ => hregular.shutsDown, fun _ _ => hregular.released⟩

/-- Two clients connect; the owner of the first connection is aborted and its cleanup runs. -/
def abortedEvents : List Event :=
  openEvents ++ [.connect "bob" ⟨[], false⟩ (.create .accepting none), .turn (.owner 1 .signal),
    .turn (.owner 1 .signal), .abort 0, .turn (.owner 0 .signal), .turn (.cleanup 0),
    .turn (.cleanup 0), .turn (.cleanup 0), .turn (.cleanup 0), .turn (.owner 1 .signal),
    .turn (.owner 1 .signal)]

/-- The shutdown waits for the second connection alone, until the limit is passed. -/
def waitingEvents : List Event := [.operate, .pass 50, .operate, .pass 50, .operate]

theorem drain_counts_held_aborted :
    ∃ w u looks, (World.create (Instance.create .echo 8 2000)).play abortedEvents = some w ∧
      w.play (.order (.shutdown 60 1) :: waitingEvents) = some u ∧
      u.operator = .drained ⟨1, 1, false⟩ ∧ w.CountsHeld 60 looks u ∧
      w.conns.map Conn.deeds =
        [[.opened, .joined, .closed, .leaveAsked, .left, .announced], [.opened, .joined]] ∧
      w.isHeld 0 = false ∧ ∀ c, w.conns[0]? = some c → c.Released 0 w := by
  have hplayed : ((World.create (Instance.create .echo 8 2000)).play abortedEvents).any fun w =>
      (w.take (.shutdown 60 1)).areTimely waitingEvents && !w.isHeld 0 &&
        w.conns.map Conn.deeds ==
          [[.opened, .joined, .closed, .leaveAsked, .left, .announced], [.opened, .joined]] &&
        (w.play (.order (.shutdown 60 1) :: waitingEvents)).any fun u =>
          u.operator.result? == some ⟨1, 1, false⟩ := by
    decide
  obtain ⟨w, hplay, hthen⟩ := (Option.any_eq_true _ _).mp hplayed
  simp only [Bool.and_eq_true, Bool.not_eq_true', beq_iff_eq] at hthen
  obtain ⟨⟨⟨htimely, hreleased⟩, hdeeds⟩, hdrained⟩ := hthen
  obtain ⟨u, hshutdown, hresult⟩ := (Option.any_eq_true _ _).mp hdrained
  have run : Run (fun e => e.insideRuntime) (World.create (Instance.create .echo 8 2000)) w :=
    .of_play (by decide) hplay
  obtain ⟨hcounts, hshuts, hleft⟩ := run.drain_counts_held
  obtain ⟨looks, hlooks⟩ := hshuts 60 waitingEvents u hshutdown htimely
  exact ⟨w, u, looks, hplay, hshutdown, Operator.eq_drained (beq_iff_eq.mp hresult),
    (hcounts w 60 looks u hlooks).1, hdeeds, hreleased, fun c hconn => hleft 0 c hconn hreleased⟩

end Rollcall.Session
