import Rollcall.Proofs.Connection.Deadlines
import Rollcall.Proofs.Session.Advance

/-!
Where everything stands still.

Sends, broadcasts and writes wait no longer than their deadlines, and an owner that listens is woken
when it is asked to close. The calls to the store have no deadline. So in a state in which no task
can go on and no moment is waited for, a registered connection that is to end can only be one whose
opening waits for a call that never returns (`Run.pinned_iff`).
-/

namespace Rollcall.Session

open Connection

/-- A call that is waited for comes back later, or never. -/
theorem StoreCall.due_of_waiting {call : StoreCall} {now : Nat} (hwaits : call.isDue now = false) :
    call.due = none ∨ ∃ moment ∈ call.due.toList, now < moment := by
  cases hdue : call.due with
  | none => exact .inl rfl
  | some moment =>
      refine .inr ⟨moment, by simp, ?_⟩
      simpa [StoreCall.isDue, hdue] using hwaits

theorem Instance.deadline_of_waiting {s : Instance} {b : Broadcast} {s' : Instance}
    (hwaits : s.pursueBroadcast b = (.waits, s')) : ∃ moment ∈ b.deadlines, s.now < moment := by
  unfold Instance.pursueBroadcast at hwaits
  split at hwaits
  · cases hwaits
  case isFalse hopen =>
    split at hwaits
    · cases hwaits
    case isFalse hstill =>
      exact Broadcast.deadline_of_waiting (by simpa using hopen) (by simpa using hstill)

theorem Announcement.deadline_of_waiting {a : Announcement} {s s' : Instance}
    (hwaits : a.step s = (.waits, s')) :
    (∃ call, a = .counting call ∧ call.due = none) ∨ ∃ moment ∈ a.deadlines, s.now < moment := by
  cases a with
  | counting call =>
      simp only [Announcement.step] at hwaits
      split at hwaits
      · split at hwaits <;> cases hwaits
      case isFalse hearly =>
        rcases StoreCall.due_of_waiting (by simpa using hearly) with hnever | hlater
        · exact .inl ⟨call, rfl, hnever⟩
        · exact .inr hlater
  | sending b =>
      simp only [Announcement.step] at hwaits
      split at hwaits
      case h_1 s₁ hpursue => exact .inr (Instance.deadline_of_waiting hpursue)
      · cases hwaits
      · cases hwaits

/-- No task can go on, and no moment is waited for. -/
structure World.Stuck (w : World) : Prop where
  tasks : ∀ task, w.step task = none
  deadlines : ∀ moment ∈ w.deadlines, moment ≤ w.site.now

/-- Whether an arrival is the last that is read. -/
def Arrival.isLast : Arrival → Bool
  | .frame (.close _) => true
  | .frame _ => false
  | .error _ => true

/-- Whether a connection is to end: it was told to close, or its input has ended, failed or
delivered a close frame. -/
def Conn.isToEnd (c : Conn) (i : Nat) (s : Instance) : Bool :=
  s.hub.isClosing i || c.input.ended || c.input.waiting.any Arrival.isLast ||
    c.owner.stage == .closing || c.owner.stage == .closed

/-- Whether an owner waits, in its opening, for a call to the store that never returns. -/
def Owner.isPinned : Owner → Bool
  | .joining call => call.due.isNone
  | .announcing (.counting call) => call.due.isNone
  | _ => false

section Stuck

variable {orphans : Prop} {w : World} {i : Nat} {c : Conn}

theorem World.Stuck.owner (hstuck : w.Stuck) (hconn : w.conns[i]? = some c) (first : Branch) :
    c.ownerStep i w.site first = none := by
  simpa [World.step, hconn] using hstuck.tasks (.owner i first)

theorem World.Stuck.cleanup (hstuck : w.Stuck) (hconn : w.conns[i]? = some c) :
    c.cleanupStep i w.site = none := by
  simpa [World.step, hconn] using hstuck.tasks (.cleanup i)

theorem World.Stuck.no_deadline (hstuck : w.Stuck) (hconn : w.conns[i]? = some c) :
    ¬ ∃ moment ∈ c.owner.deadlines, w.site.now < moment := by
  rintro ⟨moment, hmoment, hlater⟩
  have hmember : moment ∈ w.deadlines := by
    refine List.mem_append_left _ (List.mem_flatMap.mpr ⟨c, List.mem_of_getElem? hconn, ?_⟩)
    exact List.mem_append_left _ (List.mem_append_left _ hmoment)
  exact Nat.not_le_of_lt hlater (hstuck.deadlines moment hmember)

/-- An owner whose wait is registered and was asked to close has been woken. -/
theorem Conn.not_isClosing_of_listening {s : Instance} (howner : c.owner = .listening)
    (hattends : c.Attends i s) (hregistered : (Conn.signal s i).wait ≠ .none)
    (hsleeps : (Conn.signal s i).wait ≠ .woken) : s.hub.isClosing i = false := by
  cases hpeer : s.hub.peers[i]? with
  | none => simp [Hub.isClosing, hpeer]
  | some p =>
      have hsignal : s.hub.signal? i = some p.signal := by simp [Hub.signal?, hpeer]
      have hsame : Conn.signal s i = p.signal := by simp [Conn.signal, hpeer]
      rw [hsame] at hregistered hsleeps
      have hwoken := hattends.listening howner p.signal hsignal hregistered
      simpa [Hub.isClosing, hpeer, Peer.isClosing] using fun hraised => hsleeps (hwoken.mp hraised)

/-- An owner that listens and cannot go on has nothing to end for. -/
theorem Conn.not_isToEnd_of_listening {s : Instance} {first : Branch}
    (howner : c.owner = .listening)
    (hattends : c.Attends i s) (hwaits : c.hear i s first = none) : c.isToEnd i s = false := by
  obtain ⟨hnothing, hregistered⟩ := Conn.hear_eq_none_iff.mp hwaits
  have hsleeps : (Conn.signal s i).wait ≠ .woken := by
    intro hwoken
    have hunready := Conn.heed_signal_eq_none.mp (hnothing .signal)
    simp [CloseSignal.poll, CloseSignal.resume, hwoken] at hunready
  have hquiet := Conn.not_isClosing_of_listening howner hattends hregistered hsleeps
  have harrival := hnothing .arrival
  simp only [Conn.heed] at harrival
  split at harrival
  · cases harrival
  · cases harrival
  case h_3 hempty =>
    split at harrival
    · cases harrival
    case isFalse hopen => simp [Conn.isToEnd, hquiet, hempty, hopen, howner, Owner.stage]

/-- A registered connection is in its opening or open, or its deregistration is yet to come. -/
theorem Conn.Sound.of_registered {s : Instance} (hsound : c.Sound orphans i s)
    (hregistered : i ∈ s.hub.registered) :
    (∃ call, c.owner = .joining call) ∨ c.owner.stage = .opened ∨ c.cleanup = .ready true := by
  obtain ⟨hopened, hclosed⟩ := hsound.registered hregistered
  cases hsound.recorded with
  | unborn _ _ _ hdeeds => simp [hdeeds] at hopened
  | unpolled _ _ _ hdeeds => simp [hdeeds] at hopened
  | joining call howner => exact .inl ⟨call, howner⟩
  | opened hopen => exact .inr (.inl hopen)
  | ending _ hcleanup => exact .inr (.inr hcleanup)
  | dropped _ _ hdeeds => simp [hdeeds, closingDeeds] at hclosed
  | leaving _ _ _ _ hdeeds => simp [hdeeds, closingDeeds] at hclosed
  | announcing _ _ _ _ _ hdeeds => simp [hdeeds, closingDeeds] at hclosed
  | done _ _ _ _ _ hdeeds => simp [hdeeds, closingDeeds] at hclosed
  | lost _ _ _ hdeeds => simp [hdeeds, closingDeeds] at hclosed

/-- An owner in the open stage that cannot go on listens, is pinned or has a deadline to wait
for. -/
theorem Conn.waits_of_opened {s : Instance} {first : Branch} (hopen : c.owner.stage = .opened)
    (hstep : c.ownerStep i s first = none) :
    (c.owner = .listening ∧ c.hear i s first = none) ∨ c.owner.isPinned = true ∨
      ∃ moment ∈ c.owner.deadlines, s.now < moment := by
  have hrunning : c.owner.hasEnded = false := by
    cases howner : c.owner <;> simp_all [Owner.stage, Owner.hasEnded]
  simp only [Conn.ownerStep, hrunning, Bool.false_eq_true, if_false] at hstep
  split at hstep
  · cases hstep
  cases howner : c.owner with
  | announcing a =>
      simp only [howner] at hstep
      split at hstep
      case h_1 s' hwaits =>
        rcases Announcement.deadline_of_waiting hwaits with ⟨call, rfl, hnever⟩ | hlater
        · exact .inr (.inl (by simp [Owner.isPinned, hnever]))
        · exact .inr (.inr hlater)
      · cases hstep
      · cases hstep
  | listening => exact .inl ⟨rfl, by simpa only [howner] using hstep⟩
  | echoing send =>
      simp only [howner] at hstep
      split at hstep
      case h_1 ticket hwaiting =>
        have hwaits : (send.resume s.hub s.now).1.state.isWaiting = true := by
          simp [hwaiting, SendState.isWaiting]
        obtain ⟨hbefore, hlater⟩ := Send.deadline_of_waiting hwaits
        exact .inr (.inr ⟨send.deadline, by simp [Owner.deadlines, hbefore], hlater⟩)
      · cases hstep
      · cases hstep
  | relaying b =>
      simp only [howner] at hstep
      split at hstep
      case h_1 s' hwaits => exact .inr (.inr (Instance.deadline_of_waiting hwaits))
      · cases hstep
      · cases hstep
  | unborn => simp [howner, Owner.stage] at hopen
  | joining call => simp [howner, Owner.stage] at hopen
  | finishing reason => simp [howner, Owner.stage] at hopen
  | parting reason deadline => simp [howner, Owner.stage] at hopen
  | done reason => simp [howner, Owner.stage] at hopen
  | aborted => simp [howner, Owner.stage] at hopen

/-- An owner whose join has not come back is pinned or has a deadline ahead. -/
theorem Conn.waits_of_joining {s : Instance} {first : Branch} {call : StoreCall}
    (howner : c.owner = .joining call) (hstep : c.ownerStep i s first = none) :
    c.owner.isPinned = true ∨ ∃ moment ∈ c.owner.deadlines, s.now < moment := by
  simp only [Conn.ownerStep, howner, Owner.hasEnded, Bool.false_eq_true, if_false] at hstep
  split at hstep
  · cases hstep
  split at hstep
  · cases hstep
  case isFalse hearly =>
    rcases StoreCall.due_of_waiting (by simpa using hearly) with hnever | hlater
    · exact .inl (by simp [howner, Owner.isPinned, hnever])
    · exact .inr (by simpa [howner, Owner.deadlines] using hlater)

/-- A registered connection that is to end and cannot is pinned. -/
theorem World.Stuck.pinned (hstuck : w.Stuck) (hsound : w.Sound orphans)
    (hconn : w.conns[i]? = some c) (hregistered : i ∈ w.site.hub.registered)
    (hends : c.isToEnd i w.site = true) : c.owner.isPinned = true := by
  have hstep := hstuck.owner hconn .signal
  have hpast := hstuck.no_deadline hconn
  have hthis := hsound.conns i c hconn
  -- one case for each place in which a connection is still registered
  rcases hthis.of_registered hregistered with ⟨call, howner⟩ | hopen | hready
  · exact (Conn.waits_of_joining howner hstep).resolve_right hpast
  · rcases Conn.waits_of_opened hopen hstep with ⟨howner, hwaits⟩ | hpinned | hlater
    · have hkeeps := Conn.not_isToEnd_of_listening howner hthis.attends hwaits
      simp [hkeeps] at hends
    · exact hpinned
    · exact absurd hlater hpast
  · obtain ⟨r, hstarts⟩ := Conn.cleanup_starts hready i w.site
    simp [hstuck.cleanup hconn] at hstarts

end Stuck

def World.HoldsNobody (w : World) : Prop :=
  ∀ i c, w.conns[i]? = some c → i ∈ w.site.hub.registered → c.isToEnd i w.site = false

/-- Where everything stands still, no registered connection is to end exactly if none is whose
opening waits for a call that never returns. -/
theorem Run.pinned_iff {may : Event → Prop} {policy : MessagePolicy} {buffer sendTimeout : Nat}
    {w : World} (run : Run may (World.create (Instance.create policy buffer sendTimeout)) w)
    (hstuck : w.Stuck) :
    w.HoldsNobody ↔ ∀ i c, w.conns[i]? = some c → i ∈ w.site.hub.registered →
      c.owner.isPinned = true → c.isToEnd i w.site = false := by
  have hsound := run.sound (fun _ _ => trivial) (World.sound_create True policy buffer sendTimeout)
  constructor
  · intro hnobody i c hconn hregistered _
    exact hnobody i c hconn hregistered
  · intro hpinned i c hconn hregistered
    refine Bool.eq_false_iff.mpr fun hends => ?_
    have hstays := hpinned i c hconn hregistered (hstuck.pinned hsound hconn hregistered hends)
    simp [hstays] at hends

theorem World.mem_tasks {w : World} {i : Nat} {c : Conn} {task : Task}
    (hconn : w.conns[i]? = some c) (hown : task ∈ [.owner i .signal, .writer i, .cleanup i]) :
    task ∈ w.tasks :=
  List.mem_flatMap.mpr ⟨i, List.mem_range.mpr (List.getElem?_eq_some_iff.mp hconn).1, hown⟩

/-- Only the tasks of the connections there are can take steps, and an owner that can take one can
do so whatever it looks at first. -/
theorem World.step_none {w : World} (hlisted : ∀ task ∈ w.tasks, w.step task = none)
    (task : Task) : w.step task = none := by
  cases task with
  | owner i first =>
      cases hconn : w.conns[i]? with
      | none => simp [step, hconn]
      | some c =>
          have hstep := hlisted (.owner i .signal) (World.mem_tasks hconn (by simp))
          simp only [step, hconn, Option.bind_some, Option.map_eq_none_iff] at hstep ⊢
          exact Conn.ownerStep_eq_none hstep first
  | writer i =>
      cases hconn : w.conns[i]? with
      | none => simp [step, hconn]
      | some c => exact hlisted _ (World.mem_tasks hconn (by simp))
  | cleanup i =>
      cases hconn : w.conns[i]? with
      | none => simp [step, hconn]
      | some c => exact hlisted _ (World.mem_tasks hconn (by simp))

def World.seemsStuck (w : World) : Bool :=
  w.tasks.all (fun task => (w.step task).isNone) && w.operate.isNone &&
    w.deadlines.all fun moment => moment ≤ w.site.now

theorem World.stuck_of_seemsStuck {w : World} (hseems : w.seemsStuck = true) : w.Stuck := by
  simp only [seemsStuck, Bool.and_eq_true, List.all_eq_true, decide_eq_true_eq] at hseems
  obtain ⟨⟨htasks, _⟩, hdeadlines⟩ := hseems
  exact ⟨World.step_none fun task hlisted => by simpa using htasks task hlisted, hdeadlines⟩

/-- While the store hangs a second client connects, and nobody is told to close. -/
def hungEvents : List Event :=
  [.connect "alice" ⟨[], false⟩ (.create .accepting none), .turn (.owner 0 .signal),
    .turn (.owner 0 .signal), .turn (.owner 0 .signal), .turn (.owner 0 .signal),
    .turn (.owner 0 .signal), .turn (.writer 0), .turn (.writer 0), .setGate .hung,
    .connect "bob" ⟨[], false⟩ (.create .accepting none), .turn (.owner 1 .signal)]

theorem pinned_iff_hung :
    ∃ w, (World.create (Instance.create .echo 8 2000)).play hungEvents = some w ∧ w.Stuck ∧
      w.site.hub.registered = [0, 1] ∧ w.HoldsNobody := by
  have hplayed : ((World.create (Instance.create .echo 8 2000)).play hungEvents).any
      (fun w => w.seemsStuck && w.site.hub.registered == [0, 1] &&
        w.conns.zipIdx.all fun a => !(a.1.owner.isPinned && a.1.isToEnd a.2 w.site)) = true := by
    decide
  obtain ⟨w, hplay, hseems⟩ := (Option.any_eq_true _ _).mp hplayed
  simp only [Bool.and_eq_true, beq_iff_eq] at hseems
  obtain ⟨⟨hseems, hregistered⟩, hquiet⟩ := hseems
  have run : Run (fun _ => True) (World.create (Instance.create .echo 8 2000)) w :=
    .of_play (fun _ _ => trivial) hplay
  have hstuck := World.stuck_of_seemsStuck hseems
  refine ⟨w, hplay, hstuck, hregistered, (run.pinned_iff hstuck).mpr ?_⟩
  intro i c hconn _ hpinned
  have hthis := List.all_eq_true.mp hquiet (c, i) (List.mem_zipIdx_iff_getElem?.mpr hconn)
  simpa [hpinned] using hthis

/-- A client whose join hangs is told to close, and stays. -/
def pinnedEvents : List Event :=
  [.setGate .hung, .connect "alice" ⟨[], false⟩ (.create .accepting none),
    .turn (.owner 0 .signal), .close 0]

/-- Not every state in which everything stands still is free of connections that are to end. -/
theorem hung_join_pins :
    ¬ ∀ w, Run (fun _ => True) (World.create (Instance.create .echo 8 2000)) w → w.Stuck →
      w.operate = none → w.HoldsNobody := by
  intro hclaim
  have hplayed : ((World.create (Instance.create .echo 8 2000)).play pinnedEvents).any
      (fun w => w.seemsStuck && w.operate.isNone && w.site.hub.registered.contains 0 &&
        (w.conns[0]?.any fun c => c.isToEnd 0 w.site)) = true := by
    decide
  obtain ⟨w, hplay, hseems⟩ := (Option.any_eq_true _ _).mp hplayed
  simp only [Bool.and_eq_true, List.contains_iff_mem, Option.isNone_iff_eq_none] at hseems
  obtain ⟨⟨⟨hseems, hidle⟩, hregistered⟩, hends⟩ := hseems
  obtain ⟨c, hconn, hends⟩ := (Option.any_eq_true _ _).mp hends
  have hstays := hclaim w (.of_play (fun _ _ => trivial) hplay) (World.stuck_of_seemsStuck hseems)
    hidle 0 c hconn hregistered
  simp [hstays] at hends

end Rollcall.Session
