import Rollcall.Proofs.Connection.Delivery
import Rollcall.Proofs.Session.Advance

/-!
What a step of a task is to the broadcasts.

Whoever announces or relays has at most one broadcast under way. A step of it begins this broadcast,
takes it further or ends it, or it is quiet (`Instance.Act`); beside that an owner may be dropped,
echo a payload, or relay one (`Conn.OwnerAct`). Writers are quiet.
-/

namespace Rollcall.Presence.Tracker

theorem broadcasts_absorb {α : Type} (t : Tracker) (op : Operation) (result : Except Failure α) :
    (t.absorb op result).2.metrics.broadcastDelivered = t.metrics.broadcastDelivered ∧
      (t.absorb op result).2.metrics.broadcastFailed = t.metrics.broadcastFailed := by
  cases result with
  | ok value =>
      simp only [absorb]
      split <;> exact ⟨rfl, rfl⟩
  | error failure =>
      simp only [absorb]
      split <;> exact ⟨rfl, rfl⟩

end Rollcall.Presence.Tracker

namespace Rollcall.Session

open Connection

def Announcement.broadcast? : Announcement → Option Broadcast
  | .counting _ => none
  | .sending b => some b

def Owner.broadcast? : Owner → Option Broadcast
  | .announcing a => a.broadcast?
  | .relaying b => some b
  | _ => none

def Cleanup.broadcast? : Cleanup → Option Broadcast
  | .announcing a => a.broadcast?
  | _ => none

def Conn.payloads (c : Conn) : List Outbound := c.read.filterMap Frame.payload?

namespace Instance

/-- What the counters of broadcasts say: delivered and failed. -/
def tally (s : Instance) : Nat × Nat := (s.metrics.broadcastDelivered, s.metrics.broadcastFailed)

def announcement (s : Instance) : Parcel :=
  ⟨.announcement s.hub.broadcasts, .announcement s.presence.store.count⟩

/-- A step that is a `change` of the hub and leaves alone what broadcasts have to do with beside
it. -/
structure Only (change : Hub → Hub → Prop) (s s' : Instance) : Prop where
  hub : change s.hub s'.hub
  store : s'.presence.store = s.presence.store
  tally : s'.tally = s.tally
  policy : s'.policy = s.policy

structure Quiet (s s' : Instance) : Prop where
  hub : Hub.Quiet s.hub s'.hub
  tally : s'.tally = s.tally
  policy : s'.policy = s.policy

/-- A quiet step that puts nothing into any channel. -/
structure Silent (s s' : Instance) : Prop extends Quiet s s' where
  entered : s'.hub.entered = s.hub.entered

/-- The end of a broadcast, with what is counted for it. -/
structure Settles (b : Broadcast) (s s' : Instance) : Prop where
  hub : b.Settles s.hub s'.hub
  store : s'.presence.store = s.presence.store
  policy : s'.policy = s.policy
  tally : s'.tally = if b.sends = [] then s.tally else
    (Metrics.wrapUnsigned (s.tally.1 + b.result.delivered),
      Metrics.wrapUnsigned (s.tally.2 + b.result.failed))

/-- A step of someone who announces and sees broadcasts through, by what is under way before and
after it. -/
inductive Act (s s' : Instance) : Option Broadcast → Option Broadcast → Prop where
  | quiet (hsite : s.Silent s') : Act s s' none none
  | announce (b : Broadcast) (hsite : s.Only (b.Begins s.announcement) s') : Act s s' none (some b)
  | goesOn (b b' : Broadcast) (hunfinished : b.isOver = false) (hsite : s.Only (b.GoesOn b') s') :
      Act s s' (some b) (some b')
  | settles (b : Broadcast) (hsite : Settles b s s') : Act s s' (some b) none

variable {r s t : Instance} {b : Broadcast}

theorem Only.of_hub {change : Hub → Hub → Prop} {s : Instance} {hub : Hub}
    (hchange : change s.hub hub) : s.Only change { s with hub } := ⟨hchange, rfl, rfl, rfl⟩

theorem Only.trans {first second both : Hub → Hub → Prop} (hrs : r.Only first s)
    (hst : s.Only second t) (hboth : first r.hub s.hub → second s.hub t.hub → both r.hub t.hub) :
    r.Only both t :=
  ⟨hboth hrs.hub hst.hub, hst.store.trans hrs.store, hst.tally.trans hrs.tally,
    hst.policy.trans hrs.policy⟩

theorem alike_refl (s : Instance) : s.Only Hub.Alike s := ⟨.refl s.hub, rfl, rfl, rfl⟩

theorem alike_trans (hrs : r.Only Hub.Alike s) (hst : s.Only Hub.Alike t) : r.Only Hub.Alike t :=
  hrs.trans hst Hub.Alike.trans

theorem Quiet.of_hub {hub : Hub} (hquiet : Hub.Quiet s.hub hub) : s.Quiet { s with hub } :=
  ⟨hquiet, rfl, rfl⟩

theorem Quiet.alike_trans (hrs : r.Only Hub.Alike s) (hst : s.Quiet t) : r.Quiet t :=
  ⟨.alike_trans hrs.hub hst.hub, hst.tally.trans hrs.tally, hst.policy.trans hrs.policy⟩

theorem Quiet.trans_alike (hrs : r.Quiet s) (hst : s.Only Hub.Alike t) : r.Quiet t :=
  ⟨hrs.hub.trans_alike hst.hub, hst.tally.trans hrs.tally, hst.policy.trans hrs.policy⟩

namespace Silent

theorem of_alike (halike : s.Only Hub.Alike t) : s.Silent t :=
  ⟨⟨.of_alike halike.hub, halike.tally, halike.policy⟩, halike.hub.entered⟩

theorem of_hub {hub : Hub} (hquiet : Hub.Quiet s.hub hub) (hentered : hub.entered = s.hub.entered) :
    s.Silent { s with hub } :=
  ⟨.of_hub hquiet, hentered⟩

theorem refl (s : Instance) : s.Silent s := of_alike s.alike_refl

theorem alike_trans (hrs : r.Only Hub.Alike s) (hst : s.Silent t) : r.Silent t :=
  ⟨.alike_trans hrs hst.toQuiet, hst.entered.trans hrs.hub.entered⟩

/-- Taking note of how a call went is silent, whatever becomes of the store. -/
theorem absorb {α : Type} (s : Instance) (op : Presence.Operation)
    (result : Except Presence.Failure α) (store : Presence.Store) :
    s.Silent { s with presence :=
      { s.presence with store, tracker := (s.presence.tracker.absorb op result).2 } } := by
  obtain ⟨hdelivered, hfailed⟩ := s.presence.tracker.broadcasts_absorb op result
  refine ⟨⟨.refl s.hub, ?_, rfl⟩, rfl⟩
  simp only [Instance.tally, Instance.metrics, hdelivered, hfailed]

theorem finishJoin (s : Instance) (member : String) (passed : Except Presence.Failure Unit) :
    s.Silent { s with presence := (s.presence.finishJoin member passed).2 } := by
  cases passed with
  | ok _ => exact absorb s .join (.ok (s.presence.store.join member).1 : Except _ Nat) _
  | error failure => exact absorb s .join (.error failure : Except _ Nat) _

theorem finishLeave (s : Instance) (member : String) (passed : Except Presence.Failure Unit) :
    s.Silent { s with presence := (s.presence.finishLeave member passed).2 } := by
  cases passed with
  | ok _ => exact absorb s .leave (.ok (s.presence.store.leave member).1 : Except _ Nat) _
  | error failure => exact absorb s .leave (.error failure : Except _ Nat) _

end Silent

/-- Reading the count changes nothing that broadcasts have to do with. -/
theorem alike_finishCount (s : Instance) (passed : Except Presence.Failure Unit) :
    s.Only Hub.Alike { s with presence := (s.presence.finishCount passed).2 } := by
  cases passed with
  | ok _ =>
      have hquiet := Silent.absorb s .count (.ok s.presence.store.count : Except _ Nat)
        s.presence.store
      -- only the figure of online users is set after the note is taken
      have hset (m : Metrics) (n : Nat) :
          ((m.setOnlineUsers n).broadcastDelivered, (m.setOnlineUsers n).broadcastFailed) =
            (m.broadcastDelivered, m.broadcastFailed) := by
        cases m
        rfl
      exact ⟨.refl s.hub, rfl, (hset _ s.presence.store.count).trans hquiet.tally, rfl⟩
  | error failure =>
      have hquiet := Silent.absorb s .count (.error failure : Except _ Nat) s.presence.store
      exact ⟨.refl s.hub, rfl, hquiet.tally, rfl⟩

theorem begins_beginBroadcast (s : Instance) (origin : Nat → Origin) (message : Outbound) :
    s.Only ((s.beginBroadcast origin message).1.Begins ⟨origin s.hub.broadcasts, message⟩)
      (s.beginBroadcast origin message).2 :=
  Only.of_hub (Broadcast.begins_start s.hub s.now origin message)

theorem settles_settleBroadcast (hdistinct : s.hub.registered.Nodup) (hover : b.isOver = true) :
    Settles b s (s.settleBroadcast b) := by
  have hhub := Broadcast.settles_evict hover hdistinct
  unfold settleBroadcast
  simp only [List.isEmpty_iff]
  split
  case isTrue hempty => exact ⟨hhub, rfl, rfl, by simp [hempty, tally, metrics, mapHub]⟩
  case isFalse hsome => exact ⟨hhub, rfl, rfl, by simp only [if_neg hsome]; rfl⟩

/-- A step of a broadcast, where it can take one. -/
theorem act_pursueBroadcast (s : Instance) (b : Broadcast) (hdistinct : s.hub.registered.Nodup) :
    match s.pursueBroadcast b with
    | (.waits, _) => True
    | (.goesOn b', s') => s.Act s' (some b) (some b')
    | (.ends _, s') => s.Act s' (some b) none := by
  unfold pursueBroadcast
  by_cases hover : b.isOver = true
  · rw [if_pos hover]
    exact .settles b (settles_settleBroadcast hdistinct hover)
  · rw [if_neg hover]
    by_cases hproceeds : b.canProceed s.hub s.now = true
    · rw [if_pos hproceeds]
      exact .goesOn b _ (by simpa using hover) (.of_hub (b.goesOn_resume s.hub s.now))
    · rw [if_neg hproceeds]
      trivial

end Instance

/-- A step of an announcement, where it can take one. -/
theorem Announcement.act_step (a : Announcement) (s : Instance)
    (hdistinct : s.hub.registered.Nodup) :
    match a.step s with
    | (.waits, _) => True
    | (.goesOn a', s') => s.Act s' a.broadcast? a'.broadcast?
    | (.ends _, s') => s.Act s' a.broadcast? none := by
  cases a with
  | counting call =>
      have hread := s.alike_finishCount call.passed
      simp only [step]
      by_cases hdue : call.isDue s.now = true
      · rw [if_pos hdue]
        cases hpassed : call.passed with
        | ok _ =>
            rw [hpassed] at hread
            have hbegun := Instance.begins_beginBroadcast
              { s with presence := (s.presence.finishCount (.ok ())).2 } .announcement
              (.announcement s.presence.store.count)
            exact .announce _ (hread.trans hbegun fun halike hbegins => hbegins.of_alike halike)
        | error failure =>
            rw [hpassed] at hread
            exact .quiet (.of_alike hread)
      · rw [if_neg hdue]
        trivial
  | sending b =>
      have hpursue := s.act_pursueBroadcast b hdistinct
      simp only [step]
      cases heq : s.pursueBroadcast b with
      | mk progress s' =>
          rw [heq] at hpursue
          cases progress <;> exact hpursue

namespace Conn

variable {i : Nat} {c c₁ : Conn} {s s₁ : Instance} {r : Conn × Instance}

structure Rests (c c' : Conn) : Prop where
  idle : c'.owner.broadcast? = none
  silent : ∀ send, c'.owner ≠ .echoing send
  read : c'.payloads = c.payloads

theorem alike_mapSignal (s : Instance) (i : Nat) {change : CloseSignal → CloseSignal}
    (hflag : ∀ σ, s.hub.signal? i = some σ → (change σ).raised = σ.raised) :
    s.Only Hub.Alike (mapSignal s i change) :=
  ⟨Hub.Alike.mapSignal s.hub i change hflag, rfl, rfl, rfl⟩

theorem finish_rests (hread : c₁.payloads = c.payloads) (i : Nat) (s : Instance)
    (reason : CloseReason) :
    s.Only Hub.Alike (c₁.finish i s reason).2 ∧ c.Rests (c₁.finish i s reason).1 :=
  ⟨alike_mapSignal s i fun σ _ => σ.raised_abandon, rfl, nofun, hread⟩

theorem listen_rests (hread : c₁.payloads = c.payloads) : c.Rests c₁.listen :=
  ⟨rfl, nofun, hread⟩

theorem alike_poll (s : Instance) (i : Nat) :
    s.Only Hub.Alike (mapSignal s i fun _ => (signal s i).poll.2) := by
  refine alike_mapSignal s i fun σ hσ => ?_
  have hsame : signal s i = σ := by
    simp only [Hub.signal?] at hσ
    simp [signal, hσ]
  rw [hsame, σ.raised_poll]

/-- What a turn of an owner is to the broadcasts and to its own channel. -/
inductive OwnerAct (i : Nat) (c : Conn) (s : Instance) (r : Conn × Instance) : Prop where
  | dropped (hdropped : c.ownerDropped = true) (hdrop : r = c.drop i s true)
  | act (hkept : c.ownerDropped = false) (hact : s.Act r.2 c.owner.broadcast? r.1.owner.broadcast?)
      (hfree : ∀ send, c.owner ≠ .echoing send) (hsilent : ∀ send, r.1.owner ≠ .echoing send)
      (hread : r.1.payloads = c.payloads)
  /-- It begins to echo the message it has read. -/
  | echo (hkept : c.ownerDropped = false) (send : Send) (message : Outbound)
      (howner : c.owner = .listening) (hpolicy : s.policy = .echo)
      (hsends : r.1.owner = .echoing send) (htarget : send.target = i)
      (hparcel : send.parcel = ⟨.echo, message⟩) (hread : r.1.payloads = c.payloads ++ [message])
      (hsite : s.Quiet r.2)
      (hentered : ∀ j, r.2.hub.entered j =
        s.hub.entered j ++ List.replicate (send.reached.count j) send.parcel)
  /-- Its echo is over. -/
  | echoed (hkept : c.ownerDropped = false) (send : Send) (howner : c.owner = .echoing send)
      (hfate : (send.resume s.hub s.now).1.state = .delivered ∨
        ((send.resume s.hub s.now).1.state = .refused ∨
          (send.resume s.hub s.now).1.state = .timedOut) ∧ r.1.owner = .finishing .writeFailed)
      (hrests : c.Rests r.1) (hsite : s.Quiet r.2)
      (hentered : r.2.hub.entered = (send.resume s.hub s.now).2.entered)
  | relay (hkept : c.ownerDropped = false) (b : Broadcast) (message : Outbound)
      (hidle : c.owner.broadcast? = none) (hbegun : r.1.owner = .relaying b)
      (hread : r.1.payloads = c.payloads ++ [message])
      (hsite : s.Only (b.Begins ⟨.relay s.hub.broadcasts i, message⟩) r.2)
      (howner : c.owner = .listening) (hpolicy : s.policy = .relay)
  /-- It tries to say farewell. -/
  | farewell (hkept : c.ownerDropped = false) (reason : CloseReason)
      (howner : c.owner = .finishing reason) (hrests : c.Rests r.1)
      (hsite : s.Quiet r.2)
      (hentered : r.2.hub.entered = (s.hub.trySend i ⟨.farewell, .close⟩).2.entered)

/-- An owner with nothing under way that comes to rest. -/
theorem OwnerAct.of_rests (hkept : c.ownerDropped = false) (hidle : c.owner.broadcast? = none)
    (hfree : ∀ send, c.owner ≠ .echoing send) (hbefore : s.Only Hub.Alike s₁)
    (hrests : s₁.Only Hub.Alike r.2 ∧ c.Rests r.1) : OwnerAct i c s r := by
  refine .act hkept ?_ hfree hrests.2.silent hrests.2.read
  rw [hidle, hrests.2.idle]
  exact .quiet (.of_alike (Instance.alike_trans hbefore hrests.1))

/-- The echo of a message begins. -/
theorem OwnerAct.of_start (hkept : c.ownerDropped = false) (howner : c.owner = .listening)
    {message : Outbound} (hread : r.1.payloads = c.payloads ++ [message])
    (hbefore : s.Only Hub.Alike s₁) (hpolicy : s.policy = .echo)
    (hsends : r.1.owner = .echoing
      (Send.start s₁.hub s₁.now i ⟨.echo, message⟩ (s₁.now + s₁.hub.sendTimeout)).1)
    (hsite : r.2 = { s₁ with hub :=
      (Send.start s₁.hub s₁.now i ⟨.echo, message⟩ (s₁.now + s₁.hub.sendTimeout)).2 }) :
    OwnerAct i c s r := by
  obtain ⟨hparcel, _, hentered⟩ :=
    Send.start_spec s₁.hub s₁.now i ⟨.echo, message⟩ (s₁.now + s₁.hub.sendTimeout)
  refine .echo hkept _ message howner hpolicy hsends (Send.target_start ..) hparcel hread
    (hsite ▸ .alike_trans hbefore (.of_hub (Send.quiet_start _ _ _ _ rfl))) fun j => ?_
  rw [hsite, hparcel, hentered, hbefore.hub.entered]

/-- Whatever frame an owner has read, its turn is one of those of `OwnerAct`. -/
theorem act_handle (frame : Frame) (hkept : c.ownerDropped = false)
    (howner : c.owner = .listening) (hread : c₁.payloads = c.payloads) :
    OwnerAct i c s (c₁.handle i s frame) := by
  have hidle : c.owner.broadcast? = none := by rw [howner]; rfl
  have hfree : ∀ send, c.owner ≠ .echoing send := by simp [howner]
  have habandoned : s.Only Hub.Alike (mapSignal s i CloseSignal.abandon) :=
    alike_mapSignal s i fun σ _ => σ.raised_abandon
  have hcounted (kind : String) : s.Only Hub.Alike
      ((mapSignal s i CloseSignal.abandon).mapMetrics fun m => m.recordReceived kind) :=
    Instance.alike_trans habandoned ⟨.refl _, rfl, rfl, rfl⟩
  have hpayloads : ({ c₁ with read := c₁.read ++ [frame] } : Conn).payloads =
      c.payloads ++ frame.payload?.toList := by
    rw [← hread]
    cases frame <;> simp [payloads, Frame.payload?]
  have hbegun (kind : String) (message : Outbound) :=
    (hcounted kind).trans (Instance.begins_beginBroadcast _ (fun n => .relay n i) message)
      fun halike hbegins => hbegins.of_alike halike
  cases frame with
  | text content =>
      simp only [handle]
      split
      case h_1 hpolicy =>
        exact .of_start hkept howner hpayloads (hcounted "text") hpolicy rfl rfl
      case h_2 hpolicy =>
        exact .relay hkept _ (.text content) hidle rfl hpayloads (hbegun "text" _) howner hpolicy
  | binary content =>
      simp only [handle]
      split
      case h_1 hpolicy =>
        exact .of_start hkept howner hpayloads (hcounted "binary") hpolicy rfl rfl
      case h_2 hpolicy =>
        exact .relay hkept _ (.binary content) hidle rfl hpayloads (hbegun "binary" _)
          howner hpolicy
  | ping content =>
      exact .of_rests hkept hidle hfree (hcounted "ping")
        ⟨Instance.alike_refl _, listen_rests (by simpa [Frame.payload?] using hpayloads)⟩
  | pong content =>
      exact .of_rests hkept hidle hfree (hcounted "pong")
        ⟨Instance.alike_refl _, listen_rests (by simpa [Frame.payload?] using hpayloads)⟩
  | close detail =>
      exact .of_rests hkept hidle hfree habandoned
        (finish_rests (by simpa [Frame.payload?] using hpayloads) i _ .clientClosed)

theorem act_heed {b : Branch} (hkept : c.ownerDropped = false) (howner : c.owner = .listening)
    (hheed : c.heed i s b = some r) : OwnerAct i c s r := by
  have hrest {s₁ : Instance} (hbefore : s.Only Hub.Alike s₁) {r : Conn × Instance}
      (hrests : s₁.Only Hub.Alike r.2 ∧ c.Rests r.1) : OwnerAct i c s r :=
    .of_rests hkept (by rw [howner]; rfl) (by simp [howner]) hbefore hrests
  cases b with
  | signal =>
      simp only [heed] at hheed
      split at hheed
      · cases hheed
        exact hrest (alike_poll s i) (finish_rests rfl i _ .serverClosed)
      · cases hheed
  | writer =>
      simp only [heed] at hheed
      split at hheed
      · cases hheed
        exact hrest s.alike_refl (finish_rests rfl i s .writeFailed)
      · cases hheed
  | arrival =>
      simp only [heed] at hheed
      split at hheed
      · cases hheed
        exact act_handle _ hkept howner rfl
      · cases hheed
        exact hrest s.alike_refl (finish_rests (by rfl) i s _)
      · split at hheed
        · cases hheed
          exact hrest s.alike_refl (finish_rests rfl i s .streamEnded)
        · cases hheed

/-- So is a turn of an owner that listens, whichever branch is looked at first. -/
theorem act_hear {first : Branch} (hkept : c.ownerDropped = false) (howner : c.owner = .listening)
    (hhear : c.hear i s first = some r) : OwnerAct i c s r := by
  rcases hear_cases hhear with ⟨b, hheed⟩ | ⟨_, _, rfl⟩
  · exact act_heed hkept howner hheed
  · have hrests : c.Rests c := ⟨by rw [howner]; rfl, by simp [howner], rfl⟩
    exact .of_rests hkept hrests.idle hrests.silent (alike_poll s i) ⟨Instance.alike_refl _, hrests⟩

/-- Every turn of an owner is an act of its. -/
theorem ownerStep_act {first : Branch} (hdistinct : s.hub.registered.Nodup)
    (hechoes : ∀ send, c.owner = .echoing send → send.parcel.origin = .echo)
    (hstep : c.ownerStep i s first = some r) : OwnerAct i c s r := by
  unfold ownerStep at hstep
  split at hstep
  · cases hstep
  split at hstep
  case isTrue hdropped =>
    cases hstep
    exact .dropped hdropped rfl
  case isFalse hgoing =>
    have hkept : c.ownerDropped = false := by simpa using hgoing
    split at hstep
    case h_1 howner =>
      cases hstep
      refine .act hkept ?_ (by simp [howner]) nofun rfl
      rw [howner]
      exact .quiet ⟨⟨.add s.hub i, rfl, rfl⟩, s.hub.entered_add i⟩
    case h_2 call howner =>
      split at hstep
      · cases hstep
        refine .act hkept ?_ (by simp [howner]) nofun ?_
        · rw [howner]
          exact .quiet (Instance.Silent.finishJoin s (member s i) call.passed)
        · simp only
          split <;> rfl
      · cases hstep
    case h_3 a howner =>
      have hact := a.act_step s hdistinct
      split at hstep
      · cases hstep
      case h_2 a' s₁ heq =>
        cases hstep
        rw [heq] at hact
        refine .act hkept ?_ (by simp [howner]) nofun rfl
        rw [howner]
        exact hact
      case h_3 result s₁ heq =>
        cases hstep
        rw [heq] at hact
        have hrests : c.Rests c.listen := listen_rests rfl
        refine .act hkept ?_ (by simp [howner]) hrests.silent hrests.read
        rw [howner, hrests.idle]
        exact hact
    case h_4 howner => exact act_hear hkept howner hstep
    case h_5 send howner =>
      have hsent : s.Quiet { s with hub := (send.resume s.hub s.now).2 } :=
        .of_hub (Send.quiet_resume s.hub s.now (by rw [hechoes send howner]; rfl))
      simp only at hstep
      split at hstep
      · cases hstep
      case h_2 hdelivered =>
        cases hstep
        exact .echoed hkept send howner (.inl hdelivered) (listen_rests rfl) hsent rfl
      case h_3 hpending hundelivered =>
        cases hstep
        obtain ⟨halike, hrests⟩ := finish_rests (c := c) rfl i
          { s with hub := (send.resume s.hub s.now).2 } .writeFailed
        refine .echoed hkept send howner (.inr ⟨?_, rfl⟩) hrests (hsent.trans_alike halike)
          halike.hub.entered
        cases hstate : (send.resume s.hub s.now).1.state with
        | waiting ticket => exact absurd hstate (hpending ticket)
        | delivered => exact absurd hstate hundelivered
        | refused => exact .inl rfl
        | timedOut => exact .inr rfl
    case h_6 b howner =>
      have hact := s.act_pursueBroadcast b hdistinct
      split at hstep
      · cases hstep
      case h_2 b' s₁ heq =>
        cases hstep
        rw [heq] at hact
        refine .act hkept ?_ (by simp [howner]) nofun rfl
        rw [howner]
        exact hact
      case h_3 result s₁ heq =>
        cases hstep
        rw [heq] at hact
        have hrests : c.Rests c.listen := listen_rests rfl
        refine .act hkept ?_ (by simp [howner]) hrests.silent hrests.read
        rw [howner, hrests.idle]
        exact hact
    case h_7 reason howner =>
      split at hstep
      · cases hstep
        exact .farewell hkept reason howner ⟨rfl, nofun, rfl⟩ (.of_hub (.trySend s.hub i rfl)) rfl
      · cases hstep
    case h_8 reason deadline howner =>
      have hsame (c' : Conn) (hrests : c.Rests c') : OwnerAct i c s (c', s) :=
        .of_rests hkept (by rw [howner]; rfl) (by simp [howner]) s.alike_refl ⟨s.alike_refl, hrests⟩
      split at hstep
      · cases hstep
        exact hsame _ ⟨rfl, nofun, rfl⟩
      split at hstep
      · cases hstep
        exact hsame _ ⟨rfl, nofun, rfl⟩
      · cases hstep
    · cases hstep
    · cases hstep

/-- A task that is dropped begins no broadcast and puts nothing into a channel. -/
theorem drop_silent (c : Conn) (i : Nat) (s : Instance) (runtime : Bool) :
    s.Silent (c.drop i s runtime).2 ∧ (c.drop i s runtime).1.owner = .aborted ∧
      (c.drop i s runtime).1.payloads = c.payloads := by
  have habandoned (s : Instance) : s.Only Hub.Alike (mapSignal s i CloseSignal.abandon) :=
    alike_mapSignal s i fun σ _ => σ.raised_abandon
  have hderegistered (s : Instance) :
      s.Silent
        (({ c with owner := .aborted }.deregister i (mapSignal s i CloseSignal.abandon)).2) :=
    .alike_trans (habandoned s) ⟨⟨.remove _ i, rfl, rfl⟩, rfl⟩
  unfold drop
  cases howner : c.owner with
  | announcing a =>
      have hgivenUp : s.Only Hub.Alike (a.abandon s) := by
        cases a with
        | counting call => exact s.alike_refl
        | sending b => exact .of_hub (b.alike_abandon s.hub)
      exact ⟨.alike_trans hgivenUp (hderegistered _), rfl, rfl⟩
  | echoing send =>
      exact ⟨.alike_trans (.of_hub (send.alike_abandon s.hub)) (hderegistered _), rfl, rfl⟩
  | relaying b =>
      exact ⟨.alike_trans (.of_hub (b.alike_abandon s.hub)) (hderegistered _), rfl, rfl⟩
  | joining call => exact ⟨hderegistered s, rfl, rfl⟩
  | listening => exact ⟨hderegistered s, rfl, rfl⟩
  | unborn => exact ⟨.refl s, rfl, rfl⟩
  | finishing reason => exact ⟨.refl s, rfl, rfl⟩
  | parting reason deadline => exact ⟨.refl s, rfl, rfl⟩
  | done reason => exact ⟨.refl s, rfl, rfl⟩
  | aborted => exact ⟨.refl s, rfl, rfl⟩

theorem writerStep_silent {held : Bool} (hstep : c.writerStep i s held = some r) :
    s.Silent r.2 ∧ r.1.owner = c.owner ∧ r.1.cleanup = c.cleanup ∧ r.1.read = c.read := by
  have hends : s.Silent (c.endWriter i s).2 := .of_alike (.of_hub (.hangUp s.hub i))
  unfold writerStep at hstep
  simp only at hstep
  split at hstep
  · cases hstep
    exact ⟨hends, rfl, rfl, rfl⟩
  split at hstep
  · cases hstep
  · split at hstep
    case h_1 parcel hub hreceive =>
      cases hstep
      exact ⟨.of_alike (.of_hub (.receive hreceive)), rfl, rfl, rfl⟩
    · split at hstep
      · cases hstep
      · cases hstep
        exact ⟨.refl s, rfl, rfl, rfl⟩
  · split at hstep
    · cases hstep
      exact ⟨.refl s, rfl, rfl, rfl⟩
    · cases hstep
      exact ⟨hends, rfl, rfl, rfl⟩
    · split at hstep
      · cases hstep
        exact ⟨hends, rfl, rfl, rfl⟩
      · cases hstep
  · split at hstep
    · split at hstep
      · cases hstep
        exact ⟨hends, rfl, rfl, rfl⟩
      · cases hstep
    · cases hstep
      exact ⟨hends, rfl, rfl, rfl⟩
  · cases hstep

theorem announceEnd_rests (c : Conn) (s : Instance) :
    (c.announceEnd s).cleanup.broadcast? = none ∧ (c.announceEnd s).owner = c.owner ∧
      (c.announceEnd s).payloads = c.payloads := by
  unfold announceEnd
  split <;> exact ⟨rfl, rfl, rfl⟩

/-- A turn of a closing announcement is an act of its broadcast, and the owner has no part in it. -/
theorem announcingStep_act {a : Announcement} (hdistinct : s.hub.registered.Nodup)
    (hcleanup : c.cleanup = .announcing a) (hstep : c.cleanupStep i s = some r) :
    s.Act r.2 c.cleanup.broadcast? r.1.cleanup.broadcast? ∧ r.1.owner = c.owner ∧
      r.1.payloads = c.payloads := by
  have hact := a.act_step s hdistinct
  simp only [cleanupStep, hcleanup] at hstep ⊢
  split at hstep
  · cases hstep
  case h_2 a' s₁ heq =>
    cases hstep
    rw [heq] at hact
    exact ⟨hact, rfl, rfl⟩
  case h_3 result s₁ heq =>
    cases hstep
    rw [heq] at hact
    exact ⟨hact, rfl, rfl⟩

/-- What a turn of a cleanup is to the broadcasts. -/
theorem cleanupStep_act (hdistinct : s.hub.registered.Nodup) (hstep : c.cleanupStep i s = some r) :
    s.Act r.2 c.cleanup.broadcast? r.1.cleanup.broadcast? ∧ r.1.owner = c.owner ∧
      r.1.payloads = c.payloads := by
  have hundone (registered : Bool) : s.Silent (c.undo registered i s).2 ∧
      (c.undo registered i s).1.owner = c.owner ∧
      (c.undo registered i s).1.payloads = c.payloads := by
    cases registered with
    | true => exact ⟨⟨⟨.remove s.hub i, rfl, rfl⟩, rfl⟩, rfl, rfl⟩
    | false => exact ⟨.refl s, rfl, rfl⟩
  have hends {c' : Conn} {s' : Instance} (hidle : c.cleanup.broadcast? = none)
      (hquiet : s.Silent s') (howner : c'.owner = c.owner) (hread : c'.payloads = c.payloads) :
      s.Act s' c.cleanup.broadcast? (c'.announceEnd s').cleanup.broadcast? ∧
        (c'.announceEnd s').owner = c.owner ∧ (c'.announceEnd s').payloads = c.payloads := by
    obtain ⟨hrests, hsame, hkept⟩ := c'.announceEnd_rests s'
    refine ⟨?_, hsame.trans howner, hkept.trans hread⟩
    rw [hidle, hrests]
    exact .quiet hquiet
  cases cleanupStep_move hstep with
  | leave registered hcleanup hjoined =>
      obtain ⟨hquiet, howner, hread⟩ := hundone registered
      refine ⟨?_, howner, hread⟩
      rw [hcleanup]
      exact .quiet hquiet
  | skip registered hcleanup hjoined =>
      obtain ⟨hquiet, howner, hread⟩ := hundone registered
      exact hends (by rw [hcleanup]; rfl) hquiet howner hread
  | left call score presence hcleanup hdue hpassed hfinish =>
      have hquiet := Instance.Silent.finishLeave s (member s i) (.ok ())
      rw [hfinish] at hquiet
      exact hends (by rw [hcleanup]; rfl) hquiet rfl rfl
  | fail call failure presence hcleanup hdue hpassed hfinish =>
      have hquiet := Instance.Silent.finishLeave s (member s i) (.error failure)
      rw [hfinish] at hquiet
      exact hends (by rw [hcleanup]; rfl) hquiet rfl rfl
  | announce a b s' hcleanup => exact announcingStep_act hdistinct hcleanup hstep
  | done a s' hcleanup => exact announcingStep_act hdistinct hcleanup hstep

end Conn

section Undisturbed

variable {orphans : Prop} {i : Nat} {c : Conn} {s : Instance} {r : Conn × Instance}

/-- An owner that is dropped ends no broadcast of its cleanup, which had not begun. -/
theorem DropMove.cleanup_broadcast {runtime : Bool} (hmove : DropMove i c s runtime r)
    (hrecorded : c.Recorded orphans) : r.1.cleanup.broadcast? = c.cleanup.broadcast? := by
  cases hmove with
  | unpolled => rfl
  | undo s' howner =>
      have habsent : c.cleanup = .absent := by
        rcases howner with hopen | ⟨call, hjoining⟩
        · exact (hrecorded.of_opened hopen).1
        · exact (hrecorded.of_joining hjoining).1
      rw [habsent]
      cases runtime <;> rfl
  | late => rfl

theorem OwnerMove.cleanup_broadcast (hmove : OwnerMove i c s r) (hrecorded : c.Recorded orphans) :
    r.1.cleanup.broadcast? = c.cleanup.broadcast? := by
  cases hmove with
  | drop => exact (c.drop_move i s true).cleanup_broadcast hrecorded
  | start => rfl
  | join => rfl
  | miss => rfl
  | work c' s' hopen hstays hkeeps => exact congrArg Cleanup.broadcast? hkeeps.cleanup
  | finish c' s' reason hopen hkeeps howner hcleanup =>
      rw [hcleanup, (hrecorded.of_opened hopen).1]
      rfl
  | part => rfl
  | stop => rfl

/-- A cleanup leaves the owner as it is. -/
theorem CleanupMove.owner_eq (hmove : CleanupMove i c s r) : r.1.owner = c.owner := by
  have hundo (registered : Bool) : (c.undo registered i s).1.owner = c.owner := by
    cases registered <;> rfl
  cases hmove with
  | leave registered => exact hundo registered
  | skip registered => exact (Conn.announceEnd_rests _ _).2.1.trans (hundo registered)
  | left => exact (Conn.announceEnd_rests _ _).2.1
  | fail => exact (Conn.announceEnd_rests _ _).2.1
  | announce => rfl
  | done => rfl

end Undisturbed

end Rollcall.Session
