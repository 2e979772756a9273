import Rollcall.Proofs.Session.Surroundings

/-!
The moves of a connection's tasks.

Everything a step of the owner, the writer or the cleanup can do, said once: the phases before and
after, the deeds done, and what happens to the site. Invariants are proved by cases on these moves
and never look into the steps again.
-/

namespace Rollcall.Session

open Connection

/-- How the owner minds its close signal: a wait that it has registered while it listens is woken
exactly when the signal was raised, and elsewhere it has none. -/
structure Conn.Attends (c : Conn) (i : Nat) (s : Instance) : Prop where
  listening : c.owner = .listening → ∀ σ, s.hub.signal? i = some σ → σ.wait ≠ .none →
    (σ.raised = true ↔ σ.wait = .woken)
  elsewhere : c.owner ≠ .listening → ∀ σ, s.hub.signal? i = some σ → σ.wait = .none

theorem Conn.Attends.of_quiet {c : Conn} {i : Nat} {s : Instance} (howner : c.owner ≠ .listening)
    (hquiet : ∀ σ, s.hub.signal? i = some σ → σ.wait = .none) : c.Attends i s :=
  ⟨fun hlistens => absurd hlistens howner, fun _ => hquiet⟩

/-- A connection that went on reading at most. -/
structure Conn.Keeps (c c' : Conn) : Prop where
  cleanup : c'.cleanup = c.cleanup
  joined : c'.joined = c.joined
  deeds : c'.deeds = c.deeds

inductive OwnerMove (i : Nat) (c : Conn) (s : Instance) : Conn × Instance → Prop where
  | drop (hrunning : c.owner.hasEnded = false) : OwnerMove i c s (c.drop i s true)
  | start (howner : c.owner = .unborn) :
      OwnerMove i c s
        ({ c with owner := .joining s.callStore, writer := .receiving, openedAt := s.now }.note
            .opened,
          (s.mapHub fun h => h.add i).mapMetrics Metrics.recordOpened)
  | join (call : StoreCall) (score : Nat) (presence : Presence.Service)
      (howner : c.owner = .joining call) (hpassed : call.passed = .ok ())
      (hfinish : s.presence.finishJoin (Conn.member s i) (.ok ()) = (some score, presence)) :
      OwnerMove i c s
        ({ { c with joined := true }.note .joined with
            owner := .announcing (Announcement.start { s with presence }) },
          { s with presence })
  | miss (call : StoreCall) (failure : Presence.Failure) (presence : Presence.Service)
      (howner : c.owner = .joining call) (hpassed : call.passed = .error failure)
      (hfinish : s.presence.finishJoin (Conn.member s i) (.error failure) = (none, presence)) :
      OwnerMove i c s
        ({ c with owner := .announcing (Announcement.start { s with presence }) },
          { s with presence })
  /-- The owner stays in the open stage. -/
  | work (c' : Conn) (s' : Instance) (hopen : c.owner.stage = .opened)
      (hstays : c'.owner.stage = .opened) (hkeeps : c.Keeps c') (haside : s.Aside i s')
      (hattends : c.Attends i s → c'.Attends i s') : OwnerMove i c s (c', s')
  | finish (c' : Conn) (s' : Instance) (reason : CloseReason) (hopen : c.owner.stage = .opened)
      (hkeeps : c.Keeps { c' with cleanup := c.cleanup }) (howner : c'.owner = .finishing reason)
      (hcleanup : c'.cleanup = .ready true) (haside : s.Aside i s')
      (hquiet : ∀ σ, s'.hub.signal? i = some σ → σ.wait = .none) : OwnerMove i c s (c', s')
  | part (s' : Instance) (reason : CloseReason) (deadline : Nat)
      (howner : c.owner = .finishing reason) (hdone : c.cleanup = .done) (hspares : s.Spares s') :
      OwnerMove i c s ({ c with owner := .parting reason deadline }, s')
  | stop (reason : CloseReason) (deadline : Nat) (dropped : Bool)
      (howner : c.owner = .parting reason deadline) :
      OwnerMove i c s ({ c with owner := .done reason, writerDropped := dropped }, s)

/-- An owner that is dropped. Where it had registered the connection, this is undone at once. -/
inductive DropMove (i : Nat) (c : Conn) (s : Instance) (runtime : Bool) :
    Conn × Instance → Prop where
  | unpolled (howner : c.owner = .unborn) :
      DropMove i c s runtime ({ c with owner := .aborted, writer := .ended }, s)
  | undo (s' : Instance) (howner : c.owner.stage = .opened ∨ ∃ call, c.owner = .joining call)
      (haside : s.Aside i s') (hquiet : ∀ σ, s'.hub.signal? i = some σ → σ.wait = .none) :
      DropMove i c s runtime
        ({ ({ c with owner := .aborted }.deregister i s').1 with
            cleanup := if runtime then .ready false else .done },
          ({ c with owner := .aborted }.deregister i s').2)
  | late (howner : c.owner.stage = .closing ∨ c.owner.stage = .closed) :
      DropMove i c s runtime ({ c with owner := .aborted }, s)

/-- What is left of the deregistration when the cleanup starts. -/
def Conn.undo (c : Conn) (registered : Bool) (i : Nat) (s : Instance) : Conn × Instance :=
  if registered then c.deregister i s else (c, s)

inductive CleanupMove (i : Nat) (c : Conn) (s : Instance) : Conn × Instance → Prop where
  | leave (registered : Bool) (hcleanup : c.cleanup = .ready registered)
      (hjoined : c.joined = true) :
      CleanupMove i c s
        ({ (c.undo registered i s).1 with
            cleanup := .leaving (c.undo registered i s).2.callStore }.note .leaveAsked,
          (c.undo registered i s).2)
  | skip (registered : Bool) (hcleanup : c.cleanup = .ready registered)
      (hjoined : c.joined = false) :
      CleanupMove i c s
        ((c.undo registered i s).1.announceEnd (c.undo registered i s).2, (c.undo registered i s).2)
  | left (call : StoreCall) (score : Nat) (presence : Presence.Service)
      (hcleanup : c.cleanup = .leaving call) (hdue : call.isDue s.now = true)
      (hpassed : call.passed = .ok ())
      (hfinish : s.presence.finishLeave (Conn.member s i) (.ok ()) = (some score, presence)) :
      CleanupMove i c s ((c.note .left).announceEnd { s with presence }, { s with presence })
  | fail (call : StoreCall) (failure : Presence.Failure) (presence : Presence.Service)
      (hcleanup : c.cleanup = .leaving call) (hdue : call.isDue s.now = true)
      (hpassed : call.passed = .error failure)
      (hfinish : s.presence.finishLeave (Conn.member s i) (.error failure) = (none, presence)) :
      CleanupMove i c s (c.announceEnd { s with presence }, { s with presence })
  | announce (a : Announcement) (b : Broadcast) (s' : Instance)
      (hcleanup : c.cleanup = .announcing a) (hspares : s.Spares s') :
      CleanupMove i c s ({ c with cleanup := .announcing (.sending b) }, s')
  | done (a : Announcement) (s' : Instance) (hcleanup : c.cleanup = .announcing a)
      (hspares : s.Spares s') : CleanupMove i c s ({ c with cleanup := .done }, s')

namespace Conn

variable {i : Nat} {c c₁ : Conn} {s s₁ : Instance}

theorem Keeps.refl (c : Conn) : c.Keeps c := ⟨rfl, rfl, rfl⟩

theorem wait_none_abandon (s : Instance) (i : Nat) :
    ∀ σ, (mapSignal s i CloseSignal.abandon).hub.signal? i = some σ → σ.wait = .none := by
  intro σ hσ
  rw [signal?_mapSignal, Option.map_eq_some_iff] at hσ
  obtain ⟨before, _, rfl⟩ := hσ
  unfold CloseSignal.abandon
  split <;> rfl

/-- Whatever the owner was doing, once it finishes no wait is left behind. -/
theorem move_finish (reason : CloseReason) (hopen : c.owner.stage = .opened) (hkeeps : c.Keeps c₁)
    (haside : s.Aside i s₁) : OwnerMove i c s (c₁.finish i s₁ reason) :=
  .finish _ _ reason hopen ⟨rfl, hkeeps.joined, hkeeps.deeds⟩ rfl rfl
    (haside.trans (aside_mapSignal s₁ i CloseSignal.abandon)) (wait_none_abandon s₁ i)

/-- The owner begins to listen, without a wait. -/
theorem move_listen (hopen : c.owner.stage = .opened) (hkeeps : c.Keeps c₁)
    (haside : s.Aside i s₁)
    (hquiet : c.Attends i s → ∀ σ, s₁.hub.signal? i = some σ → σ.wait = .none) :
    OwnerMove i c s (c₁.listen, s₁) := by
  refine .work _ _ hopen rfl ⟨hkeeps.cleanup, hkeeps.joined, hkeeps.deeds⟩ haside fun hattends => ?_
  exact ⟨fun _ σ hσ hwaits => absurd (hquiet hattends σ hσ) hwaits, fun hother => absurd rfl hother⟩

/-- An owner that listens registers its wait. A wait that is not over at once was registered where
nothing had been raised. -/
theorem move_wait (howner : c.owner = .listening) (hwaits : (signal s i).poll.1 = false)
    (hnone : (signal s i).wait = .none) :
    OwnerMove i c s (c, mapSignal s i fun _ => (signal s i).poll.2) := by
  have hopen : c.owner.stage = .opened := by rw [howner]; rfl
  refine .work _ _ hopen hopen (Keeps.refl c) (aside_mapSignal s i _) fun _ => ?_
  refine ⟨fun _ σ hσ _ => ?_, fun hother => absurd howner hother⟩
  simp only [signal?_mapSignal, Option.map_eq_some_iff] at hσ
  obtain ⟨_, _, rfl⟩ := hσ
  unfold CloseSignal.poll CloseSignal.begin CloseSignal.register at hwaits ⊢
  cases hraised : (signal s i).raised <;> cases hpermit : (signal s i).permit <;> simp_all

/-- Work other than listening needs no wait. -/
theorem move_busy (o : Owner) (hopen : c.owner.stage = .opened) (hkeeps : c.Keeps c₁)
    (haside : s.Aside i s₁) (hstays : o.stage = .opened) (hbusy : o ≠ .listening)
    (hquiet : c.Attends i s → ∀ σ, s₁.hub.signal? i = some σ → σ.wait = .none) :
    OwnerMove i c s ({ c₁ with owner := o }, s₁) := by
  refine .work _ _ hopen hstays ⟨hkeeps.cleanup, hkeeps.joined, hkeeps.deeds⟩ haside ?_
  exact fun hattends => .of_quiet hbusy (hquiet hattends)

/-- Whatever frame an owner has read, its turn is one of the moves. -/
theorem move_handle (frame : Frame) (hopen : c.owner.stage = .opened) (hkeeps : c.Keeps c₁) :
    OwnerMove i c s (c₁.handle i s frame) := by
  -- whatever the frame is, the wait for the close signal is given up first
  have habandon := aside_mapSignal s i CloseSignal.abandon
  have hnone := wait_none_abandon s i
  have hread : c.Keeps { c₁ with read := c₁.read ++ [frame] } :=
    ⟨hkeeps.cleanup, hkeeps.joined, hkeeps.deeds⟩
  have hcounted (kind : String) : (mapSignal s i CloseSignal.abandon).Spares
      ((mapSignal s i CloseSignal.abandon).mapMetrics fun m => m.recordReceived kind) :=
    Instance.Spares.mapMetrics _ _ rfl rfl
  have hpass {s₁ : Instance} (o : Owner) (hstays : o.stage = .opened) (hbusy : o ≠ .listening)
      (hspares : (mapSignal s i CloseSignal.abandon).Spares s₁) :
      OwnerMove i c s ({ { c₁ with read := c₁.read ++ [frame] } with owner := o }, s₁) :=
    move_busy o hopen hread (habandon.trans (hspares.aside i)) hstays hbusy
      fun _ => (hspares.peers i).wait_none hnone
  cases frame with
  | text content =>
      simp only [handle]
      split
      · exact hpass _ rfl nofun ((hcounted "text").trans
          (Instance.Spares.of_still (Send.still_start _ _ _ _ _)))
      · exact hpass _ rfl nofun ((hcounted "text").trans (Instance.Spares.beginBroadcast _ _ _))
  | binary content =>
      simp only [handle]
      split
      · exact hpass _ rfl nofun ((hcounted "binary").trans
          (Instance.Spares.of_still (Send.still_start _ _ _ _ _)))
      · exact hpass _ rfl nofun ((hcounted "binary").trans (Instance.Spares.beginBroadcast _ _ _))
  | ping content =>
      exact move_listen hopen hread (habandon.trans ((hcounted "ping").aside i))
        fun _ => ((hcounted "ping").peers i).wait_none hnone
  | pong content =>
      exact move_listen hopen hread (habandon.trans ((hcounted "pong").aside i))
        fun _ => ((hcounted "pong").peers i).wait_none hnone
  | close detail => exact move_finish .clientClosed hopen hread habandon

theorem move_heed {b : Branch} {r : Conn × Instance} (hopen : c.owner.stage = .opened)
    (hheed : c.heed i s b = some r) : OwnerMove i c s r := by
  have hread (input : Input) : c.Keeps { c with input } := ⟨rfl, rfl, rfl⟩
  have hsame := (Instance.Spares.refl s).aside i
  cases b with
  | signal =>
      simp only [heed] at hheed
      split at hheed
      · cases hheed
        exact move_finish .serverClosed hopen (Keeps.refl c) (aside_mapSignal s i _)
      · cases hheed
  | writer =>
      simp only [heed] at hheed
      split at hheed
      · cases hheed
        exact move_finish .writeFailed hopen (Keeps.refl c) hsame
      · cases hheed
  | arrival =>
      simp only [heed] at hheed
      split at hheed
      · cases hheed
        exact move_handle _ hopen (hread _)
      · cases hheed
        exact move_finish _ hopen (hread _) hsame
      · split at hheed
        · cases hheed
          exact move_finish .streamEnded hopen (Keeps.refl c) hsame
        · cases hheed

/-- So is a turn of an owner that listens, whichever branch is looked at first. -/
theorem move_hear {first : Branch} {r : Conn × Instance} (howner : c.owner = .listening)
    (hhear : c.hear i s first = some r) : OwnerMove i c s r := by
  rcases hear_cases hhear with ⟨b, hheed⟩ | ⟨hnothing, hnone, rfl⟩
  · exact move_heed (by rw [howner]; rfl) hheed
  · exact move_wait howner (heed_signal_eq_none.mp (hnothing .signal)) hnone

/-- Every step of an owner is one of its moves. -/
theorem ownerStep_move {first : Branch} {r : Conn × Instance}
    (hstep : c.ownerStep i s first = some r) : OwnerMove i c s r := by
  have hsame := (Instance.Spares.refl s).aside i
  -- work that spares everyone brings no wait into being
  have hquiet {s₁ : Instance} (hspares : s.Spares s₁) (helsewhere : c.owner ≠ .listening) :
      c.Attends i s → ∀ σ, s₁.hub.signal? i = some σ → σ.wait = .none :=
    fun hattends => (hspares.peers i).wait_none (hattends.elsewhere helsewhere)
  unfold ownerStep at hstep
  split at hstep
  · cases hstep
  case isFalse hrunning =>
    split at hstep
    · cases hstep
      exact .drop (by simpa using hrunning)
    split at hstep
    case h_1 howner =>
      cases hstep
      exact .start howner
    case h_2 call howner =>
      split at hstep
      · cases hstep
        cases hpassed : call.passed with
        | ok _ => exact .join call _ _ howner hpassed rfl
        | error failure => exact .miss call failure _ howner hpassed rfl
      · cases hstep
    case h_3 a howner =>
      have hopen : c.owner.stage = .opened := by rw [howner]; rfl
      have helsewhere : c.owner ≠ .listening := by simp [howner]
      have hspares := a.spares_step s
      split at hstep
      · cases hstep
      case h_2 a' s₁ heq =>
        cases hstep
        rw [heq] at hspares
        exact move_busy _ hopen (Keeps.refl c) (hspares.aside i) rfl nofun
          (hquiet hspares helsewhere)
      case h_3 result s₁ heq =>
        cases hstep
        rw [heq] at hspares
        exact move_listen hopen (Keeps.refl c) (hspares.aside i) (hquiet hspares helsewhere)
    case h_4 howner => exact move_hear howner hstep
    case h_5 send howner =>
      have hopen : c.owner.stage = .opened := by rw [howner]; rfl
      have helsewhere : c.owner ≠ .listening := by simp [howner]
      have hspares : s.Spares { s with hub := (send.resume s.hub s.now).2 } :=
        Instance.Spares.of_still (Send.still_resume send s.hub s.now)
      simp only at hstep
      split at hstep
      · cases hstep
      · cases hstep
        exact move_listen hopen (Keeps.refl c) (hspares.aside i) (hquiet hspares helsewhere)
      · cases hstep
        exact move_finish .writeFailed hopen (Keeps.refl c) (hspares.aside i)
    case h_6 b howner =>
      have hopen : c.owner.stage = .opened := by rw [howner]; rfl
      have helsewhere : c.owner ≠ .listening := by simp [howner]
      have hspares := Instance.Spares.pursueBroadcast s b
      split at hstep
      · cases hstep
      case h_2 b' s₁ heq =>
        cases hstep
        rw [heq] at hspares
        exact move_busy _ hopen (Keeps.refl c) (hspares.aside i) rfl nofun
          (hquiet hspares helsewhere)
      case h_3 result s₁ heq =>
        cases hstep
        rw [heq] at hspares
        exact move_listen hopen (Keeps.refl c) (hspares.aside i) (hquiet hspares helsewhere)
    case h_7 reason howner =>
      split at hstep
      case isTrue hdone =>
        cases hstep
        have hcleanup : c.cleanup = .done := by
          cases hphase : c.cleanup <;> simp_all [Cleanup.isDone]
        exact .part _ reason _ howner hcleanup
          (Instance.Spares.of_still (Hub.Still.trySend s.hub i ⟨.farewell, .close⟩))
      · cases hstep
    case h_8 reason deadline howner =>
      split at hstep
      · cases hstep
        exact .stop reason deadline c.writerDropped howner
      split at hstep
      · cases hstep
        exact .stop reason deadline true howner
      · cases hstep
    · cases hstep
    · cases hstep

theorem drop_move (c : Conn) (i : Nat) (s : Instance) (runtime : Bool) :
    DropMove i c s runtime (c.drop i s runtime) := by
  have hundo {s₁ : Instance} (howner : c.owner.stage = .opened ∨ ∃ call, c.owner = .joining call)
      (hspares : s.Spares s₁) := @DropMove.undo i c s runtime _ howner
        ((hspares.aside i).trans (aside_mapSignal s₁ i CloseSignal.abandon))
          (wait_none_abandon s₁ i)
  unfold drop
  cases howner : c.owner with
  | unborn => exact .unpolled howner
  | joining call => exact hundo (.inr ⟨call, howner⟩) (Instance.Spares.refl s)
  | announcing a => exact hundo (.inl (by rw [howner]; rfl)) (a.spares_abandon s)
  | listening => exact hundo (.inl (by rw [howner]; rfl)) (Instance.Spares.refl s)
  | echoing send =>
      exact hundo (.inl (by rw [howner]; rfl)) (Instance.Spares.of_still (send.still_abandon s.hub))
  | relaying b =>
      exact hundo (.inl (by rw [howner]; rfl)) (Instance.Spares.of_still (b.still_abandon s.hub))
  | finishing reason => exact .late (.inl (by rw [howner]; rfl))
  | parting reason deadline => exact .late (.inl (by rw [howner]; rfl))
  | done reason => exact .late (.inr (by rw [howner]; rfl))
  | aborted => exact .late (.inr (by rw [howner]; rfl))

theorem cleanupStep_move {r : Conn × Instance} (hstep : c.cleanupStep i s = some r) :
    CleanupMove i c s r := by
  unfold cleanupStep at hstep
  split at hstep
  · cases hstep
  case h_2 registered hcleanup =>
    have hkept : (c.undo registered i s).1.joined = c.joined := by
      unfold undo
      split <;> rfl
    simp only at hstep
    change (if (c.undo registered i s).1.joined = true then _ else _) = _ at hstep
    rw [hkept] at hstep
    split at hstep
    case isTrue hjoined =>
      cases hstep
      exact .leave registered hcleanup hjoined
    case isFalse hjoined =>
      cases hstep
      exact .skip registered hcleanup (by simpa using hjoined)
  case h_3 call hcleanup =>
    split at hstep
    case isTrue hdue =>
      cases hstep
      cases hpassed : call.passed with
      | ok _ => exact .left call _ _ hcleanup hdue hpassed rfl
      | error failure => exact .fail call failure _ hcleanup hdue hpassed rfl
    · cases hstep
  case h_4 a hcleanup =>
    have hspares := a.spares_step s
    split at hstep
    · cases hstep
    case h_2 a' s₁ heq =>
      cases hstep
      rw [heq] at hspares
      obtain ⟨b, rfl⟩ := Announcement.sending_of_goesOn heq
      exact .announce a b s₁ hcleanup hspares
    case h_3 result s₁ heq =>
      cases hstep
      rw [heq] at hspares
      exact .done a s₁ hcleanup hspares
  · cases hstep

/-- A cleanup that is ready never waits to begin. -/
theorem cleanup_starts {registered : Bool} (hready : c.cleanup = .ready registered) (i : Nat)
    (s : Instance) : ∃ r, c.cleanupStep i s = some r := by
  unfold cleanupStep
  rw [hready]
  cases registered with
  | true =>
      simp only [if_true]
      split <;> exact ⟨_, rfl⟩
  | false =>
      simp only [Bool.false_eq_true, if_false]
      split <;> exact ⟨_, rfl⟩

/-- A writer touches only its own part of the connection and spares everyone. -/
theorem writerStep_spares {r : Conn × Instance} {held : Bool}
    (hstep : c.writerStep i s held = some r) :
    r.1.owner = c.owner ∧ c.Keeps r.1 ∧ s.Spares r.2 := by
  have hsame := Instance.Spares.refl s
  have hends : s.Spares (c.endWriter i s).2 :=
    Instance.Spares.of_still (Hub.Still.hangUp s.hub i)
  unfold writerStep at hstep
  simp only at hstep
  split at hstep
  · cases hstep
    exact ⟨rfl, ⟨rfl, rfl, rfl⟩, hends⟩
  split at hstep
  · cases hstep
  · split at hstep
    case h_1 parcel hub hreceive =>
      cases hstep
      exact ⟨rfl, ⟨rfl, rfl, rfl⟩, Instance.Spares.of_still (Hub.Still.receive hreceive)⟩
    · split at hstep
      · cases hstep
      · cases hstep
        exact ⟨rfl, ⟨rfl, rfl, rfl⟩, hsame⟩
  · split at hstep
    · cases hstep
      exact ⟨rfl, ⟨rfl, rfl, rfl⟩, hsame⟩
    · cases hstep
      exact ⟨rfl, ⟨rfl, rfl, rfl⟩, hends⟩
    · split at hstep
      · cases hstep
        exact ⟨rfl, ⟨rfl, rfl, rfl⟩, hends⟩
      · cases hstep
  · split at hstep
    · split at hstep
      · cases hstep
        exact ⟨rfl, ⟨rfl, rfl, rfl⟩, hends⟩
      · cases hstep
    · cases hstep
      exact ⟨rfl, ⟨rfl, rfl, rfl⟩, hends⟩
  · cases hstep

theorem others_undo (c : Conn) (registered : Bool) (i : Nat) (s : Instance) :
    s.Others i (c.undo registered i s).2 := by
  cases registered with
  | true => exact others_deregister c i s
  | false => exact ((Instance.Spares.refl s).aside i).toOthers

end Conn

/-- A presence service that hands on a result leaves the hub as it was. -/
theorem Instance.others_presence (s : Instance) (i : Nat) {presence : Presence.Service}
    (hgate : presence.gate = s.presence.gate) : s.Others i { s with presence } where
  names := rfl
  peers j _ := Hub.Spares.refl j s.hub
  distinct := id
  shuttingDown := rfl
  gate := hgate
  now := rfl

theorem DropMove.others {i : Nat} {c : Conn} {s : Instance} {runtime : Bool} {r : Conn × Instance}
    (hmove : DropMove i c s runtime r) : s.Others i r.2 := by
  cases hmove with
  | unpolled => exact ((Instance.Spares.refl s).aside i).toOthers
  | undo s' _ haside => exact haside.toOthers.trans (Conn.others_deregister _ i s')
  | late => exact ((Instance.Spares.refl s).aside i).toOthers

theorem DropMove.aborted {i : Nat} {c : Conn} {s : Instance} {runtime : Bool} {r : Conn × Instance}
    (hmove : DropMove i c s runtime r) : r.1.owner = .aborted := by
  cases hmove <;> rfl

theorem OwnerMove.others {i : Nat} {c : Conn} {s : Instance} {r : Conn × Instance}
    (hmove : OwnerMove i c s r) : s.Others i r.2 := by
  cases hmove with
  | drop => exact (c.drop_move i s true).others
  | start =>
      have hpeers : (s.hub.add i).peers = s.hub.peers ∧
          (s.hub.add i).shuttingDown = s.hub.shuttingDown := by
        unfold Hub.add
        split <;> exact ⟨rfl, rfl⟩
      refine ⟨?_, fun j hj => ⟨.inl ?_, fun hregistered => ?_⟩, ?_, hpeers.2, rfl, rfl⟩
      · simp [Instance.mapMetrics, Instance.mapHub, Hub.names, hpeers.1]
      · simp [Instance.mapMetrics, Instance.mapHub, Hub.signal?, hpeers.1]
      · exact (((s.hub.mem_registered_add i j).mp hregistered).resolve_right hj)
      · exact s.hub.nodup_registered_add i
  | join call score presence _ _ hfinish =>
      exact s.others_presence i (Instance.finishJoin_ledger hfinish).1
  | miss call failure presence _ _ hfinish =>
      exact s.others_presence i (Instance.finishJoin_ledger hfinish).1
  | work c' s' _ _ _ haside => exact haside.toOthers
  | finish c' s' _ _ _ _ _ haside => exact haside.toOthers
  | part s' _ _ _ _ hspares => exact (hspares.aside i).toOthers
  | stop => exact ((Instance.Spares.refl s).aside i).toOthers

theorem CleanupMove.others {i : Nat} {c : Conn} {s : Instance} {r : Conn × Instance}
    (hmove : CleanupMove i c s r) : s.Others i r.2 := by
  cases hmove with
  | leave registered => exact c.others_undo registered i s
  | skip registered => exact c.others_undo registered i s
  | left call score presence _ _ _ hfinish =>
      exact s.others_presence i (Instance.finishLeave_ledger hfinish).1
  | fail call failure presence _ _ _ hfinish =>
      exact s.others_presence i (Instance.finishLeave_ledger hfinish).1
  | announce a b s' _ hspares => exact (hspares.aside i).toOthers
  | done a s' _ hspares => exact (hspares.aside i).toOthers

theorem DropMove.registered {i : Nat} {c : Conn} {s : Instance} {runtime : Bool}
    {r : Conn × Instance} (hmove : DropMove i c s runtime r) (hlater : i ∈ r.2.hub.registered) :
    i ∈ s.hub.registered := by
  cases hmove with
  | unpolled => exact hlater
  | undo s' _ haside => exact haside.registered (List.mem_of_mem_erase hlater)
  | late => exact hlater

/-- Only the first step of an owner registers its connection. -/
theorem OwnerMove.registered {i : Nat} {c : Conn} {s : Instance} {r : Conn × Instance}
    (hmove : OwnerMove i c s r) (hlater : i ∈ r.2.hub.registered) :
    i ∈ s.hub.registered ∨ c.owner = .unborn := by
  cases hmove with
  | drop => exact .inl ((c.drop_move i s true).registered hlater)
  | start howner => exact .inr howner
  | join => exact .inl hlater
  | miss => exact .inl hlater
  | work c' s' _ _ _ haside => exact .inl (haside.registered hlater)
  | finish c' s' _ _ _ _ _ haside => exact .inl (haside.registered hlater)
  | part s' _ _ _ _ hspares => exact .inl ((hspares.peers i).registered hlater)
  | stop => exact .inl hlater

/-- A cleanup registers nobody. -/
theorem CleanupMove.registered {i : Nat} {c : Conn} {s : Instance} {r : Conn × Instance}
    (hmove : CleanupMove i c s r) (hlater : i ∈ r.2.hub.registered) : i ∈ s.hub.registered := by
  have hundo (registered : Bool) (hin : i ∈ (c.undo registered i s).2.hub.registered) :
      i ∈ s.hub.registered := by
    cases registered with
    | true => exact List.mem_of_mem_erase hin
    | false => exact hin
  cases hmove with
  | leave registered => exact hundo registered hlater
  | skip registered => exact hundo registered hlater
  | left => exact hlater
  | fail => exact hlater
  | announce a b s' _ hspares => exact (hspares.peers i).registered hlater
  | done a s' _ hspares => exact (hspares.peers i).registered hlater

/-- The operator takes no part in the deeds of the connections. -/
theorem World.operate_spares {w w' : World} (hstep : w.operate = some w') :
    w'.conns = w.conns ∧ w.site.Spares w'.site := by
  have hsame := Instance.Spares.refl w.site
  unfold World.operate at hstep
  split at hstep
  · split at hstep
    · cases hstep
      exact ⟨rfl, hsame⟩
    · cases hstep
  case h_2 a _ =>
    have hspares := a.spares_step w.site
    split at hstep
    · cases hstep
    case h_2 a' site heq =>
      cases hstep
      rw [heq] at hspares
      exact ⟨rfl, hspares⟩
    case h_3 result site heq =>
      cases hstep
      rw [heq] at hspares
      exact ⟨rfl, hspares⟩
  case h_3 b _ =>
    have hspares := Instance.Spares.pursueBroadcast w.site b
    split at hstep
    · cases hstep
    case h_2 b' site heq =>
      cases hstep
      rw [heq] at hspares
      exact ⟨rfl, hspares⟩
    case h_3 result site heq =>
      cases hstep
      rw [heq] at hspares
      exact ⟨rfl, hspares⟩
  · split at hstep
    · split at hstep
      all_goals
        cases hstep
        exact ⟨rfl, hsame⟩
    · cases hstep
  · cases hstep

end Rollcall.Session
