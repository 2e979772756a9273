import Rollcall.Proofs.Connection.Still
import Rollcall.Session.World

/-!
What a connection sees of the others' work.

The connections of an instance share one site. Announcements and broadcasts spare everyone on it
(`Instance.Spares`), and no task of one connection does more to another than take it out of the
registry and ask it to close (`Instance.Others`). What the deeds of the connections do to the store
and the counters is told by a ledger, into which each deed is entered once.
-/

namespace Rollcall.Presence.Tracker

theorem connections_absorb {α : Type} (t : Tracker) (op : Operation) (result : Except Failure α) :
    (t.absorb op result).2.metrics.connectionsOpened = t.metrics.connectionsOpened ∧
      (t.absorb op result).2.metrics.connectionsClosed = t.metrics.connectionsClosed := by
  cases result with
  | ok value =>
      simp only [absorb]
      split <;> exact ⟨rfl, rfl⟩
  | error failure =>
      simp only [absorb]
      split <;> exact ⟨rfl, rfl⟩

theorem connections_counted (t : Tracker) (result : Except Failure Nat) :
    (t.counted result).2.metrics.connectionsOpened = t.metrics.connectionsOpened ∧
      (t.counted result).2.metrics.connectionsClosed = t.metrics.connectionsClosed := by
  have habsorb := t.connections_absorb .count result
  -- the cases keep the wrapped figure from being computed
  have honline (m : Metrics) (n : Nat) :
      (m.setOnlineUsers n).connectionsOpened = m.connectionsOpened ∧
        (m.setOnlineUsers n).connectionsClosed = m.connectionsClosed := by
    cases m
    exact ⟨rfl, rfl⟩
  unfold counted
  split
  case h_1 n seen heq =>
    rw [heq] at habsorb
    exact ⟨(honline _ n).1.trans habsorb.1, (honline _ n).2.trans habsorb.2⟩
  case h_2 seen heq =>
    rw [heq] at habsorb
    exact habsorb

end Rollcall.Presence.Tracker

namespace Rollcall.Session

open Connection

/-- Where the deeds of the connections show. -/
structure Ledger where
  store : Presence.Store
  opened : Nat
  closed : Nat

/-- What a deed done for `member` changes. -/
def Ledger.enter (member : String) (l : Ledger) : Deed → Ledger
  | .opened => { l with opened := l.opened + 1 }
  | .joined => { l with store := (l.store.join member).2 }
  | .closed => { l with closed := l.closed + 1 }
  | .left => { l with store := (l.store.leave member).2 }
  | .leaveAsked => l
  | .announced => l

namespace Instance

def ledger (s : Instance) : Ledger :=
  ⟨s.presence.store, s.metrics.connectionsOpened, s.metrics.connectionsClosed⟩

/-- Taking note of how a call went changes nothing but the store it hands on. -/
theorem ledger_absorb {α : Type} (s : Instance) (op : Presence.Operation)
    (result : Except Presence.Failure α) (store : Presence.Store) :
    Instance.ledger { s with presence :=
      { s.presence with store, tracker := (s.presence.tracker.absorb op result).2 } } =
        { s.ledger with store } := by
  have hsame := s.presence.tracker.connections_absorb op result
  simp only [Instance.ledger, Ledger.mk.injEq, true_and]
  exact hsame

/-- A join that takes effect is entered, and one that fails changes nothing. -/
theorem finishJoin_ledger {s : Instance} {member : String} {passed : Except Presence.Failure Unit}
    {result : Option Nat} {presence : Presence.Service}
    (hfinish : s.presence.finishJoin member passed = (result, presence)) :
    presence.gate = s.presence.gate ∧
      Instance.ledger { s with presence } =
        if passed.isOk then s.ledger.enter member .joined else s.ledger := by
  unfold Presence.Service.finishJoin at hfinish
  cases passed with
  | ok _ =>
      cases hfinish
      exact ⟨rfl, ledger_absorb s .join (.ok (s.presence.store.join member).1 : Except _ Nat)
        (s.presence.store.join member).2⟩
  | error failure =>
      cases hfinish
      exact ⟨rfl, ledger_absorb s .join (.error failure : Except _ Nat) s.presence.store⟩

/-- A leave that takes effect is entered, and one that fails changes nothing. -/
theorem finishLeave_ledger {s : Instance} {member : String} {passed : Except Presence.Failure Unit}
    {result : Option Nat} {presence : Presence.Service}
    (hfinish : s.presence.finishLeave member passed = (result, presence)) :
    presence.gate = s.presence.gate ∧
      Instance.ledger { s with presence } =
        if passed.isOk then s.ledger.enter member .left else s.ledger := by
  unfold Presence.Service.finishLeave at hfinish
  cases passed with
  | ok _ =>
      cases hfinish
      exact ⟨rfl, ledger_absorb s .leave (.ok (s.presence.store.leave member).1 : Except _ Nat)
        (s.presence.store.leave member).2⟩
  | error failure =>
      cases hfinish
      exact ⟨rfl, ledger_absorb s .leave (.error failure : Except _ Nat) s.presence.store⟩

/-- A step that does no deed and spares everyone. -/
structure Spares (s s' : Instance) : Prop where
  names : s'.hub.names = s.hub.names
  peers : ∀ i, Hub.Spares i s.hub s'.hub
  registered : s'.hub.registered.Sublist s.hub.registered
  shuttingDown : s'.hub.shuttingDown = s.hub.shuttingDown
  ledger : s'.ledger = s.ledger
  gate : s'.presence.gate = s.presence.gate
  now : s'.now = s.now

namespace Spares

variable {r s t : Instance}

theorem refl (s : Instance) : Spares s s :=
  ⟨rfl, fun i => Hub.Spares.refl i s.hub, List.Sublist.refl _, rfl, rfl, rfl, rfl⟩

theorem trans (hrs : Spares r s) (hst : Spares s t) : Spares r t where
  names := hst.names.trans hrs.names
  peers i := (hrs.peers i).trans (hst.peers i)
  registered := hst.registered.trans hrs.registered
  shuttingDown := hst.shuttingDown.trans hrs.shuttingDown
  ledger := hst.ledger.trans hrs.ledger
  gate := hst.gate.trans hrs.gate
  now := hst.now.trans hrs.now

theorem of_still {s : Instance} {hub : Hub} (hstill : Hub.Still s.hub hub) :
    Spares s { s with hub } where
  names := hstill.names_eq
  peers := Hub.Spares.of_still hstill
  registered := by simp [hstill.registered]
  shuttingDown := hstill.shuttingDown
  ledger := rfl
  gate := rfl
  now := rfl

/-- Metrics may change as long as they count the same connections. -/
theorem mapMetrics (s : Instance) (change : Metrics → Metrics)
    (hopened : (change s.metrics).connectionsOpened = s.metrics.connectionsOpened)
    (hclosed : (change s.metrics).connectionsClosed = s.metrics.connectionsClosed) :
    Spares s (s.mapMetrics change) where
  names := rfl
  peers i := Hub.Spares.refl i s.hub
  registered := List.Sublist.refl _
  shuttingDown := rfl
  ledger := by
    simp only [Instance.ledger, Ledger.mk.injEq]
    exact ⟨rfl, hopened, hclosed⟩
  gate := rfl
  now := rfl

theorem evict (s : Instance) (b : Broadcast) : Spares s (s.mapHub b.evict) := by
  obtain ⟨hsub, hdown, hnames⟩ := b.registered_evict s.hub
  exact ⟨hnames, b.spares_evict s.hub, hsub, hdown, rfl, rfl, rfl⟩

theorem beginBroadcast (s : Instance) (origin : Nat → Origin) (message : Outbound) :
    Spares s (s.beginBroadcast origin message).2 :=
  of_still (Broadcast.still_start s.hub s.now origin message)

theorem settleBroadcast (s : Instance) (b : Broadcast) : Spares s (s.settleBroadcast b) := by
  unfold Instance.settleBroadcast
  simp only
  split
  · exact evict s b
  · exact (evict s b).trans (mapMetrics _ _ rfl rfl)

theorem pursueBroadcast (s : Instance) (b : Broadcast) : Spares s (s.pursueBroadcast b).2 := by
  unfold Instance.pursueBroadcast
  split
  · exact settleBroadcast s b
  split
  · exact of_still (b.still_resume s.hub s.now)
  · exact refl s

theorem finishCount (s : Instance) (passed : Except Presence.Failure Unit) :
    Spares s { s with presence := (s.presence.finishCount passed).2 } where
  names := rfl
  peers i := Hub.Spares.refl i s.hub
  registered := List.Sublist.refl _
  shuttingDown := rfl
  ledger := by
    have hsame :=
      s.presence.tracker.connections_counted (passed.map fun () => s.presence.store.count)
    simp only [Instance.ledger, Ledger.mk.injEq]
    exact ⟨rfl, hsame⟩
  gate := rfl
  now := rfl

end Spares
end Instance

namespace Announcement

theorem spares_step (a : Announcement) (s : Instance) : s.Spares (a.step s).2 := by
  cases a with
  | counting call =>
      simp only [step]
      split
      · have hcount := Instance.Spares.finishCount s call.passed
        split
        case h_1 presence heq => simpa [heq] using hcount
        case h_2 online presence heq =>
          have hread : s.Spares { s with presence } := by simpa [heq] using hcount
          exact hread.trans (Instance.Spares.beginBroadcast _ _ _)
      · exact Instance.Spares.refl s
  | sending b =>
      have hpursue := Instance.Spares.pursueBroadcast s b
      simp only [step]
      split
      all_goals
        rename_i heq
        simpa [heq] using hpursue

theorem sending_of_goesOn {a a' : Announcement} {s s' : Instance}
    (hstep : a.step s = (.goesOn a', s')) : ∃ b, a' = .sending b := by
  cases a with
  | counting call =>
      simp only [step] at hstep
      split at hstep
      · split at hstep
        · cases hstep
        · cases hstep
          exact ⟨_, rfl⟩
      · cases hstep
  | sending b =>
      simp only [step] at hstep
      split at hstep
      · cases hstep
      · cases hstep
        exact ⟨_, rfl⟩
      · cases hstep

theorem spares_abandon (a : Announcement) (s : Instance) : s.Spares (a.abandon s) := by
  cases a with
  | counting call => exact Instance.Spares.refl s
  | sending b => exact Instance.Spares.of_still (b.still_abandon s.hub)

end Announcement

namespace Instance

/-- What a step of a task of connection `i` is to the other connections. -/
structure Others (i : Nat) (s s' : Instance) : Prop where
  names : s'.hub.names = s.hub.names
  peers : ∀ j, j ≠ i → Hub.Spares j s.hub s'.hub
  distinct : s.hub.registered.Nodup → s'.hub.registered.Nodup
  shuttingDown : s'.hub.shuttingDown = s.hub.shuttingDown
  gate : s'.presence.gate = s.presence.gate
  now : s'.now = s.now

/-- A step of a task of connection `i` that does no deed; only the connection's own signal is free
to change. -/
structure Aside (i : Nat) (s s' : Instance) : Prop extends Others i s s' where
  registered : i ∈ s'.hub.registered → i ∈ s.hub.registered
  ledger : s'.ledger = s.ledger

theorem Others.trans {i : Nat} {r s t : Instance} (hrs : Others i r s) (hst : Others i s t) :
    Others i r t where
  names := hst.names.trans hrs.names
  peers j hj := (hrs.peers j hj).trans (hst.peers j hj)
  distinct := hst.distinct ∘ hrs.distinct
  shuttingDown := hst.shuttingDown.trans hrs.shuttingDown
  gate := hst.gate.trans hrs.gate
  now := hst.now.trans hrs.now

theorem Aside.trans {i : Nat} {r s t : Instance} (hrs : Aside i r s) (hst : Aside i s t) :
    Aside i r t :=
  ⟨hrs.toOthers.trans hst.toOthers, hrs.registered ∘ hst.registered, hst.ledger.trans hrs.ledger⟩

theorem Spares.aside {s s' : Instance} (hspares : Spares s s') (i : Nat) : Aside i s s' where
  names := hspares.names
  peers j _ := hspares.peers j
  distinct := hspares.registered.nodup
  shuttingDown := hspares.shuttingDown
  gate := hspares.gate
  now := hspares.now
  registered := (hspares.peers i).registered
  ledger := hspares.ledger

end Instance

namespace Conn

theorem member_eq {s s' : Instance} (hnames : s'.hub.names = s.hub.names) (i : Nat) :
    member s' i = member s i := by
  have hname := congrArg (fun names => names[i]?.map fun name => memberOf name.1 name.2) hnames
  simp only [Hub.names, List.getElem?_map, Option.map_map] at hname
  exact congrArg (fun member => Option.getD member "") hname

/-- What a connection does to its own signal is no matter of the others. -/
theorem aside_mapSignal (s : Instance) (i : Nat) (change : CloseSignal → CloseSignal) :
    s.Aside i (mapSignal s i change) where
  names := map_modify s.hub.peers i _ _ (fun _ => rfl)
  peers j hj := ⟨.inl (by simp [mapSignal, Instance.mapHub, Hub.signal?_modify, hj.symm]), id⟩
  distinct := id
  shuttingDown := rfl
  gate := rfl
  now := rfl
  registered := id
  ledger := rfl

theorem signal?_mapSignal (s : Instance) (i : Nat) (change : CloseSignal → CloseSignal) :
    (mapSignal s i change).hub.signal? i = (s.hub.signal? i).map change := by
  simp [mapSignal, Instance.mapHub, Hub.signal?_modify]

theorem others_deregister (c : Conn) (i : Nat) (s : Instance) :
    s.Others i (c.deregister i s).2 where
  names := rfl
  peers j _ := Hub.Spares.remove s.hub j i
  distinct hdistinct := hdistinct.erase i
  shuttingDown := rfl
  gate := rfl
  now := rfl

end Conn
end Rollcall.Session
