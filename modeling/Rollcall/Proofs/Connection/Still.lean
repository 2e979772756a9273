import Rollcall.Connection.Broadcast

/-!
What sends and evictions leave alone.

A send touches channels and nothing else of a hub: who the peers are, their close signals and the
registry stay (`Still`). An eviction also takes peers out of the registry and raises their signals,
so all that a peer has to expect from others is that it loses its registration and is asked to close
(`Spares`).
-/

namespace Rollcall.Connection

/-- What of a peer no send can change. -/
def Peer.face (p : Peer) : (Id × String) × CloseSignal := ((p.id, p.user), p.signal)

/-- A change of one item is not seen by a view that the change keeps. -/
theorem map_modify {α β : Type} (items : List α) (i : Nat) (change : α → α) (view : α → β)
    (hview : ∀ a, view (change a) = view a) :
    (items.modify i change).map view = items.map view := by
  apply List.ext_getElem?
  intro j
  simp only [List.getElem?_map, List.getElem?_modify]
  cases items[j]? with
  | none => simp
  | some a =>
      by_cases hij : i = j
      · simp [hij, hview]
      · simp [hij]

namespace Hub

def names (h : Hub) : List (Id × String) := h.peers.map fun p => (p.id, p.user)

def signal? (h : Hub) (i : Nat) : Option CloseSignal := h.peers[i]?.map Peer.signal

/-- Two hubs with the same peers, signals and registry. -/
structure Still (h h' : Hub) : Prop where
  faces : h'.peers.map Peer.face = h.peers.map Peer.face
  registered : h'.registered = h.registered
  shuttingDown : h'.shuttingDown = h.shuttingDown

namespace Still

variable {a b c : Hub}

theorem refl (h : Hub) : Still h h := ⟨rfl, rfl, rfl⟩

theorem names_eq (hstill : Still a b) : b.names = a.names := by
  simpa [names, Peer.face, Function.comp_def] using congrArg (List.map Prod.fst) hstill.faces

theorem signal?_eq (hstill : Still a b) (i : Nat) : b.signal? i = a.signal? i := by
  simpa [signal?, Peer.face, Function.comp_def] using
    congrArg (fun faces => faces[i]?.map Prod.snd) hstill.faces

theorem trans (hab : Still a b) (hbc : Still b c) : Still a c :=
  ⟨hbc.faces.trans hab.faces, hbc.registered.trans hab.registered,
    hbc.shuttingDown.trans hab.shuttingDown⟩

theorem modify (h : Hub) (i : Nat) (change : Peer → Peer)
    (hface : ∀ p, (change p).face = p.face) : Still h (h.modify i change) :=
  ⟨map_modify h.peers i change Peer.face hface, rfl, rfl⟩

theorem trySend (h : Hub) (i : Nat) (parcel : Parcel) : Still h (h.trySend i parcel).2 := by
  unfold Hub.trySend
  cases h.peers[i]? with
  | none => exact refl h
  | some p => exact modify h i _ (fun _ => rfl)

theorem enqueue (h : Hub) (i : Nat) : Still h (h.enqueue i).2 := by
  unfold Hub.enqueue
  cases h.peers[i]? with
  | none => exact refl h
  | some p => exact modify h i _ (fun _ => rfl)

theorem redeem (h : Hub) (i ticket : Nat) (parcel : Parcel) :
    Still h (h.redeem i ticket parcel).2 := by
  unfold Hub.redeem
  cases h.peers[i]? with
  | none => exact refl h
  | some p => exact modify h i _ (fun _ => rfl)

theorem leaveLine (h : Hub) (i ticket : Nat) : Still h (h.leaveLine i ticket) :=
  modify h i _ (fun _ => rfl)

theorem hangUp (h : Hub) (i : Nat) : Still h (h.hangUp i) := modify h i _ (fun _ => rfl)

theorem receive {h h' : Hub} {i : Nat} {parcel : Parcel}
    (hreceive : h.receive i = some (parcel, h')) : Still h h' := by
  unfold Hub.receive at hreceive
  cases hp : h.peers[i]? with
  | none => simp [hp] at hreceive
  | some p =>
      simp only [hp, Option.map_eq_some_iff, Prod.mk.injEq] at hreceive
      obtain ⟨⟨_, channel⟩, _, _, rfl⟩ := hreceive
      exact modify h i _ (fun _ => rfl)

end Still

/-- What peer `i` has to expect from others: that it loses its registration and that it is asked to
close. -/
structure Spares (i : Nat) (h h' : Hub) : Prop where
  signal : h'.signal? i = h.signal? i ∨ h'.signal? i = (h.signal? i).map CloseSignal.raise
  registered : i ∈ h'.registered → i ∈ h.registered

namespace Spares

variable {i : Nat} {a b c : Hub}

theorem refl (i : Nat) (h : Hub) : Spares i h h := ⟨.inl rfl, id⟩

theorem of_still (hstill : Still a b) (i : Nat) : Spares i a b :=
  ⟨.inl (hstill.signal?_eq i), fun hi => hstill.registered ▸ hi⟩

/-- Asking twice is asking once, so what is expected of one step is expected of many. -/
theorem trans (hab : Spares i a b) (hbc : Spares i b c) : Spares i a c := by
  refine ⟨?_, hab.registered ∘ hbc.registered⟩
  have htwice : ((a.signal? i).map CloseSignal.raise).map CloseSignal.raise =
      (a.signal? i).map CloseSignal.raise := by
    cases a.signal? i with
    | none => rfl
    | some s => exact congrArg some (s.raise.raise_of_raised s.raised_raise)
  rcases hab.signal with hfirst | hfirst <;> rcases hbc.signal with hthen | hthen
  · exact .inl (hthen.trans hfirst)
  · exact .inr (hthen.trans (by rw [hfirst]))
  · exact .inr (hthen.trans hfirst)
  · exact .inr (hthen.trans (by rw [hfirst, htwice]))

theorem remove (h : Hub) (i j : Nat) : Spares i h (h.remove j) :=
  ⟨.inl rfl, List.mem_of_mem_erase⟩

end Spares

/-- A change of one peer's signal shows in that peer alone. -/
theorem signal?_modify (h : Hub) (i j : Nat) (change : CloseSignal → CloseSignal) :
    (h.modify i fun p => { p with signal := change p.signal }).signal? j =
      if i = j then (h.signal? j).map change else h.signal? j := by
  simp only [signal?, Hub.modify, List.getElem?_modify]
  cases h.peers[j]? with
  | none => simp
  | some p =>
      by_cases hij : i = j
      · simp [hij]
      · simp [hij]

/-- A peer that is asked to close is spared otherwise. -/
theorem Spares.close (h : Hub) (i j : Nat) : Spares i h (h.close j) := by
  refine ⟨?_, id⟩
  rw [Hub.close, signal?_modify]
  split
  · exact .inr rfl
  · exact .inl rfl

/-- An owner without a wait has none after a step of others. -/
theorem Spares.wait_none {i : Nat} {h h' : Hub} (hspares : Spares i h h')
    (hnone : ∀ σ, h.signal? i = some σ → σ.wait = .none) :
    ∀ σ, h'.signal? i = some σ → σ.wait = .none := by
  intro σ hσ
  rcases hspares.signal with hsame | hraised
  · exact hnone σ (hsame ▸ hσ)
  · rw [hraised, Option.map_eq_some_iff] at hσ
    obtain ⟨before, hbefore, rfl⟩ := hσ
    have hwait := hnone before hbefore
    unfold CloseSignal.raise CloseSignal.setFlag CloseSignal.notify
    cases before.raised <;> simp [hwait]

end Hub

theorem Send.still_expire (s : Send) (h : Hub) (now : Nat) : Hub.Still h (s.expire h now).2 := by
  unfold Send.expire
  split
  · split
    · exact Hub.Still.leaveLine h _ _
    · exact Hub.Still.refl h
  · exact Hub.Still.refl h

theorem Send.still_start (h : Hub) (now target : Nat) (parcel : Parcel) (deadline : Nat) :
    Hub.Still h (Send.start h now target parcel deadline).2 := by
  have htry := Hub.Still.trySend h target parcel
  unfold Send.start
  split
  case h_1 h' heq => simpa [heq] using htry
  case h_2 h' heq => simpa [heq] using htry
  case h_3 h' heq =>
    have hfull : Hub.Still h h' := by simpa [heq] using htry
    exact (hfull.trans (Hub.Still.enqueue h' target)).trans (Send.still_expire _ _ now)

/-- A send moves parcels and tickets, but touches neither registry nor signals. -/
theorem Send.still_resume (s : Send) (h : Hub) (now : Nat) : Hub.Still h (s.resume h now).2 := by
  unfold Send.resume
  split
  case h_1 ticket _ =>
    have hredeem := Hub.Still.redeem h s.target ticket s.parcel
    split
    case h_1 h' heq => simpa [heq] using hredeem
    case h_2 h' heq =>
      have hclosed : Hub.Still h h' := by simpa [heq] using hredeem
      exact hclosed.trans (Hub.Still.leaveLine h' _ _)
    case h_3 h' heq =>
      have hfull : Hub.Still h h' := by simpa [heq] using hredeem
      exact hfull.trans (Send.still_expire s h' now)
  · exact Hub.Still.refl h

theorem Send.still_abandon (s : Send) (h : Hub) : Hub.Still h (s.abandon h) := by
  unfold Send.abandon
  split
  · exact Hub.Still.leaveLine h _ _
  · exact Hub.Still.refl h

namespace Broadcast

theorem still_startAll (now : Nat) (parcel : Parcel) (deadline : Nat) (targets : List Nat)
    (h : Hub) : Hub.Still h (startAll now parcel deadline targets h).2 := by
  induction targets generalizing h with
  | nil => exact Hub.Still.refl h
  | cons target rest ih =>
      exact (Send.still_start h now target parcel deadline).trans (ih _)

theorem still_start (h : Hub) (now : Nat) (origin : Nat → Origin) (message : Outbound) :
    Hub.Still h (start h now origin message).2 :=
  have hcounted : Hub.Still h { h with broadcasts := h.broadcasts + 1 } := ⟨rfl, rfl, rfl⟩
  hcounted.trans (still_startAll _ _ _ _ _)

/-- Neither does a broadcast that goes on. -/
theorem still_resume (b : Broadcast) (h : Hub) (now : Nat) :
    Hub.Still h (b.resume h now).2 := by
  have heach (sends : List Send) (h : Hub) :
      Hub.Still h (each (fun s h => s.resume h now) sends h).2 := by
    induction sends generalizing h with
    | nil => exact Hub.Still.refl h
    | cons s rest ih => exact (Send.still_resume s h now).trans (ih _)
  exact heach b.sends h

theorem still_abandon (b : Broadcast) (h : Hub) : Hub.Still h (b.abandon h) := by
  unfold abandon
  induction b.sends generalizing h with
  | nil => exact Hub.Still.refl h
  | cons s rest ih => exact (Send.still_abandon s h).trans (ih _)

/-- An eviction spares everyone in the sense above, those it evicts included. -/
theorem spares_evict (b : Broadcast) (h : Hub) (i : Nat) : Hub.Spares i h (b.evict h) := by
  unfold evict
  induction b.failures generalizing h with
  | nil => exact Hub.Spares.refl i h
  | cons j rest ih =>
      exact ((Hub.Spares.remove h i j).trans (Hub.Spares.close _ i j)).trans (ih _)

/-- An eviction takes peers out of the registry and puts none in. -/
theorem registered_evict (b : Broadcast) (h : Hub) :
    (b.evict h).registered.Sublist h.registered ∧ (b.evict h).shuttingDown = h.shuttingDown ∧
      (b.evict h).names = h.names := by
  unfold evict
  induction b.failures generalizing h with
  | nil => exact ⟨List.Sublist.refl _, rfl, rfl⟩
  | cons j rest ih =>
      obtain ⟨hsub, hdown, hnames⟩ := ih ((h.remove j).close j)
      exact ⟨hsub.trans List.erase_sublist, hdown,
        hnames.trans (map_modify h.peers j _ _ (fun _ => rfl))⟩

end Broadcast
end Rollcall.Connection
