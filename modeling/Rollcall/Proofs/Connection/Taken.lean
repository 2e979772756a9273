import Rollcall.Proofs.Connection.Delivery

/-!
What the receivers took out of the channels.

Only the receiver of a channel takes anything out of it. Sends, broadcasts, evictions and whatever
is done to signals and the registry leave alone how much was taken (`Hub.taken`), so these lemmas
are equations and rewrite away every operation but `Hub.receive` and `Hub.hangUp`.
-/

namespace Rollcall.Connection

namespace Hub

/-- How much of a channel its receiver took. -/
def taken (h : Hub) (i : Nat) : Nat := (h.peers[i]?.map fun p => p.channel.taken).getD 0

section Operations

variable (h : Hub) (i : Nat)

theorem taken_modify (change : Peer → Peer)
    (hkeeps : ∀ p, (change p).channel.taken = p.channel.taken) :
    (h.modify i change).taken = h.taken := by
  funext j
  have hsame := map_modify h.peers i change (fun p => p.channel.taken) hkeeps
  simpa [taken, modify] using congrArg (fun numbers => (numbers[j]?).getD 0) hsame

/-- A channel that is put in place of the one there, with how much was taken from it. -/
theorem taken_put {p : Peer} (hp : h.peers[i]? = some p) (channel : Channel Parcel) :
    (h.modify i fun p => { p with channel }).taken = Function.update h.taken i channel.taken := by
  funext j
  simp only [taken, modify, List.getElem?_modify, Function.update]
  by_cases hij : i = j
  · subst hij
    simp [hp]
  · cases h.peers[j]? with
    | none => simp [Ne.symm hij]
    | some q => simp [hij, Ne.symm hij]

/-- A change of a channel that takes nothing out of it shows nowhere. -/
theorem taken_put_same {p : Peer} (hp : h.peers[i]? = some p) {channel : Channel Parcel}
    (hchannel : channel.taken = p.channel.taken) :
    (h.modify i fun p => { p with channel }).taken = h.taken := by
  rw [taken_put h i hp, hchannel]
  refine (congrArg _ ?_).trans (Function.update_eq_self i h.taken)
  simp [taken, hp]

@[simp] theorem taken_trySend (parcel : Parcel) : (h.trySend i parcel).2.taken = h.taken := by
  unfold trySend
  cases hp : h.peers[i]? with
  | none => rfl
  | some p =>
      apply taken_put_same h i hp
      unfold Channel.trySend
      split
      · rfl
      · split <;> rfl

@[simp] theorem taken_enqueue : (h.enqueue i).2.taken = h.taken := by
  unfold enqueue
  cases hp : h.peers[i]? with
  | none => rfl
  | some p => exact taken_put_same h i hp rfl

@[simp] theorem taken_redeem (ticket : Nat) (parcel : Parcel) :
    (h.redeem i ticket parcel).2.taken = h.taken := by
  unfold redeem
  cases hp : h.peers[i]? with
  | none => rfl
  | some p =>
      apply taken_put_same h i hp
      unfold Channel.redeem
      split
      · rfl
      · split <;> rfl

@[simp] theorem taken_leaveLine (ticket : Nat) : (h.leaveLine i ticket).taken = h.taken :=
  h.taken_modify i _ fun _ => rfl

@[simp] theorem taken_signal (change : CloseSignal → CloseSignal) :
    (h.modify i fun p => { p with signal := change p.signal }).taken = h.taken :=
  h.taken_modify i _ fun _ => rfl

@[simp] theorem taken_close : (h.close i).taken = h.taken := h.taken_modify i _ fun _ => rfl

@[simp] theorem taken_add : (h.add i).taken = h.taken := by
  unfold add
  split <;> rfl

@[simp] theorem taken_closeAll : h.closeAll.2.taken = h.taken := by
  have heach (targets : List Nat) (h : Hub) : (targets.foldl close h).taken = h.taken := by
    induction targets generalizing h with
    | nil => rfl
    | cons i rest ih => exact (ih (h.close i)).trans (h.taken_close i)
  exact heach h.registered { h with shuttingDown := true }

/-- Nothing was taken from a new channel. -/
@[simp] theorem taken_connect (user : String) (capacity : Nat) :
    (h.connect user capacity).taken = h.taken := by
  funext i
  exact view_append h.peers (Peer.create ⟨h.peers.length⟩ user capacity)
    (fun seen => (seen.map fun p => p.channel.taken).getD 0) rfl i

/-- The end of a receiver is no matter of other channels. -/
theorem taken_hangUp_of_ne {j : Nat} (hij : i ≠ j) : (h.hangUp i).taken j = h.taken j := by
  simp only [taken, hangUp, modify, List.getElem?_modify, if_neg hij]
  simp

/-- The receiver gets the first of what it has not taken yet. -/
theorem receive_spec {parcel : Parcel} {h' : Hub} (hreceive : h.receive i = some (parcel, h')) :
    (h.entered i)[h.taken i]? = some parcel ∧
      h'.taken = Function.update h.taken i (h.taken i + 1) := by
  unfold receive at hreceive
  cases hp : h.peers[i]? with
  | none => simp [hp] at hreceive
  | some p =>
      simp only [hp, Option.map_eq_some_iff, Prod.mk.injEq] at hreceive
      obtain ⟨⟨first, channel⟩, hchannel, rfl, rfl⟩ := hreceive
      unfold Channel.receive at hchannel
      split at hchannel
      · cases hchannel
      case h_2 rest hqueue =>
        cases hchannel
        have hfirst : p.channel.queue[0]? = some first := by rw [hqueue]; rfl
        refine ⟨by simpa [entered, taken, hp, Channel.queue] using hfirst, ?_⟩
        rw [taken_put h i hp]
        simp [taken, hp, Channel.grant]

/-- A channel that gives nothing has been emptied. -/
theorem receive_none (hreceive : h.receive i = none) : (h.entered i).length ≤ h.taken i := by
  unfold receive at hreceive
  cases hp : h.peers[i]? with
  | none => simp [entered, hp]
  | some p =>
      simp only [hp, Option.map_eq_none_iff] at hreceive
      unfold Channel.receive at hreceive
      split at hreceive
      case h_1 hqueue => simpa [entered, taken, hp, Channel.queue] using hqueue
      case h_2 => cases hreceive

end Operations
end Hub

namespace Send

@[simp] theorem taken_expire (s : Send) (h : Hub) (now : Nat) :
    (s.expire h now).2.taken = h.taken := by
  unfold expire
  split
  · split
    · exact h.taken_leaveLine _ _
    · rfl
  · rfl

@[simp] theorem taken_start (h : Hub) (now target : Nat) (parcel : Parcel) (deadline : Nat) :
    (start h now target parcel deadline).2.taken = h.taken := by
  have htry := h.taken_trySend target parcel
  unfold start
  split
  case h_1 h' heq => simpa [heq] using htry
  case h_2 h' heq => simpa [heq] using htry
  case h_3 h' heq =>
    rw [taken_expire, Hub.taken_enqueue]
    simpa [heq] using htry

/-- Sends put parcels into channels and take none out. -/
@[simp] theorem taken_resume (s : Send) (h : Hub) (now : Nat) :
    (s.resume h now).2.taken = h.taken := by
  unfold resume
  split
  case h_1 ticket _ =>
    have hredeem := h.taken_redeem s.target ticket s.parcel
    split
    case h_1 h' heq => simpa [heq] using hredeem
    case h_2 h' heq => simpa [heq] using hredeem
    case h_3 h' heq => simpa [heq] using hredeem
  · rfl

@[simp] theorem taken_abandon (s : Send) (h : Hub) : (s.abandon h).taken = h.taken := by
  unfold abandon
  split
  · exact h.taken_leaveLine _ _
  · rfl

end Send

namespace Broadcast

@[simp] theorem taken_start (h : Hub) (now : Nat) (origin : Nat → Origin) (message : Outbound) :
    (start h now origin message).2.taken = h.taken := by
  have hall (parcel : Parcel) (deadline : Nat) (targets : List Nat) (h : Hub) :
      (startAll now parcel deadline targets h).2.taken = h.taken := by
    induction targets generalizing h with
    | nil => rfl
    | cons target rest ih => exact (ih _).trans (Send.taken_start h now target parcel deadline)
  exact hall _ _ _ { h with broadcasts := h.broadcasts + 1 }

@[simp] theorem taken_resume (b : Broadcast) (h : Hub) (now : Nat) :
    (b.resume h now).2.taken = h.taken := by
  have heach (sends : List Send) (h : Hub) :
      (each (fun s h => s.resume h now) sends h).2.taken = h.taken := by
    induction sends generalizing h with
    | nil => rfl
    | cons s rest ih => exact (ih _).trans (s.taken_resume h now)
  exact heach b.sends h

@[simp] theorem taken_abandon (b : Broadcast) (h : Hub) : (b.abandon h).taken = h.taken := by
  unfold abandon
  induction b.sends generalizing h with
  | nil => rfl
  | cons s rest ih => exact (ih _).trans (s.taken_abandon h)

@[simp] theorem taken_evict (b : Broadcast) (h : Hub) : (b.evict h).taken = h.taken := by
  unfold evict
  induction b.failures generalizing h with
  | nil => rfl
  | cons i rest ih => exact (ih _).trans ((h.remove i).taken_close i)

end Broadcast
end Rollcall.Connection
