import Mathlib.Data.List.Nodup
import Rollcall.Proofs.Connection.Still

/-!
What a broadcast puts into the channels.

A broadcast carries one parcel to each of its targets, and a copy of it is in the channel of a peer
for every send that has reached the peer. That is so from its start (`Broadcast.Begins`) through its
further attempts (`Broadcast.GoesOn`) to the eviction of those it failed to reach
(`Broadcast.Settles`). Everything else that happens to a hub lets in parcels of no broadcast at most
(`Hub.Quiet`).
-/

namespace Rollcall.Connection

def Origin.broadcast? : Origin → Option Nat
  | .announcement n => some n
  | .relay n _ => some n
  | .order n => some n
  | .echo => none
  | .farewell => none
  | .direct => none

/-- A new item that looks like none is not seen. -/
theorem view_append {α β : Type} (items : List α) (new : α) (view : Option α → β)
    (hview : view (some new) = view none) (i : Nat) :
    view (items ++ [new])[i]? = view items[i]? := by
  rw [List.getElem?_append]
  split
  · rfl
  case isFalse hbound =>
    rw [List.getElem?_eq_none_iff.mpr (Nat.le_of_not_lt hbound), List.getElem?_singleton]
    split
    · exact hview
    · rfl

def Parcel.isOf (n : Nat) (parcel : Parcel) : Bool := parcel.origin.broadcast? == some n

theorem Parcel.isOf_iff (n : Nat) (parcel : Parcel) :
    parcel.isOf n = true ↔ parcel.origin.broadcast? = some n := beq_iff_eq

theorem Parcel.isOf_false {m n : Nat} {parcel : Parcel}
    (hnumber : parcel.origin.broadcast? = some m)
    (hother : m ≠ n) : parcel.isOf n = false := by
  simpa [isOf, hnumber] using hother

theorem Parcel.isOf_own (n : Nat) {parcel : Parcel} (hown : parcel.origin.broadcast? = none) :
    parcel.isOf n = false := by simp [isOf, hown]

namespace Hub

/-- All that ever entered the channel of a peer, in order. -/
def entered (h : Hub) (i : Nat) : List Parcel :=
  (h.peers[i]?.map fun p => p.channel.entered).getD []

theorem isClosing_eq (h : Hub) (i : Nat) :
    h.isClosing i = ((h.signal? i).map CloseSignal.raised).getD false := by
  simp only [isClosing, signal?, Option.map_map]
  rfl

theorem entered_modify (h : Hub) (i : Nat) (change : Peer → Peer)
    (hkeeps : ∀ p, (change p).channel.entered = p.channel.entered) :
    (h.modify i change).entered = h.entered := by
  funext j
  have hsame := map_modify h.peers i change (fun p => p.channel.entered) hkeeps
  simpa [entered, modify] using congrArg (fun lists => (lists[j]?).getD []) hsame

theorem entered_put {h : Hub} {i : Nat} {p : Peer} (hp : h.peers[i]? = some p)
    {channel : Channel Parcel} {new : List Parcel}
    (hchannel : channel.entered = p.channel.entered ++ new) (j : Nat) :
    (h.modify i fun p => { p with channel }).entered j =
      h.entered j ++ if i = j then new else [] := by
  simp only [entered, modify, List.getElem?_modify]
  by_cases hij : i = j
  · subst hij
    simp [hp, hchannel]
  · cases h.peers[j]? with
    | none => simp [hij]
    | some q => simp [hij]

/-- A parcel enters a channel exactly if the attempt reports it sent, and enters no other. -/
theorem entered_trySend (h : Hub) (i : Nat) (parcel : Parcel) (j : Nat) :
    (h.trySend i parcel).2.entered j =
      h.entered j ++ if i = j ∧ (h.trySend i parcel).1 = .sent then [parcel] else [] := by
  unfold trySend
  cases hp : h.peers[i]? with
  | none => simp
  | some p =>
      rw [entered_put hp (p.channel.entered_trySend parcel) j]
      by_cases hij : i = j <;> simp [hij]

/-- The same for an attempt with a ticket. -/
theorem entered_redeem (h : Hub) (i ticket : Nat) (parcel : Parcel) (j : Nat) :
    (h.redeem i ticket parcel).2.entered j =
      h.entered j ++ if i = j ∧ (h.redeem i ticket parcel).1 = .sent then [parcel] else [] := by
  unfold redeem
  cases hp : h.peers[i]? with
  | none => simp
  | some p =>
      rw [entered_put hp (p.channel.entered_redeem ticket parcel) j]
      by_cases hij : i = j <;> simp [hij]

theorem entered_enqueue (h : Hub) (i : Nat) : (h.enqueue i).2.entered = h.entered := by
  unfold enqueue
  cases hp : h.peers[i]? with
  | none => rfl
  | some p =>
      funext j
      have hchannel : p.channel.enqueue.2.entered = p.channel.entered ++ [] := by
        simp [Channel.enqueue]
      simpa using entered_put hp hchannel j

theorem entered_leaveLine (h : Hub) (i ticket : Nat) :
    (h.leaveLine i ticket).entered = h.entered := h.entered_modify i _ fun _ => rfl

theorem entered_close (h : Hub) (i : Nat) : (h.close i).entered = h.entered :=
  h.entered_modify i _ fun _ => rfl

theorem entered_closeAll (h : Hub) : h.closeAll.2.entered = h.entered := by
  have heach (targets : List Nat) (h : Hub) : (targets.foldl close h).entered = h.entered := by
    induction targets generalizing h with
    | nil => rfl
    | cons i rest ih => exact (ih (h.close i)).trans (h.entered_close i)
  exact heach h.registered { h with shuttingDown := true }

theorem entered_add (h : Hub) (i : Nat) : (h.add i).entered = h.entered := by
  unfold add
  split <;> rfl

theorem entered_connect (h : Hub) (user : String) (capacity : Nat) :
    (h.connect user capacity).entered = h.entered := by
  funext i
  exact view_append h.peers (Peer.create ⟨h.peers.length⟩ user capacity)
    (fun seen => (seen.map fun p => p.channel.entered).getD []) rfl i

/-- Nothing entered, and registry and close flags are as they were. -/
structure Alike (h h' : Hub) : Prop where
  entered : h'.entered = h.entered
  broadcasts : h'.broadcasts = h.broadcasts
  registered : h'.registered = h.registered
  closing : h'.isClosing = h.isClosing

/-- What entered belongs to no broadcast, none has begun, whoever was closing still is, and only
registered peers were asked to close. -/
structure Quiet (h h' : Hub) : Prop where
  entered : ∀ i, ∃ own : List Parcel, h'.entered i = h.entered i ++ own ∧
    ∀ p ∈ own, p.origin.broadcast? = none
  broadcasts : h'.broadcasts = h.broadcasts
  closing : ∀ i, h.isClosing i = true → h'.isClosing i = true
  asked : ∀ i, h'.isClosing i = true → h.isClosing i = true ∨ i ∈ h.registered

variable {a b c : Hub}

/-- Whoever does not touch a peer's signal does not ask it to close. -/
theorem Still.closing (hstill : Still a b) : b.isClosing = a.isClosing := by
  funext i
  rw [isClosing_eq, isClosing_eq, hstill.signal?_eq]

namespace Alike

theorem refl (h : Hub) : Alike h h := ⟨rfl, rfl, rfl, rfl⟩

theorem trans (hab : Alike a b) (hbc : Alike b c) : Alike a c :=
  ⟨hbc.entered.trans hab.entered, hbc.broadcasts.trans hab.broadcasts,
    hbc.registered.trans hab.registered, hbc.closing.trans hab.closing⟩

theorem of_still (hstill : Still a b) (hentered : b.entered = a.entered)
    (hbroadcasts : b.broadcasts = a.broadcasts) : Alike a b :=
  ⟨hentered, hbroadcasts, hstill.registered, hstill.closing⟩

/-- A change of a signal that keeps its flag is not seen. -/
theorem mapSignal (h : Hub) (i : Nat) (change : CloseSignal → CloseSignal)
    (hflag : ∀ σ, h.signal? i = some σ → (change σ).raised = σ.raised) :
    Alike h (h.modify i fun p => { p with signal := change p.signal }) := by
  refine ⟨h.entered_modify i _ fun _ => rfl, rfl, rfl, ?_⟩
  funext j
  rw [isClosing_eq, isClosing_eq, signal?_modify]
  split
  case isTrue hij =>
    subst hij
    cases hσ : h.signal? i with
    | none => rfl
    | some σ => simp [hflag σ hσ]
  case isFalse => rfl

theorem leaveLine (h : Hub) (i ticket : Nat) : Alike h (h.leaveLine i ticket) :=
  of_still (Still.leaveLine h i ticket) (h.entered_leaveLine i ticket) rfl

theorem hangUp (h : Hub) (i : Nat) : Alike h (h.hangUp i) :=
  of_still (Still.hangUp h i) (h.entered_modify i _ fun _ => rfl) rfl

theorem receive {h h' : Hub} {i : Nat} {parcel : Parcel}
    (hreceive : h.receive i = some (parcel, h')) : Alike h h' := by
  have hstill := Still.receive hreceive
  unfold Hub.receive at hreceive
  cases hp : h.peers[i]? with
  | none => simp [hp] at hreceive
  | some p =>
      simp only [hp, Option.map_eq_some_iff, Prod.mk.injEq] at hreceive
      obtain ⟨⟨_, channel⟩, htaken, _, rfl⟩ := hreceive
      refine of_still hstill ?_ rfl
      have hchannel : channel.entered = p.channel.entered ++ [] := by
        unfold Channel.receive at htaken
        split at htaken
        · cases htaken
        · cases htaken
          simp [Channel.grant]
      funext j
      simpa using entered_put hp hchannel j

end Alike

/-- To ask a peer to close tells that peer alone. -/
theorem isClosing_close (h : Hub) (i j : Nat) :
    (h.close i).isClosing j = true ↔ h.isClosing j = true ∨ j = i ∧ j < h.peers.length := by
  rw [isClosing_eq, Hub.close, signal?_modify, isClosing_eq]
  split
  case isTrue hij =>
    subst hij
    cases hp : h.peers[i]? with
    | none => simp [signal?, Nat.not_lt.mpr (List.getElem?_eq_none_iff.mp hp)]
    | some p =>
        simp [signal?, (List.getElem?_eq_some_iff.mp hp).1, CloseSignal.raised_raise]
  case isFalse hij => simp [Ne.symm hij]

namespace Quiet

/-- Where the close flags stay as well, only what entered counts. -/
theorem of_entered (hclosing : b.isClosing = a.isClosing)
    (hbroadcasts : b.broadcasts = a.broadcasts)
    (hentered : ∀ i, ∃ own : List Parcel, b.entered i = a.entered i ++ own ∧
      ∀ p ∈ own, p.origin.broadcast? = none) : Quiet a b :=
  ⟨hentered, hbroadcasts, fun i hi => by rwa [hclosing], fun i hi => .inl (by rwa [← hclosing])⟩

theorem of_alike (halike : Alike a b) : Quiet a b :=
  of_entered halike.closing halike.broadcasts fun i => ⟨[], by simp [halike.entered], by simp⟩

theorem refl (h : Hub) : Quiet h h := of_alike (.refl h)

theorem alike_trans (hab : Alike a b) (hbc : Quiet b c) : Quiet a c where
  entered i := hab.entered ▸ hbc.entered i
  broadcasts := hbc.broadcasts.trans hab.broadcasts
  closing := hab.closing ▸ hbc.closing
  asked i hi := by
    rw [← hab.closing, ← hab.registered]
    exact hbc.asked i hi

theorem trans_alike (hab : Quiet a b) (hbc : Alike b c) : Quiet a c where
  entered i := by
    rw [hbc.entered]
    exact hab.entered i
  broadcasts := hbc.broadcasts.trans hab.broadcasts
  closing i := by
    rw [hbc.closing]
    exact hab.closing i
  asked i := by
    rw [hbc.closing]
    exact hab.asked i

theorem add (h : Hub) (i : Nat) : Quiet h (h.add i) := by
  unfold Hub.add
  split
  · exact refl h
  · exact of_entered rfl rfl fun _ => ⟨[], (List.append_nil _).symm, by simp⟩

theorem remove (h : Hub) (i : Nat) : Quiet h (h.remove i) :=
  of_entered rfl rfl fun _ => ⟨[], (List.append_nil _).symm, by simp⟩

theorem closeEach {targets : List Nat} {h : Hub} (hregistered : ∀ i ∈ targets, i ∈ h.registered) :
    Quiet h (targets.foldl Hub.close h) := by
  induction targets generalizing h with
  | nil => exact refl h
  | cons i rest ih =>
      have hrest := @ih (h.close i) fun j hj => hregistered j (List.mem_cons_of_mem _ hj)
      refine ⟨fun j => h.entered_close i ▸ hrest.entered j, hrest.broadcasts, fun j hj => ?_,
        fun j hj => ?_⟩
      · exact hrest.closing j ((isClosing_close h i j).mpr (.inl hj))
      · rcases hrest.asked j hj with hearlier | hin
        · rcases (isClosing_close h i j).mp hearlier with hbefore | ⟨rfl, _⟩
          · exact .inl hbefore
          · exact .inr (hregistered j List.mem_cons_self)
        · exact .inr hin

theorem close {h : Hub} {i : Nat} (hregistered : i ∈ h.registered) : Quiet h (h.close i) :=
  have hsingle : ∀ j ∈ [i], j ∈ h.registered := by simpa using hregistered
  closeEach hsingle

theorem closeAll (h : Hub) : Quiet h h.closeAll.2 :=
  have hmarked : Alike h { h with shuttingDown := true } := ⟨rfl, rfl, rfl, rfl⟩
  alike_trans hmarked (closeEach fun _ => id)

theorem connect (h : Hub) (user : String) (capacity : Nat) : Quiet h (h.connect user capacity) := by
  refine of_entered ?_ rfl fun i => ⟨[], by rw [h.entered_connect, List.append_nil], by simp⟩
  funext i
  exact view_append h.peers _ (fun seen => (seen.map Peer.isClosing).getD false) rfl i

theorem trySend (h : Hub) (i : Nat) {parcel : Parcel} (hown : parcel.origin.broadcast? = none) :
    Quiet h (h.trySend i parcel).2 := by
  refine of_entered (Still.trySend h i parcel).closing ?_ fun j =>
    ⟨_, h.entered_trySend i parcel j, ?_⟩
  · unfold Hub.trySend
    cases h.peers[i]? <;> rfl
  · intro p hp
    split at hp
    · simpa [List.mem_singleton.mp hp] using hown
    · cases hp

end Quiet

theorem isClosing_closeEach {targets : List Nat} {h : Hub} {i : Nat} (hi : i ∈ targets)
    (hbound : i < h.peers.length) : (targets.foldl close h).isClosing i = true := by
  have hstays (rest : List Nat) (h : Hub) (hclosing : h.isClosing i = true) :
      (rest.foldl close h).isClosing i = true := by
    induction rest generalizing h with
    | nil => exact hclosing
    | cons j rest ih => exact ih (h.close j) ((isClosing_close h j i).mpr (.inl hclosing))
  induction targets generalizing h with
  | nil => cases hi
  | cons j rest ih =>
      rcases List.mem_cons.mp hi with rfl | hin
      · exact hstays rest _ ((isClosing_close h i i).mpr (.inr ⟨rfl, hbound⟩))
      · exact ih hin (by simpa [Hub.close, Hub.modify] using hbound)

end Hub

namespace Send

def reached (s : Send) : List Nat := if s.state = .delivered then [s.target] else []

theorem entered_expire (s : Send) (h : Hub) (now : Nat) :
    (s.expire h now).2.entered = h.entered := by
  unfold expire
  split
  · split
    · exact h.entered_leaveLine _ _
    · rfl
  · rfl

theorem expire_eq (s : Send) (h : Hub) (now : Nat) :
    (s.expire h now).1.target = s.target ∧ (s.expire h now).1.parcel = s.parcel ∧
      (s.expire h now).1.reached = s.reached := by
  unfold expire
  split
  case h_1 ticket hwaits =>
    split
    · exact ⟨rfl, rfl, by simp [reached, hwaits]⟩
    · exact ⟨rfl, rfl, rfl⟩
  · exact ⟨rfl, rfl, rfl⟩

theorem target_start (h : Hub) (now target : Nat) (parcel : Parcel) (deadline : Nat) :
    (start h now target parcel deadline).1.target = target := by
  have hfirst := Broadcast.targets_startAll now parcel deadline [target] h
  simpa [Broadcast.startAll] using hfirst

theorem count_reached_elsewhere {s : Send} {i : Nat} (helsewhere : s.target ≠ i) :
    s.reached.count i = 0 := by
  unfold reached
  split <;> simp [helsewhere]

theorem broadcasts_expire (s : Send) (h : Hub) (now : Nat) :
    (s.expire h now).2.broadcasts = h.broadcasts := by
  unfold expire
  split
  · split <;> rfl
  · rfl

/-- A send puts its parcel into the channel it reaches, and nothing else anywhere. -/
theorem start_spec (h : Hub) (now target : Nat) (parcel : Parcel) (deadline : Nat) :
    (start h now target parcel deadline).1.parcel = parcel ∧
      (start h now target parcel deadline).2.broadcasts = h.broadcasts ∧
      ∀ i, (start h now target parcel deadline).2.entered i =
        h.entered i ++
          List.replicate ((start h now target parcel deadline).1.reached.count i) parcel := by
  have htry := h.entered_trySend target parcel
  have hcounted : (h.trySend target parcel).2.broadcasts = h.broadcasts := by
    unfold Hub.trySend
    cases h.peers[target]? <;> rfl
  unfold start
  split
  case h_1 h₁ heq =>
    rw [heq] at htry hcounted
    refine ⟨rfl, hcounted, fun i => ?_⟩
    rw [htry]
    by_cases hi : target = i <;> simp [reached, hi]
  case h_2 h₁ heq =>
    rw [heq] at htry hcounted
    refine ⟨rfl, hcounted, fun i => ?_⟩
    rw [htry]
    simp [reached]
  case h_3 h₁ heq =>
    rw [heq] at htry hcounted
    have hline : (h₁.enqueue target).2.broadcasts = h₁.broadcasts := by
      unfold Hub.enqueue
      cases h₁.peers[target]? <;> rfl
    simp only
    obtain ⟨_, hparcel, hreached⟩ := expire_eq
      ⟨target, parcel, deadline, .waiting (h₁.enqueue target).1⟩ (h₁.enqueue target).2 now
    refine ⟨hparcel, ?_, fun i => ?_⟩
    · rw [broadcasts_expire, hline, hcounted]
    · rw [entered_expire, hreached, h₁.entered_enqueue, htry]
      simp [reached]

/-- A further attempt changes neither target nor parcel; what it puts into the target's channel it
counts as reached. -/
theorem resume_spec (s : Send) (h : Hub) (now : Nat) :
    (s.resume h now).1.target = s.target ∧ (s.resume h now).1.parcel = s.parcel ∧
      (s.resume h now).2.broadcasts = h.broadcasts ∧
      ∀ i, ∃ n, (s.resume h now).2.entered i = h.entered i ++ List.replicate n s.parcel ∧
        (s.resume h now).1.reached.count i = s.reached.count i + n := by
  unfold resume
  split
  case h_1 ticket hwaits =>
    have hredeem := h.entered_redeem s.target ticket s.parcel
    have hcounted : (h.redeem s.target ticket s.parcel).2.broadcasts = h.broadcasts := by
      unfold Hub.redeem
      cases h.peers[s.target]? <;> rfl
    have hnowhere : s.reached = [] := by simp [reached, hwaits]
    split
    case h_1 h₁ heq =>
      rw [heq] at hredeem hcounted
      refine ⟨rfl, rfl, hcounted, fun i => ⟨[s.target].count i, ?_, by simp [reached, hwaits]⟩⟩
      rw [hredeem]
      by_cases hi : s.target = i <;> simp [hi]
    case h_2 h₁ heq =>
      rw [heq] at hredeem hcounted
      refine ⟨rfl, rfl, hcounted, fun i => ⟨0, ?_, by simp [reached, hwaits]⟩⟩
      rw [h₁.entered_leaveLine, hredeem]
      simp
    case h_3 h₁ heq =>
      rw [heq] at hredeem hcounted
      obtain ⟨htarget, hparcel, hreached⟩ := s.expire_eq h₁ now
      refine ⟨htarget, hparcel, (s.broadcasts_expire h₁ now).trans hcounted,
        fun i => ⟨0, ?_, by rw [hreached, Nat.add_zero]⟩⟩
      rw [entered_expire, hredeem]
      simp
  · exact ⟨rfl, rfl, rfl, fun i => ⟨0, by simp, rfl⟩⟩

theorem alike_abandon (s : Send) (h : Hub) : Hub.Alike h (s.abandon h) := by
  unfold abandon
  split
  · exact Hub.Alike.leaveLine h _ _
  · exact Hub.Alike.refl h

/-- A send of a parcel that belongs to no broadcast is quiet. -/
theorem quiet_start (h : Hub) (now target : Nat) {parcel : Parcel} (deadline : Nat)
    (hown : parcel.origin.broadcast? = none) :
    Hub.Quiet h (start h now target parcel deadline).2 := by
  obtain ⟨_, hcounted, hentered⟩ := start_spec h now target parcel deadline
  refine .of_entered (still_start h now target parcel deadline).closing hcounted
    fun i => ⟨_, hentered i, fun p hp => ?_⟩
  rw [List.eq_of_mem_replicate hp]
  exact hown

theorem quiet_resume {s : Send} (h : Hub) (now : Nat) (hown : s.parcel.origin.broadcast? = none) :
    Hub.Quiet h (s.resume h now).2 := by
  obtain ⟨_, _, hcounted, hentered⟩ := s.resume_spec h now
  refine .of_entered (s.still_resume h now).closing hcounted fun i => ?_
  obtain ⟨n, hnew, _⟩ := hentered i
  exact ⟨_, hnew, fun p hp => List.eq_of_mem_replicate hp ▸ hown⟩

end Send

namespace Broadcast

def targets (b : Broadcast) : List Nat := b.sends.map Send.target

def reached (b : Broadcast) : List Nat := b.sends.flatMap Send.reached

def Carries (b : Broadcast) (parcel : Parcel) : Prop := ∀ s ∈ b.sends, s.parcel = parcel

/-- Whoever a broadcast goes to it has reached, or it has not. -/
theorem mem_targets (b : Broadcast) (i : Nat) :
    i ∈ b.targets ↔ i ∈ b.reached ∨ i ∈ b.failures := by
  simp only [targets, reached, failures, List.mem_map, List.mem_flatMap, List.mem_filter]
  constructor
  · rintro ⟨s, hs, rfl⟩
    by_cases hdelivered : s.state = .delivered
    · exact .inl ⟨s, hs, by simp [Send.reached, hdelivered]⟩
    · exact .inr ⟨s, ⟨hs, by simp [hdelivered]⟩, rfl⟩
  · rintro (⟨s, hs, hi⟩ | ⟨s, ⟨hs, _⟩, rfl⟩)
    · unfold Send.reached at hi
      split at hi
      · exact ⟨s, hs, (List.mem_singleton.mp hi).symm⟩
      · cases hi
    · exact ⟨s, hs, rfl⟩

/-- With distinct targets nobody is both reached and failed. -/
theorem not_mem_failures {b : Broadcast} (hdistinct : b.targets.Nodup) {i : Nat}
    (hreached : i ∈ b.reached) : i ∉ b.failures := by
  simp only [reached, List.mem_flatMap] at hreached
  obtain ⟨s, hs, hi⟩ := hreached
  unfold Send.reached at hi
  split at hi
  case isTrue hdelivered =>
    obtain rfl := List.mem_singleton.mp hi
    simp only [failures, List.mem_map, List.mem_filter, not_exists, not_and]
    rintro other ⟨hother, hfailed⟩ hsame
    obtain rfl : other = s := List.inj_on_of_nodup_map hdistinct hother hs hsame
    simp [hdelivered] at hfailed
  case isFalse => cases hi

theorem nodup_reached {b : Broadcast} (hdistinct : b.targets.Nodup) : b.reached.Nodup := by
  refine List.Nodup.sublist ?_ hdistinct
  simp only [reached, targets]
  induction b.sends with
  | nil => exact List.Sublist.slnil
  | cons s rest ih =>
      by_cases hdelivered : s.state = .delivered
      · simpa [Send.reached, hdelivered] using ih
      · simpa [Send.reached, hdelivered] using ih.cons s.target

/-- The result counts each target that was reached once. -/
theorem delivered_eq_countP {b : Broadcast} (hdistinct : b.targets.Nodup) :
    b.result.delivered = b.targets.countP fun i => b.reached.contains i := by
  have hsame : ∀ s ∈ b.sends, (s.state == .delivered) = b.reached.contains s.target := by
    intro s hs
    by_cases hdelivered : s.state = .delivered
    · have hreached : s.target ∈ b.reached :=
        List.mem_flatMap.mpr ⟨s, hs, by simp [Send.reached, hdelivered]⟩
      simp [hdelivered, hreached]
    · have hfailed : s.target ∈ b.failures :=
        List.mem_map_of_mem (List.mem_filter.mpr ⟨hs, by simp [hdelivered]⟩)
      have hmissed : s.target ∉ b.reached :=
        fun hreached => not_mem_failures hdistinct hreached hfailed
      simp [hdelivered, hmissed]
  rw [targets, List.countP_map, result, ← List.countP_eq_length_filter]
  exact List.countP_congr fun s hs => by simp [hsame s hs]

/-- A broadcast that has begun, with what its first attempts did. -/
structure Begins (b : Broadcast) (parcel : Parcel) (h h' : Hub) : Prop where
  targets : b.targets = h.registered
  carries : b.Carries parcel
  entered : ∀ i, h'.entered i = h.entered i ++ List.replicate (b.reached.count i) parcel
  broadcasts : h'.broadcasts = h.broadcasts + 1
  registered : h'.registered = h.registered
  closing : h'.isClosing = h.isClosing

/-- Further attempts of a broadcast. -/
structure GoesOn (b b' : Broadcast) (h h' : Hub) : Prop where
  targets : b'.targets = b.targets
  carries : ∀ parcel, b.Carries parcel → b'.Carries parcel
  entered : ∀ parcel, b.Carries parcel → ∀ i, ∃ n,
    h'.entered i = h.entered i ++ List.replicate n parcel ∧
      b'.reached.count i = b.reached.count i + n
  broadcasts : h'.broadcasts = h.broadcasts
  registered : h'.registered = h.registered
  closing : h'.isClosing = h.isClosing

/-- The end of a broadcast: those it failed to reach are out of the registry and closing, and nobody
else is touched. -/
structure Settles (b : Broadcast) (h h' : Hub) : Prop where
  isOver : b.isOver = true
  entered : h'.entered = h.entered
  broadcasts : h'.broadcasts = h.broadcasts
  registered : ∀ i, i ∈ h'.registered ↔ i ∈ h.registered ∧ i ∉ b.failures
  closing : ∀ i, h'.isClosing i = true ↔
    h.isClosing i = true ∨ i ∈ b.failures ∧ i < h.peers.length

/-- The first attempts, one for each target: whatever entered a channel is counted as reached, and
nothing else is changed. -/
theorem startAll_spec (now : Nat) (parcel : Parcel) (deadline : Nat)
    (targets : List Nat) (h : Hub) :
    (∀ s ∈ (startAll now parcel deadline targets h).1, s.parcel = parcel) ∧
      (startAll now parcel deadline targets h).2.broadcasts = h.broadcasts ∧
      ∀ i, (startAll now parcel deadline targets h).2.entered i =
        h.entered i ++ List.replicate
          (((startAll now parcel deadline targets h).1.flatMap Send.reached).count i) parcel := by
  induction targets generalizing h with
  | nil => exact ⟨by simp [startAll], rfl, by simp [startAll]⟩
  | cons target rest ih =>
      obtain ⟨hparcel, hcounted, hentered⟩ := Send.start_spec h now target parcel deadline
      obtain ⟨hparcels, hrest, hlater⟩ := ih (Send.start h now target parcel deadline).2
      refine ⟨?_, hrest.trans hcounted, fun i => ?_⟩
      · intro s hs
        rcases List.mem_cons.mp hs with rfl | hin
        · exact hparcel
        · exact hparcels s hin
      · simp only [startAll]
        rw [hlater, hentered]
        simp [List.replicate_append_replicate]

theorem begins_start (h : Hub) (now : Nat) (origin : Nat → Origin) (message : Outbound) :
    (start h now origin message).1.Begins ⟨origin h.broadcasts, message⟩ h
      (start h now origin message).2 := by
  have hstill := still_start h now origin message
  obtain ⟨hparcels, hcounted, hentered⟩ := startAll_spec now ⟨origin h.broadcasts, message⟩
    (now + h.sendTimeout) h.registered { h with broadcasts := h.broadcasts + 1 }
  exact ⟨targets_startAll _ _ _ _ _, hparcels, hentered, hcounted, hstill.registered,
    hstill.closing⟩

/-- The further attempts at all targets, as `resume_spec` has it for one. -/
theorem each_resume_spec (now : Nat) (sends : List Send) (h : Hub) :
    (each (fun s h => s.resume h now) sends h).1.map Send.target = sends.map Send.target ∧
      (each (fun s h => s.resume h now) sends h).2.broadcasts = h.broadcasts ∧
      ∀ parcel, (∀ s ∈ sends, s.parcel = parcel) →
        (∀ s ∈ (each (fun s h => s.resume h now) sends h).1, s.parcel = parcel) ∧
          ∀ i, ∃ n, (each (fun s h => s.resume h now) sends h).2.entered i =
            h.entered i ++ List.replicate n parcel ∧
              ((each (fun s h => s.resume h now) sends h).1.flatMap Send.reached).count i =
                (sends.flatMap Send.reached).count i + n := by
  induction sends generalizing h with
  | nil => exact ⟨rfl, rfl, fun parcel _ => ⟨by simp [each], fun i => ⟨0, by simp [each]⟩⟩⟩
  | cons s rest ih =>
      obtain ⟨htarget, hparcel, hcounted, hentered⟩ := s.resume_spec h now
      obtain ⟨htargets, hrest, hlater⟩ := ih (s.resume h now).2
      refine ⟨by simp only [each, List.map_cons, htarget, htargets], hrest.trans hcounted, ?_⟩
      intro parcel hall
      obtain ⟨hparcels, hmore⟩ := hlater parcel fun s hs => hall s (List.mem_cons_of_mem _ hs)
      have hfirst := hall s List.mem_cons_self
      refine ⟨fun t ht => ?_, fun i => ?_⟩
      · rcases List.mem_cons.mp ht with rfl | hin
        · exact hparcel.trans hfirst
        · exact hparcels t hin
      · obtain ⟨n, hnew, hn⟩ := hentered i
        obtain ⟨m, hnewer, hm⟩ := hmore i
        refine ⟨n + m, ?_, ?_⟩
        · simp only [each]
          rw [hnewer, hnew, hfirst, List.append_assoc, List.replicate_append_replicate]
        · simp only [each, List.flatMap_cons, List.count_append, hn, hm]
          omega

/-- Attempts at all targets of a broadcast are a broadcast that goes on. -/
theorem goesOn_resume (b : Broadcast) (h : Hub) (now : Nat) :
    b.GoesOn (b.resume h now).1 h (b.resume h now).2 := by
  have hstill := b.still_resume h now
  obtain ⟨htargets, hcounted, hsends⟩ := each_resume_spec now b.sends h
  exact ⟨htargets, fun parcel hcarries => (hsends parcel hcarries).1,
    fun parcel hcarries => (hsends parcel hcarries).2, hcounted, hstill.registered, hstill.closing⟩

theorem alike_abandon (b : Broadcast) (h : Hub) : Hub.Alike h (b.abandon h) := by
  unfold abandon
  induction b.sends generalizing h with
  | nil => exact Hub.Alike.refl h
  | cons s rest ih => exact (s.alike_abandon h).trans (ih _)

/-- Evictions one after another. -/
theorem evictEach_spec (failures : List Nat) {h : Hub} (hdistinct : h.registered.Nodup) :
    let h' := failures.foldl (fun h i => (h.remove i).close i) h
    h'.entered = h.entered ∧ h'.broadcasts = h.broadcasts ∧
      (∀ i, i ∈ h'.registered ↔ i ∈ h.registered ∧ i ∉ failures) ∧
      ∀ i, h'.isClosing i = true ↔ h.isClosing i = true ∨ i ∈ failures ∧ i < h.peers.length := by
  induction failures generalizing h with
  | nil => simp
  | cons j rest ih =>
      obtain ⟨hentered, hcounted, hregistered, hclosing⟩ :=
        @ih ((h.remove j).close j) (h.nodup_registered_remove j hdistinct)
      refine ⟨hentered.trans ((h.remove j).entered_close j), hcounted,
        fun i => ?_, fun i => ?_⟩
      · have hmember : i ∈ ((h.remove j).close j).registered ↔ i ≠ j ∧ i ∈ h.registered :=
          h.mem_registered_remove j i hdistinct
        rw [List.foldl_cons, hregistered, hmember, List.mem_cons]
        grind
      · have hfirst : ((h.remove j).close j).isClosing i = true ↔
            h.isClosing i = true ∨ i = j ∧ i < h.peers.length := (h.remove j).isClosing_close j i
        have hlength : ((h.remove j).close j).peers.length = h.peers.length := by
          simp [Hub.close, Hub.modify, Hub.remove]
        rw [List.foldl_cons, hclosing, hfirst, hlength, List.mem_cons]
        grind

/-- Once a broadcast is over, those that it has failed to reach are out of the registry and
closing. -/
theorem settles_evict {b : Broadcast} (hover : b.isOver = true) {h : Hub}
    (hdistinct : h.registered.Nodup) : b.Settles h (b.evict h) := by
  obtain ⟨hentered, hcounted, hregistered, hclosing⟩ := evictEach_spec b.failures hdistinct
  exact ⟨hover, hentered, hcounted, hregistered, hclosing⟩

variable {b b' : Broadcast} {parcel : Parcel} {h₀ h h' h₁ : Hub}

theorem Begins.of_alike (hbegins : b.Begins parcel h h') (hbefore : Hub.Alike h₀ h) :
    b.Begins parcel h₀ h' where
  targets := hbegins.targets.trans hbefore.registered
  carries := hbegins.carries
  entered i := by rw [hbegins.entered, hbefore.entered]
  broadcasts := by rw [hbegins.broadcasts, hbefore.broadcasts]
  registered := hbegins.registered.trans hbefore.registered
  closing := hbegins.closing.trans hbefore.closing

section Filter

variable (q : Parcel → Bool) (i : Nat)

/-- Through a filter that lets its parcel pass, a broadcast that begins adds one where it
reaches. -/
theorem Begins.filter_self (hbegins : b.Begins parcel h h') (hq : q parcel = true) :
    (h'.entered i).filter q =
      (h.entered i).filter q ++ List.replicate (b.reached.count i) parcel := by
  rw [hbegins.entered, List.filter_append, List.filter_replicate, if_pos hq]

/-- Through a filter that stops its parcel, no broadcast has begun. -/
theorem Begins.filter_other (hbegins : b.Begins parcel h h') (hq : q parcel = false) :
    (h'.entered i).filter q = (h.entered i).filter q := by
  rw [hbegins.entered, List.filter_append, List.filter_replicate, if_neg (by simp [hq]),
    List.append_nil]

theorem GoesOn.filter_self (hgoes : b.GoesOn b' h h') (hcarries : b.Carries parcel)
    (hq : q parcel = true) : ∃ n, (h'.entered i).filter q =
      (h.entered i).filter q ++ List.replicate n parcel ∧
        b'.reached.count i = b.reached.count i + n := by
  obtain ⟨n, hentered, hcount⟩ := hgoes.entered parcel hcarries i
  exact ⟨n, by rw [hentered, List.filter_append, List.filter_replicate, if_pos hq], hcount⟩

theorem GoesOn.filter_other (hgoes : b.GoesOn b' h h') (hcarries : b.Carries parcel)
    (hq : q parcel = false) : (h'.entered i).filter q = (h.entered i).filter q := by
  obtain ⟨n, hentered, _⟩ := hgoes.entered parcel hcarries i
  rw [hentered, List.filter_append, List.filter_replicate, if_neg (by simp [hq]), List.append_nil]

end Filter

end Broadcast

/-- Nothing that belongs to a broadcast comes of a quiet step. -/
theorem Hub.Quiet.filter_eq {h h' : Hub} (hquiet : Hub.Quiet h h') {q : Parcel → Bool}
    (hq : ∀ parcel, parcel.origin.broadcast? = none → q parcel = false) (i : Nat) :
    (h'.entered i).filter q = (h.entered i).filter q := by
  obtain ⟨own, hown, hnone⟩ := hquiet.entered i
  have hempty : own.filter q = [] :=
    List.filter_eq_nil_iff.mpr fun parcel hin => by simp [hq parcel (hnone parcel hin)]
  rw [hown, List.filter_append, hempty, List.append_nil]

end Rollcall.Connection
