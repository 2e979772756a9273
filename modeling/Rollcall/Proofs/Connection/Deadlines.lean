import Rollcall.Connection.Broadcast

/-!
What sends wait for.

A send that goes on waiting has a deadline to come. So a broadcast that waits, waits for a moment
still to come, and one whose moments have all come is over with its next attempt.
-/

namespace Rollcall.Connection

/-- A send that goes on waiting has not come to its deadline. -/
theorem Send.deadline_of_waiting {send : Send} {h : Hub} {now : Nat}
    (hwaits : (send.resume h now).1.state.isWaiting = true) :
    send.state.isWaiting = true ∧ now < send.deadline := by
  unfold Send.resume at hwaits
  split at hwaits
  case h_1 ticket hstate =>
    refine ⟨by simp [hstate, SendState.isWaiting], ?_⟩
    split at hwaits
    · simp [SendState.isWaiting] at hwaits
    · simp [SendState.isWaiting] at hwaits
    · simp only [Send.expire, hstate] at hwaits
      split at hwaits
      · simp [SendState.isWaiting] at hwaits
      case isFalse hearly => exact Nat.lt_of_not_le hearly
  case h_2 hother =>
    cases hstate : send.state with
    | waiting ticket => exact absurd hstate (hother ticket)
    | delivered => simp [hstate, SendState.isWaiting] at hwaits
    | refused => simp [hstate, SendState.isWaiting] at hwaits
    | timedOut => simp [hstate, SendState.isWaiting] at hwaits

/-- A broadcast that can neither end nor go on waits for a moment still to come. -/
theorem Broadcast.deadline_of_waiting {b : Broadcast} {h : Hub} {now : Nat}
    (hopen : b.isOver = false) (hwaits : b.canProceed h now = false) :
    ∃ moment ∈ b.deadlines, now < moment := by
  simp only [Broadcast.isOver, List.all_eq_false] at hopen
  obtain ⟨send, hsend, hwaiting⟩ := hopen
  have hwaiting : send.state.isWaiting = true := by simpa using hwaiting
  simp only [Broadcast.canProceed, List.any_eq_false] at hwaits
  have hstill : (send.resume h now).1.state.isWaiting = true := by
    simpa [hwaiting] using hwaits send hsend
  refine ⟨send.deadline, ?_, (Send.deadline_of_waiting hstill).2⟩
  exact List.mem_map.mpr ⟨send, List.mem_filter.mpr ⟨hsend, hwaiting⟩, rfl⟩

/-- A broadcast that waited for moments past is over after one more attempt. -/
theorem Broadcast.isOver_resume {b : Broadcast} {now : Nat} (h : Hub)
    (hpast : ∀ moment ∈ b.deadlines, moment ≤ now) : (b.resume h now).1.isOver = true := by
  have heach (sends : List Send)
      (hsends : ∀ send ∈ sends, send.state.isWaiting = true → send.deadline ≤ now) (h : Hub) :
      ∀ send ∈ (each (fun s h => s.resume h now) sends h).1, send.state.isWaiting = false := by
    -- an attempt at one send changes the hub for the next
    induction sends generalizing h with
    | nil => exact nofun
    | cons first rest ih =>
        intro send hsend
        rcases List.mem_cons.mp hsend with rfl | hrest
        · refine Bool.eq_false_iff.mpr fun hwaits => ?_
          obtain ⟨hwaiting, hlater⟩ := Send.deadline_of_waiting hwaits
          exact Nat.not_le_of_lt hlater (hsends first List.mem_cons_self hwaiting)
        · exact ih (fun s hs => hsends s (List.mem_cons_of_mem _ hs)) _ send hrest
  have hsends : ∀ send ∈ b.sends, send.state.isWaiting = true → send.deadline ≤ now := by
    intro send hsend hwaiting
    exact hpast _ (List.mem_map.mpr ⟨send, List.mem_filter.mpr ⟨hsend, hwaiting⟩, rfl⟩)
  refine List.all_eq_true.mpr fun send hsend => ?_
  simpa using heach b.sends hsends h send hsend

end Rollcall.Connection
