import Mathlib.Order.Nat
import Mathlib.Order.Basic
import Rollcall.Connection.CloseSignal

/-!
The close signal in use.

Any number of calls raise a signal while its owner waits for it again and again, and gives up the
wait when something else comes first. Raising is two atomic steps and so is the start of a wait, and
a run is any sequence of such steps (`Signalling.during`), so what holds of every run holds of every
interleaving.

Once the flag is up and a wait is under way, the wake-up is somewhere: the first call has still to
give it, it is kept as the permit, or the wait has it already (`Sound.token`). So the wait ends
unless it is given up (`Signalling.never_lost`), and one that is given up with the wake-up in its
hands leaves it behind.
-/

namespace Rollcall.Connection

/-- Where a call that raises the signal stands. -/
inductive Raising where
  | called
  /-- It was the first to set the flag, and has yet to wake the owner. -/
  | waking
  | returned
deriving DecidableEq, Repr

inductive Listening where
  | idle
  /-- The flag was clear when the wait began, and the wait has yet to take the permit or be
  registered. -/
  | looked
  | registered
deriving DecidableEq, Repr

inductive Ending where
  | completed
  | givenUp
deriving DecidableEq, Repr

/-- A close signal with those who use it. -/
structure Signalling where
  signal : CloseSignal
  /-- The calls that raise it, first one first. -/
  calls : List Raising
  owner : Listening
  /-- How the waits so far have ended, first one first. The wait that is under way has the next
  number. -/
  ended : List Ending
deriving DecidableEq, Repr

namespace Signalling

inductive Move where
  /-- One more call is made. -/
  | call
  /-- The call with this number sets the flag. -/
  | set (k : Nat)
  /-- The call with this number wakes the owner. -/
  | wake (k : Nat)
  /-- The owner starts a wait. -/
  | look
  /-- The owner goes on with its wait. -/
  | goOn
  | giveUp
deriving DecidableEq, Repr

def initial : Signalling := ⟨.initial, [], .idle, []⟩

/-- The owner after an attempt to end its wait. -/
def attempt (u : Signalling) : Bool × CloseSignal → Signalling
  | (true, signal) => { u with signal, owner := .idle, ended := u.ended ++ [.completed] }
  | (false, signal) => { u with signal, owner := .registered }

/-- What a move makes of a signalling; a move that nobody can make changes nothing. -/
def after (u : Signalling) : Move → Signalling
  | .call => { u with calls := u.calls ++ [.called] }
  | .set k =>
      if u.calls[k]? = some .called then
        match u.signal.setFlag with
        | (true, signal) => { u with signal, calls := u.calls.set k .waking }
        | (false, signal) => { u with signal, calls := u.calls.set k .returned }
      else u
  | .wake k =>
      if u.calls[k]? = some .waking then
        { u with signal := u.signal.notify, calls := u.calls.set k .returned }
      else u
  | .look =>
      if u.owner = .idle then
        if u.signal.raised then { u with ended := u.ended ++ [.completed] }
        else { u with owner := .looked }
      else u
  | .goOn =>
      match u.owner with
      | .idle => u
      | .looked => u.attempt u.signal.register
      | .registered => u.attempt u.signal.resume
  | .giveUp =>
      if u.owner = .idle then u
      else { u with signal := u.signal.abandon, owner := .idle, ended := u.ended ++ [.givenUp] }

/-- What has become of the signal after so many of the moves. -/
def during (moves : Nat → Move) : Nat → Signalling
  | 0 => initial
  | n + 1 => (during moves n).after (moves n)

def IsAsked (u : Signalling) : Prop := ∃ call ∈ u.calls, call ≠ .called

def started (u : Signalling) : Nat := u.ended.length + (decide (u.owner ≠ .idle)).toNat

def CanGoOn (u : Signalling) : Prop :=
  u.owner = .looked ∨ u.owner = .registered ∧ u.signal.wait = .woken

/-- Whoever can go on does so in the end: a call that is to wake the owner, and the owner with a
wait that is not registered yet or was woken, unless it gives the wait up. -/
structure Fair (moves : Nat → Move) : Prop where
  call : ∀ n k, (during moves n).calls[k]? = some .waking → ∃ m, n ≤ m ∧ moves m = .wake k
  owner : ∀ n, (during moves n).CanGoOn → ∃ m, n ≤ m ∧ (moves m = .goOn ∨ moves m = .giveUp)

/-- What a move does. -/
inductive Change (u : Signalling) : Move → Signalling → Prop where
  | call : Change u .call { u with calls := u.calls ++ [.called] }
  | first (k : Nat) (hcall : u.calls[k]? = some .called) (hclear : u.signal.raised = false) :
      Change u (.set k)
        { u with signal := { u.signal with raised := true }, calls := u.calls.set k .waking }
  | again (k : Nat) (hcall : u.calls[k]? = some .called) (hraised : u.signal.raised = true) :
      Change u (.set k) { u with calls := u.calls.set k .returned }
  | wake (k : Nat) (hcall : u.calls[k]? = some .waking) (hpending : u.signal.wait = .pending) :
      Change u (.wake k)
        { u with signal := { u.signal with wait := .woken }, calls := u.calls.set k .returned }
  | leave (k : Nat) (hcall : u.calls[k]? = some .waking) (hnobody : u.signal.wait ≠ .pending) :
      Change u (.wake k)
        { u with signal := { u.signal with permit := true }, calls := u.calls.set k .returned }
  | look (howner : u.owner = .idle) (hclear : u.signal.raised = false) :
      Change u .look { u with owner := .looked }
  | pass (howner : u.owner = .idle) (hraised : u.signal.raised = true) :
      Change u .look { u with ended := u.ended ++ [.completed] }
  | register (howner : u.owner = .looked) (hnone : u.signal.permit = false) :
      Change u .goOn
        { u with signal := { u.signal with wait := .pending }, owner := .registered }
  | take (howner : u.owner = .looked) (hpermit : u.signal.permit = true) :
      Change u .goOn
        { u with
          signal := { u.signal with permit := false }
          owner := .idle
          ended := u.ended ++ [.completed] }
  | notice (howner : u.owner = .registered) (hwoken : u.signal.wait = .woken) :
      Change u .goOn
        { u with
          signal := { u.signal with wait := .none }
          owner := .idle
          ended := u.ended ++ [.completed] }
  | hand (howner : u.owner ≠ .idle) (hwoken : u.signal.wait = .woken) :
      Change u .giveUp
        { u with
          signal := { u.signal with wait := .none, permit := true }
          owner := .idle
          ended := u.ended ++ [.givenUp] }
  | drop (howner : u.owner ≠ .idle) (hnot : u.signal.wait ≠ .woken) :
      Change u .giveUp
        { u with
          signal := { u.signal with wait := .none }
          owner := .idle
          ended := u.ended ++ [.givenUp] }
  | stay (move : Move) (howner : u.CanGoOn → move ≠ .goOn ∧ move ≠ .giveUp)
      (hcall : ∀ k, move = .wake k → u.calls[k]? ≠ some .waking) : Change u move u

/-- Every move, possible or not, is a change. -/
theorem change_after (u : Signalling) (move : Move) : Change u move (u.after move) := by
  cases move with
  | call => exact .call
  | set k =>
      simp only [after]
      by_cases hcall : u.calls[k]? = some .called
      · rw [if_pos hcall]
        cases hraised : u.signal.raised with
        | false =>
            have hset : u.signal.setFlag = (true, { u.signal with raised := true }) := by
              simp [CloseSignal.setFlag, hraised]
            rw [hset]
            exact .first k hcall hraised
        | true =>
            have hset : u.signal.setFlag = (false, u.signal) := by
              obtain ⟨⟨raised, permit, wait⟩, calls, owner, ended⟩ := u
              cases hraised
              rfl
            rw [hset]
            exact .again k hcall hraised
      · rw [if_neg hcall]
        exact .stay _ (by simp) (by simp)
  | wake k =>
      simp only [after]
      by_cases hcall : u.calls[k]? = some .waking
      · rw [if_pos hcall]
        unfold CloseSignal.notify
        split
        case isTrue hpending => exact .wake k hcall hpending
        case isFalse hnobody => exact .leave k hcall hnobody
      · rw [if_neg hcall]
        exact .stay _ (by simp) (by rintro _ ⟨⟩; exact hcall)
  | look =>
      simp only [after]
      by_cases howner : u.owner = .idle
      · rw [if_pos howner]
        split
        case isTrue hraised => exact .pass howner hraised
        case isFalse hclear => exact .look howner (by simpa using hclear)
      · rw [if_neg howner]
        exact .stay _ (by simp) (by simp)
  | goOn =>
      simp only [after]
      split
      case h_1 howner => exact .stay _ (by simp [CanGoOn, howner]) (by simp)
      case h_2 howner =>
        unfold CloseSignal.register
        split
        case isTrue hpermit => exact .take howner hpermit
        case isFalse hnone => exact .register howner (by simpa using hnone)
      case h_3 howner =>
        unfold CloseSignal.resume
        split
        case isTrue hwoken => exact .notice howner hwoken
        case isFalse hnot =>
          have hsame : u.attempt (false, u.signal) = u := by
            cases u
            cases howner
            rfl
          rw [hsame]
          exact .stay _ (by simp [CanGoOn, howner, hnot]) (by simp)
  | giveUp =>
      simp only [after]
      by_cases howner : u.owner = .idle
      · rw [if_pos howner]
        exact .stay _ (by simp [CanGoOn, howner]) (by simp)
      · rw [if_neg howner]
        unfold CloseSignal.abandon
        split
        case isTrue hwoken => exact .hand howner hwoken
        case isFalse hnot => exact .drop howner hnot

variable {u u' : Signalling} {move : Move} {k : Nat}

/-- Where nobody comes between its two steps, a call raises the signal. -/
theorem signal_raise (hcall : u.calls[k]? = some .called) :
    ((u.after (.set k)).after (.wake k)).signal = u.signal.raise := by
  have hlt : k < u.calls.length := (List.getElem?_eq_some_iff.mp hcall).1
  unfold CloseSignal.raise
  simp only [after, hcall, if_true]
  cases hraised : u.signal.raised with
  | false => simp [CloseSignal.setFlag, hraised, hlt]
  | true => simp [CloseSignal.setFlag, hraised, hlt]

/-- Where nobody comes between its two steps, a wait begins as a whole. -/
theorem signal_begin (howner : u.owner = .idle) :
    ((u.after .look).after .goOn).signal = u.signal.begin.2 ∧
      (((u.after .look).after .goOn).owner = .idle ↔ u.signal.begin.1 = true) := by
  unfold CloseSignal.begin
  simp only [after, howner, if_true]
  cases hraised : u.signal.raised with
  | true => simp
  | false =>
      simp only [Bool.false_eq_true, if_false, CloseSignal.register]
      split <;> simp [attempt]

/-- An item that is replaced by another one takes none of the other kind with it. -/
theorem mem_set_of_ne {calls : List Raising} {call : Raising} (hmem : call ∈ calls)
    {old : Raising} (hold : calls[k]? = some old) (hne : old ≠ call) (new : Raising) :
    call ∈ calls.set k new := by
  obtain ⟨j, hj⟩ := List.mem_iff_getElem?.mp hmem
  have hother : k ≠ j := by
    rintro rfl
    exact hne (Option.some.inj (hold.symm.trans hj))
  exact List.mem_of_getElem? ((List.getElem?_set_ne hother).trans hj)

theorem mem_set_self {calls : List Raising} {old : Raising} (hold : calls[k]? = some old)
    (new : Raising) : new ∈ calls.set k new :=
  List.mem_set (List.getElem?_eq_some_iff.mp hold).1 new

/-- What holds whatever moves were made. -/
structure Sound (u : Signalling) : Prop where
  asked : u.signal.raised = true ↔ u.IsAsked
  registered : u.owner = .registered ↔ u.signal.wait ≠ .none
  early : u.signal.raised = false →
    u.signal.permit = false ∧ u.signal.wait ≠ .woken ∧ .completed ∉ u.ended
  pending : u.signal.wait = .pending → u.signal.permit = false
  /-- The wake-up is not lost: it is still to come, or it is kept, or the wait has it. -/
  token : u.signal.raised = true → u.owner ≠ .idle →
    .waking ∈ u.calls ∨ u.signal.permit = true ∨ u.signal.wait = .woken

theorem sound_initial : Sound initial := by
  constructor <;> simp [initial, CloseSignal.initial, IsAsked]

/-- What is known of flag, permit and wait survives every move. -/
theorem Sound.change (hsound : Sound u) (hchange : Change u move u') : Sound u' := by
  obtain ⟨hasked, hregistered, hearly, hpending, htoken⟩ := hsound
  cases hchange with
  | call =>
      have hsame : IsAsked { u with calls := u.calls ++ [.called] } ↔ u.IsAsked := by
        simp [IsAsked, or_and_right]
      refine ⟨hasked.trans hsame.symm, hregistered, hearly, hpending, ?_⟩
      intro hraised howner
      exact (htoken hraised howner).imp_left (List.mem_append_left _)
  | first k hcall hclear =>
      have hwaking := mem_set_self hcall .waking
      refine ⟨⟨fun _ => ⟨_, hwaking, by decide⟩, fun _ => rfl⟩, hregistered, ?_, hpending, ?_⟩
      · intro hclear
        cases hclear
      · intro _ _
        exact .inl hwaking
  | again k hcall hraised =>
      have hreturned := mem_set_self hcall .returned
      refine ⟨⟨fun _ => ⟨_, hreturned, by decide⟩, fun _ => hraised⟩, hregistered, hearly,
        hpending, ?_⟩
      intro hraised howner
      exact (htoken hraised howner).imp_left fun hmem => mem_set_of_ne hmem hcall (by decide) _
  | wake k hcall hwaits =>
      have hreturned := mem_set_self hcall .returned
      have hraised := hasked.mpr ⟨_, List.mem_of_getElem? hcall, by decide⟩
      have howner : u.owner = .registered := hregistered.mpr (by simp [hwaits])
      refine ⟨⟨fun _ => ⟨_, hreturned, by decide⟩, fun _ => hraised⟩, ?_, ?_, ?_, ?_⟩
      · simp [howner]
      · intro hclear
        cases hraised.symm.trans hclear
      · intro hwaits
        cases hwaits
      · intro _ _
        exact .inr (.inr rfl)
  | leave k hcall hnobody =>
      have hreturned := mem_set_self hcall .returned
      have hraised := hasked.mpr ⟨_, List.mem_of_getElem? hcall, by decide⟩
      refine ⟨⟨fun _ => ⟨_, hreturned, by decide⟩, fun _ => hraised⟩, hregistered, ?_, ?_, ?_⟩
      · intro hclear
        cases hraised.symm.trans hclear
      · intro hwaits
        exact absurd hwaits hnobody
      · intro _ _
        exact .inr (.inl rfl)
  | register howner hnone =>
      have hnowait : u.signal.wait = .none := by
        by_contra hwait
        cases howner.symm.trans (hregistered.mpr hwait)
      refine ⟨hasked, by simp, ?_, fun _ => hnone, ?_⟩
      · intro hclear
        exact ⟨hnone, by simp, (hearly hclear).2.2⟩
      · intro hraised _
        have htoken := htoken hraised (by simp [howner])
        simpa [hnone, hnowait] using htoken
  -- no other move touches a call, and none takes the wake-up from a wait that goes on
  | look howner hclear => constructor <;> grind [IsAsked]
  | pass howner hraised => constructor <;> grind [IsAsked]
  | take howner hpermit => constructor <;> grind [IsAsked]
  | notice howner hwoken => constructor <;> grind [IsAsked]
  | hand howner hwoken => constructor <;> grind [IsAsked]
  | drop howner hnot => constructor <;> grind [IsAsked]
  | stay => exact ⟨hasked, hregistered, hearly, hpending, htoken⟩

/-- No wait is taken back. -/
theorem Change.started (hchange : Change u move u') : u.started ≤ u'.started := by
  unfold Signalling.started
  cases hchange with
  | look howner => simp [howner]
  | pass => simp
  | take howner => simp [howner]
  | notice howner => simp [howner]
  | hand howner => simp [howner]
  | drop howner => simp [howner]
  | register howner => simp [howner]
  | _ => exact Nat.le_refl _

/-- The flag is never cleared. -/
theorem Change.raised (hchange : Change u move u') (hraised : u.signal.raised = true) :
    u'.signal.raised = true := by
  cases hchange with
  | first => rfl
  | _ => exact hraised

section Runs

variable {moves : Nat → Move} {n m : Nat}

theorem change_during (moves : Nat → Move) (n : Nat) :
    Change (during moves n) (moves n) (during moves (n + 1)) := change_after _ _

theorem sound_during (moves : Nat → Move) (n : Nat) : Sound (during moves n) := by
  induction n with
  | zero => exact sound_initial
  | succ n ih => exact ih.change (change_during moves n)

/-- What no move takes away is there for good. -/
theorem during_mono {P : Signalling → Prop} (hkeeps : ∀ u move u', Change u move u' → P u → P u')
    (hle : n ≤ m) (hn : P (during moves n)) : P (during moves m) := by
  induction m, hle using Nat.le_induction with
  | base => exact hn
  | succ m _ ih => exact hkeeps _ _ _ (change_during moves m) ih

theorem started_during (hle : n ≤ m) : (during moves n).started ≤ (during moves m).started :=
  during_mono (P := fun u => (during moves n).started ≤ u.started)
    (fun _ _ _ hchange hstarted => hstarted.trans hchange.started) hle le_rfl

theorem raised_during (hle : n ≤ m) (hraised : (during moves n).signal.raised = true) :
    (during moves m).signal.raised = true :=
  during_mono (P := fun u => u.signal.raised = true)
    (fun _ _ _ hchange hraised => hchange.raised hraised) hle hraised

/-- What lasts until a move that is made in the end leads to what that move brings. -/
theorem exists_later {P Q : Signalling → Prop} {A : Move → Prop}
    (hstep : ∀ u move u', P u → Change u move u' → Q u' ∨ P u' ∧ ¬ A move)
    (hacts : ∃ m, n ≤ m ∧ A (moves m)) (hn : P (during moves n)) :
    ∃ m, n ≤ m ∧ Q (during moves m) := by
  by_contra hnever
  have hnever : ∀ m, n ≤ m → ¬ Q (during moves m) := fun m hm hQ => hnever ⟨m, hm, hQ⟩
  have hlasts : ∀ m, n ≤ m → P (during moves m) := by
    intro m hm
    induction m, hm using Nat.le_induction with
    | base => exact hn
    | succ m hm ih =>
        rcases hstep _ _ _ ih (change_during moves m) with hQ | ⟨hP, _⟩
        · exact absurd hQ (hnever _ (Nat.le_succ_of_le hm))
        · exact hP
  obtain ⟨m, hm, hact⟩ := hacts
  rcases hstep _ _ _ (hlasts m hm) (change_during moves m) with hQ | ⟨_, hnot⟩
  · exact hnever _ (Nat.le_succ_of_le hm) hQ
  · exact hnot hact

end Runs

/-- The wait with this number is under way, and its owner stands so. -/
structure Underway (k : Nat) (owner : Listening) (u : Signalling) : Prop where
  number : u.ended.length = k
  owner : u.owner = owner

/-- What a move makes of a wait: it ends the wait, or leaves it where it is, or registers it. -/
theorem Underway.change {owner : Listening} (hwait : Underway k owner u) (hbusy : owner ≠ .idle)
    (hchange : Change u move u') :
    k < u'.ended.length ∨
      Underway k owner u' ∧ (u.CanGoOn → move ≠ .goOn ∧ move ≠ .giveUp) ∨
      owner = .looked ∧ Underway k .registered u' := by
  obtain ⟨hnumber, howner⟩ := hwait
  have hnot : u.owner ≠ .idle := howner ▸ hbusy
  cases hchange with
  | call => exact .inr (.inl ⟨⟨hnumber, howner⟩, by simp⟩)
  | first => exact .inr (.inl ⟨⟨hnumber, howner⟩, by simp⟩)
  | again => exact .inr (.inl ⟨⟨hnumber, howner⟩, by simp⟩)
  | wake => exact .inr (.inl ⟨⟨hnumber, howner⟩, by simp⟩)
  | leave => exact .inr (.inl ⟨⟨hnumber, howner⟩, by simp⟩)
  | look hidle => exact absurd hidle hnot
  | pass hidle => exact absurd hidle hnot
  | register hlooked => exact .inr (.inr ⟨howner.symm.trans hlooked, hnumber, rfl⟩)
  | take => exact .inl (by simp [hnumber])
  | notice => exact .inl (by simp [hnumber])
  | hand => exact .inl (by simp [hnumber])
  | drop => exact .inl (by simp [hnumber])
  | stay _ hgoesOn => exact .inr (.inl ⟨⟨hnumber, howner⟩, hgoesOn⟩)

/-- A wait that is registered stays as it is until it ends, but for being woken. -/
theorem Underway.wait_change (hwait : Underway k .registered u) (hchange : Change u move u') :
    k < u'.ended.length ∨ u'.signal.wait = .woken ∨
      u'.signal.wait = u.signal.wait ∧
        (∀ j, u.calls[j]? = some .waking → u.signal.wait = .pending →
          move ≠ .wake j ∧ u'.calls[j]? = some .waking) := by
  obtain ⟨hnumber, howner⟩ := hwait
  cases hchange with
  | call =>
      refine .inr (.inr ⟨rfl, fun j hwaking _ => ⟨by simp, ?_⟩⟩)
      grind
  | first i hcall =>
      refine .inr (.inr ⟨rfl, fun j hwaking _ => ⟨by simp, ?_⟩⟩)
      grind
  | again i hcall =>
      refine .inr (.inr ⟨rfl, fun j hwaking _ => ⟨by simp, ?_⟩⟩)
      grind
  | wake => exact .inr (.inl rfl)
  | leave i hcall hnobody => exact .inr (.inr ⟨rfl, fun _ _ hpending => absurd hpending hnobody⟩)
  | look hidle => cases howner.symm.trans hidle
  | pass hidle => cases howner.symm.trans hidle
  | register hlooked => cases howner.symm.trans hlooked
  | take hlooked => cases howner.symm.trans hlooked
  | notice => exact .inl (by simp [hnumber])
  | hand => exact .inl (by simp [hnumber])
  | drop => exact .inl (by simp [hnumber])
  | stay _ _ hwakes =>
      refine .inr (.inr ⟨rfl, fun j hwaking _ => ⟨?_, hwaking⟩⟩)
      rintro rfl
      exact hwakes j rfl hwaking

section Fair

variable {moves : Nat → Move} {n : Nat} (hfair : Fair moves)

include hfair

/-- A wait that is not registered yet ends or is registered. -/
theorem Fair.registers (hwait : Underway k .looked (during moves n)) :
    ∃ m, n ≤ m ∧ (k < (during moves m).ended.length ∨ Underway k .registered (during moves m)) := by
  refine exists_later (P := Underway k .looked)
    (Q := fun u => k < u.ended.length ∨ Underway k .registered u)
    (A := fun move => move = .goOn ∨ move = .giveUp) ?_ (hfair.owner n (.inl hwait.owner)) hwait
  intro u move u' hwait hchange
  rcases hwait.change (by decide) hchange with hended | ⟨hsame, hnot⟩ | ⟨_, hregistered⟩
  · exact .inl (.inl hended)
  · exact .inr ⟨hsame, not_or.mpr (hnot (.inl hwait.owner))⟩
  · exact .inl (.inr hregistered)

/-- A wait that was woken ends. -/
theorem Fair.notices (hwait : Underway k .registered (during moves n))
    (hwoken : (during moves n).signal.wait = .woken) :
    ∃ m, n ≤ m ∧ k < (during moves m).ended.length := by
  refine exists_later (P := fun u => Underway k .registered u ∧ u.signal.wait = .woken)
    (Q := fun u => k < u.ended.length) (A := fun move => move = .goOn ∨ move = .giveUp) ?_
    (hfair.owner n (.inr ⟨hwait.owner, hwoken⟩)) ⟨hwait, hwoken⟩
  rintro u move u' ⟨hwait, hwoken⟩ hchange
  rcases hwait.change (by decide) hchange with hended | ⟨hsame, hnot⟩ | ⟨hlooked, _⟩
  · exact .inl hended
  · rcases hwait.wait_change hchange with hended | hwoken' | ⟨hkept, _⟩
    · exact .inl hended
    · exact .inr ⟨⟨hsame, hwoken'⟩, not_or.mpr (hnot (.inr ⟨hwait.owner, hwoken⟩))⟩
    · exact .inr ⟨⟨hsame, hkept.trans hwoken⟩, not_or.mpr (hnot (.inr ⟨hwait.owner, hwoken⟩))⟩
  · cases hlooked

/-- A wait that is registered while a call has still to wake the owner ends or is woken. -/
theorem Fair.wakes {j : Nat} (hwait : Underway k .registered (during moves n))
    (hpending : (during moves n).signal.wait = .pending)
    (hwaking : (during moves n).calls[j]? = some .waking) :
    ∃ m, n ≤ m ∧ (k < (during moves m).ended.length ∨
      Underway k .registered (during moves m) ∧ (during moves m).signal.wait = .woken) := by
  refine exists_later
    (P := fun u => Underway k .registered u ∧ u.signal.wait = .pending ∧ u.calls[j]? = some .waking)
    (Q := fun u => k < u.ended.length ∨ Underway k .registered u ∧ u.signal.wait = .woken)
    (A := fun move => move = .wake j) ?_ (hfair.call n j hwaking) ⟨hwait, hpending, hwaking⟩
  rintro u move u' ⟨hwait, hpending, hwaking⟩ hchange
  rcases hwait.change (by decide) hchange with hended | ⟨hsame, _⟩ | ⟨hlooked, _⟩
  · exact .inl (.inl hended)
  · rcases hwait.wait_change hchange with hended | hwoken | ⟨hkept, hothers⟩
    · exact .inl (.inl hended)
    · exact .inl (.inr ⟨hsame, hwoken⟩)
    · obtain ⟨hnot, hstill⟩ := hothers j hwaking hpending
      exact .inr ⟨⟨hsame, hkept.trans hpending, hstill⟩, hnot⟩
  · cases hlooked

/-- A wait that is registered after the flag was set ends. -/
theorem Fair.ends_registered (hraised : (during moves n).signal.raised = true)
    (hwait : Underway k .registered (during moves n)) :
    ∃ m, n ≤ m ∧ k < (during moves m).ended.length := by
  have hsound := sound_during moves n
  cases hstate : (during moves n).signal.wait with
  | none => exact absurd hstate (hsound.registered.mp hwait.owner)
  | woken => exact hfair.notices hwait hstate
  | pending =>
      have htoken := hsound.token hraised (by simp [hwait.owner])
      rw [hsound.pending hstate, hstate] at htoken
      obtain ⟨j, hwaking⟩ : ∃ j, (during moves n).calls[j]? = some Raising.waking :=
        List.mem_iff_getElem?.mp (by simpa using htoken)
      obtain ⟨m, hm, hended | ⟨hwait', hwoken⟩⟩ := hfair.wakes hwait hstate hwaking
      · exact ⟨m, hm, hended⟩
      · obtain ⟨l, hl, hended⟩ := hfair.notices hwait' hwoken
        exact ⟨l, hm.trans hl, hended⟩

/-- A wait that is under way after the flag was set ends. -/
theorem Fair.ends (hraised : (during moves n).signal.raised = true)
    (hnumber : (during moves n).ended.length = k) (hbusy : (during moves n).owner ≠ .idle) :
    ∃ m, n ≤ m ∧ k < (during moves m).ended.length := by
  cases howner : (during moves n).owner with
  | idle => exact absurd howner hbusy
  | registered => exact hfair.ends_registered hraised ⟨hnumber, howner⟩
  | looked =>
      obtain ⟨m, hm, hended | hwait⟩ := hfair.registers ⟨hnumber, howner⟩
      · exact ⟨m, hm, hended⟩
      · obtain ⟨l, hl, hended⟩ := hfair.ends_registered (raised_during hm hraised) hwait
        exact ⟨l, hm.trans hl, hended⟩

end Fair

/-- The close signal is never lost. Whatever the order of the moves, no wait is over before the
first call has set the flag; and if everybody goes on in the end, each wait that is under way at
that moment or is started later is over some time, unless the owner gives it up. -/
theorem never_lost (moves : Nat → Move) :
    (∀ n, .completed ∈ (during moves n).ended → (during moves n).IsAsked) ∧
      (Fair moves → ∀ n k, (during moves n).IsAsked → (during moves n).ended.length ≤ k →
        (∃ m, k < (during moves m).started) →
        (∀ m, (during moves m).ended[k]? ≠ some .givenUp) →
        ∃ m, (during moves m).ended[k]? = some .completed) := by
  constructor
  · intro n hover
    have hsound := sound_during moves n
    rw [← hsound.asked]
    by_contra hclear
    exact (hsound.early (by simpa using hclear)).2.2 hover
  · intro hfair n k hasked hearly ⟨m, hstarted⟩ hkept
    have hraised := (sound_during moves n).asked.mpr hasked
    have hover {l : Nat} (hended : k < (during moves l).ended.length) :
        (during moves l).ended[k]? = some .completed := by
      have hget := List.getElem?_eq_getElem hended
      cases hending : (during moves l).ended[k] with
      | completed => rw [hget, hending]
      | givenUp => exact absurd (hget.trans (congrArg some hending)) (hkept l)
    -- at this moment the wait has been started and the flag is up
    have hraised := raised_during (le_max_left n m) hraised
    have hstarted := hstarted.trans_le (started_during (le_max_right n m))
    generalize max n m = l at hraised hstarted
    obtain hended | hnumber := Nat.lt_or_ge k (during moves l).ended.length
    · exact ⟨l, hover hended⟩
    · unfold Signalling.started at hstarted
      have hbusy : (during moves l).owner ≠ .idle := by
        intro hidle
        simp only [hidle, ne_eq, not_true_eq_false, decide_false, Bool.toNat_false] at hstarted
        omega
      have hnumber : (during moves l).ended.length = k := by
        have hone := Bool.toNat_le (decide ((during moves l).owner ≠ .idle))
        omega
      obtain ⟨l, _, hended⟩ := hfair.ends hraised hnumber hbusy
      exact ⟨l, hover hended⟩

/-- A call that comes between the two steps with which a wait begins, and leaves the permit. -/
def between : Nat → Move
  | 0 => .call
  | 1 => .look
  | 2 => .set 0
  | 3 => .wake 0
  | _ => .goOn

theorem during_between (n : Nat) : during between n = during between (min n 5) := by
  induction n with
  | zero => rfl
  | succ n ih =>
      obtain hearly | hlater := Nat.lt_or_ge n 5
      · rw [Nat.min_eq_left hearly]
      · have hlast : between n = .goOn := by
          obtain ⟨i, rfl⟩ := Nat.exists_eq_add_of_le' hlater
          rfl
        have hstays : (during between 5).after .goOn = during between 5 := by decide
        rw [Nat.min_eq_right hlater] at ih
        rw [Nat.min_eq_right (Nat.le_succ_of_le hlater), during, ih, hlast, hstays]

/-- In these moves everyone who can go on does. -/
theorem fair_between : Fair between where
  call := by
    intro n k hwaking
    have hnever : ∀ j < 6, j ≠ 3 → .waking ∉ (during between j).calls := by decide
    have hcalls : (during between 3).calls = [.waking] := by decide
    rw [during_between] at hwaking
    by_cases hthree : min n 5 = 3
    · rw [hthree, hcalls, List.getElem?_singleton] at hwaking
      obtain rfl : k = 0 := by
        by_contra hk
        simp [hk] at hwaking
      exact ⟨3, by omega, rfl⟩
    · exact absurd (List.mem_of_getElem? hwaking) (hnever _ (by omega) hthree)
  owner := fun n _ => ⟨n + 4, Nat.le_add_right n 4, .inl rfl⟩

/-- The permit that was left between the two steps of its beginning ends the wait. -/
theorem never_lost_between :
    Fair between ∧ (during between 3).IsAsked ∧ (during between 3).ended.length ≤ 0 ∧
      0 < (during between 3).started ∧ (∀ m, (during between m).ended[0]? ≠ some .givenUp) ∧
      (∃ m, (during between m).ended[0]? = some .completed) ∧
      (during between 5).ended = [.completed] := by
  have hasked : (during between 3).IsAsked := ⟨.waking, by decide, by decide⟩
  have hkept (m : Nat) : (during between m).ended[0]? ≠ some .givenUp := by
    have hall : ∀ j < 6, (during between j).ended[0]? ≠ some .givenUp := by decide
    rw [during_between]
    exact hall _ (by omega)
  obtain ⟨-, hends⟩ := never_lost between
  exact ⟨fair_between, hasked, by decide, by decide, hkept,
    hends fair_between 3 0 hasked (by decide) ⟨3, by decide⟩ hkept, by decide⟩

end Signalling
end Rollcall.Connection
