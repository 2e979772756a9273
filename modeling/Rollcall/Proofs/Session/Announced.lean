import Rollcall.Proofs.Session.Owing
import Rollcall.Proofs.Session.Stuck

/-!
What the connections were told of the count.

While no announcement is owed, the announcement begun last, among those in the channel of a
registered connection or on the way there, tells the current count (`World.Told`). It need not be
the one that entered the channel last: a send that is let in after a wait puts its parcel there at
its own next turn, and one that has just started may come in before it (`announcement_overtaken`).
-/

namespace Rollcall.Connection

/-- The announcement that a parcel is, with the number of its broadcast. -/
def Parcel.announced? (parcel : Parcel) : Option (Nat × Outbound) :=
  match parcel.origin with
  | .announcement n => some (n, parcel.message)
  | _ => none

/-- Whether a broadcast brings a parcel to a peer, or tries to. -/
def Broadcast.Brings (b : Broadcast) (i : Nat) (parcel : Parcel) : Prop :=
  i ∈ b.targets ∧ b.Carries parcel

theorem Broadcast.brings_iff {b : Broadcast} {i : Nat} {parcel other : Parcel}
    (hcarries : b.Carries parcel) : b.Brings i other ↔ other = parcel ∧ i ∈ b.targets := by
  constructor
  · rintro ⟨hi, hother⟩
    obtain ⟨s, hs, _⟩ := List.mem_map.mp hi
    exact ⟨(hother s hs).symm.trans (hcarries s hs), hi⟩
  · rintro ⟨rfl, hi⟩
    exact ⟨hi, hcarries⟩

theorem Broadcast.mem_targets_of_count {b : Broadcast} {i : Nat} (hcount : b.reached.count i ≠ 0) :
    i ∈ b.targets :=
  (b.mem_targets i).mpr (.inl (List.count_pos_iff.mp (Nat.pos_of_ne_zero hcount)))

end Rollcall.Connection

namespace Rollcall.Session

open Connection

def Owner.call? : Owner → Option StoreCall
  | .joining call => some call
  | .announcing (.counting call) => some call
  | _ => none

def Cleanup.call? : Cleanup → Option StoreCall
  | .leaving call => some call
  | .announcing (.counting call) => some call
  | _ => none

def Operator.call? : Operator → Option StoreCall
  | .announcing (.counting call) => some call
  | _ => none

namespace World

/-- What is in the channel of a connection, or has been there, of announcements, in the order in
which it entered. -/
def announced (w : World) (i : Nat) : List (Nat × Outbound) :=
  (w.site.hub.entered i).filterMap Parcel.announced?

/-- A parcel that has entered the channel of a connection or is on the way there. -/
def Destined (w : World) (i : Nat) (parcel : Parcel) : Prop :=
  parcel ∈ w.site.hub.entered i ∨ ∃ k b, w.underway k = some b ∧ b.Brings i parcel

/-- Of the announcements destined for a connection the one begun last tells the current count. -/
def Informed (w : World) (i : Nat) : Prop :=
  ∃ n, w.Destined i ⟨.announcement n, .announcement w.site.presence.store.count⟩ ∧
    ∀ m message, w.Destined i ⟨.announcement m, message⟩ →
      m < n ∨ m = n ∧ message = .announcement w.site.presence.store.count

variable {w w' : World} {e : Event}

section Destined

variable {i : Nat} {k : Sender} {b : Broadcast} {parcel other : Parcel}

/-- What is destined for a connection bears a number that was given out. -/
theorem Posted.destined (hposted : w.Posted) (hdestined : w.Destined i parcel) {n : Nat}
    (hnumber : parcel.origin.broadcast? = some n) : n < w.site.hub.broadcasts := by
  rcases hdestined with hentered | ⟨k, b, hunderway, hbrings⟩
  · exact hposted.entered i parcel hentered n hnumber
  · obtain ⟨carried, m, hcarried⟩ := hposted.underway k b hunderway
    obtain ⟨rfl, _⟩ := (Broadcast.brings_iff hcarried.carries).mp hbrings
    obtain rfl : m = n := Option.some.inj (hcarried.number.symm.trans hnumber)
    exact hcarried.given

/-- What is destined for a connection, one sender set apart. -/
theorem destined_iff {now : Option Broadcast}
    (hunderway : w'.underway = Function.update w.underway k now) : w'.Destined i parcel ↔
      parcel ∈ w'.site.hub.entered i ∨ (∃ b, now = some b ∧ b.Brings i parcel) ∨
        ∃ k' b, k' ≠ k ∧ w.underway k' = some b ∧ b.Brings i parcel := by
  constructor
  · rintro (hentered | ⟨k', b, hk', hbrings⟩)
    · exact .inl hentered
    · rw [hunderway] at hk'
      by_cases hk : k' = k
      · subst hk
        exact .inr (.inl ⟨b, by simpa using hk', hbrings⟩)
      · exact .inr (.inr ⟨k', b, hk, by rwa [Function.update_of_ne hk] at hk', hbrings⟩)
  · rintro (hentered | ⟨b, rfl, hbrings⟩ | ⟨k', b, hk, hk', hbrings⟩)
    · exact .inl hentered
    · exact .inr ⟨k, b, by rw [hunderway, Function.update_self], hbrings⟩
    · exact .inr ⟨k', b, by rwa [hunderway, Function.update_of_ne hk], hbrings⟩

theorem destined_self (w : World) (k : Sender) : w.Destined i parcel ↔
    parcel ∈ w.site.hub.entered i ∨ (∃ b, w.underway k = some b ∧ b.Brings i parcel) ∨
      ∃ k' b, k' ≠ k ∧ w.underway k' = some b ∧ b.Brings i parcel :=
  destined_iff (Function.update_eq_self k w.underway).symm

/-- With a broadcast its parcel is destined for everyone who is registered, and nothing else is. -/
theorem Starts.destined (hstarts : w.Starts k b parcel w') :
    w'.Destined i other ↔ w.Destined i other ∨ other = parcel ∧ i ∈ w.site.hub.registered := by
  have hbegins := hstarts.begins.hub
  have hentered : other ∈ w'.site.hub.entered i ↔
      other ∈ w.site.hub.entered i ∨ b.reached.count i ≠ 0 ∧ other = parcel := by
    rw [hbegins.entered, List.mem_append, List.mem_replicate]
  have hreached : b.reached.count i ≠ 0 → i ∈ b.targets := Broadcast.mem_targets_of_count
  rw [destined_iff hstarts.underway, w.destined_self k, hentered, hstarts.idle, ← hbegins.targets]
  simp only [Option.some.injEq, exists_eq_left', Broadcast.brings_iff hbegins.carries, reduceCtorEq,
    false_and, exists_false, false_or]
  grind

/-- Where nothing is owed after an event, a broadcast has begun or the same numbered parcels are
destined for those still registered. -/
theorem Traffic.destined (htraffic : w.Traffic e w') (hposted : w.Posted)
    (hevent : e.isSmooth = true) (hpaid : ¬ w'.Owes) :
    (∃ k b parcel, w.Starts k b parcel w' ∧ w.Cause k parcel w') ∨
      ∀ i ∈ w'.site.hub.registered, ∀ parcel n, parcel.origin.broadcast? = some n →
        (w'.Destined i parcel ↔ w.Destined i parcel) := by
  cases htraffic with
  | begins k b parcel hidle hsite hunderway hreturning hcause =>
      exact .inl ⟨k, b, parcel, ⟨hidle, hsite, hunderway⟩, hcause⟩
  | quiet hsite hunderway =>
      right
      intro i _ parcel n hnumber
      obtain ⟨own, hown, hnone⟩ := hsite.hub.entered i
      have hnot : parcel ∉ own := fun hin => by simp [hnone parcel hin] at hnumber
      simp only [Destined, hunderway, hown, List.mem_append, hnot, or_false]
  | goesOn k b b' hbefore hsite hunderway =>
      right
      intro i _ parcel n _
      obtain ⟨carried, m, hcarried⟩ := hposted.underway k b hbefore
      obtain ⟨sent, hsent, hcount⟩ := hsite.hub.entered carried hcarried.carries i
      have hentered : parcel ∈ w'.site.hub.entered i ↔
          parcel ∈ w.site.hub.entered i ∨ sent ≠ 0 ∧ parcel = carried := by
        rw [hsent, List.mem_append, List.mem_replicate]
      have hreached : sent ≠ 0 → i ∈ b'.targets := by
        intro hnew
        apply Broadcast.mem_targets_of_count
        omega
      rw [destined_iff hunderway, w.destined_self k, hentered, hbefore]
      simp only [Option.some.injEq, exists_eq_left', Broadcast.brings_iff hcarried.carries,
        Broadcast.brings_iff (hsite.hub.carries carried hcarried.carries), ← hsite.hub.targets]
      grind
  | settles k b hbefore hsite hunderway =>
      right
      intro i hi parcel n _
      obtain ⟨carried, m, hcarried⟩ := hposted.underway k b hbefore
      -- whoever is still registered was reached
      have harrived : i ∈ b.targets → carried ∈ w.site.hub.entered i := by
        intro htarget
        have hspared : i ∉ b.failures := ((hsite.hub.registered i).mp hi).2
        apply hcarried.arrived
        exact ((b.mem_targets i).mp htarget).resolve_right hspared
      rw [destined_iff hunderway, w.destined_self k, hsite.hub.entered, hbefore]
      simp only [Option.some.injEq, exists_eq_left', Broadcast.brings_iff hcarried.carries,
        reduceCtorEq, false_and, exists_false, false_or]
      grind
  | givesUp i b c runtime hconn hbefore hdrop hruntime =>
      cases runtime with
      | true => exact absurd (hdrop ▸ owes_of_givesUp hconn hbefore) hpaid
      | false =>
          rw [hruntime rfl] at hevent
          cases hevent

/-- With an announcement everyone who is registered gets informed. -/
theorem Starts.informed (hstarts : w.Starts k b w.site.announcement w') (hposted : w.Posted)
    (hregistered : i ∈ w.site.hub.registered) : w'.Informed i := by
  have hcount : w'.site.presence.store.count = w.site.presence.store.count := by
    rw [hstarts.begins.store]
  refine ⟨w.site.hub.broadcasts, ?_, ?_⟩
  · rw [hcount]
    apply hstarts.destined.mpr
    exact .inr ⟨rfl, hregistered⟩
  · intro m message hdestined
    rw [hcount]
    rcases hstarts.destined.mp hdestined with hbefore | ⟨hnew, _⟩
    · exact .inl (hposted.destined hbefore rfl)
    · cases hnew
      exact .inr ⟨rfl, rfl⟩

theorem Informed.of_same (hinformed : w.Informed i)
    (hcount : w'.site.presence.store.count = w.site.presence.store.count)
    (hsame : ∀ n message, w'.Destined i ⟨.announcement n, message⟩ ↔
      w.Destined i ⟨.announcement n, message⟩) : w'.Informed i := by
  simpa only [Informed, hcount, hsame] using hinformed

end Destined

/-- Everyone who is registered is informed, unless an announcement is owed. -/
structure Told (w : World) : Prop where
  regular : w.Regular False
  smooth : w.Smooth
  running : w.site.hub.shuttingDown = false
  informed : w.Owes ∨ ∀ i ∈ w.site.hub.registered, w.Informed i

/-- Everyone stays told at every smooth event but the close of all. -/
theorem Told.of_after (htold : w.Told) (hevent : e.isSmooth = true) (hstays : e.closesAll = false)
    (hafter : w.after e = some w') : w'.Told where
  regular := by
    refine htold.regular.of_after (fun i horphan => ?_) hafter
    rw [horphan] at hevent
    cases hevent
  smooth := htold.smooth.of_after htold.regular.sound hevent hafter
  running := by
    have hsame := (switches_after hafter).2.resolve_right (by simp [hstays])
    exact hsame.trans htold.running
  informed := by
    apply Classical.or_iff_not_imp_left.mpr
    intro hpaid i hi
    have htraffic := htold.regular.traffic hafter
    have hposted := htold.regular.posted
    obtain ⟨hstore, hregistered⟩ := same_of_not_owes htold.smooth htold.running hevent hafter hpaid
    have hbefore := hregistered i hi
    rcases htold.informed with howes | hinformed
    · obtain ⟨k, b, hstarts⟩ := (howes.of_after htold.smooth htold.regular.sound htold.running
        hevent hafter).resolve_left hpaid
      exact hstarts.informed hposted hbefore
    · have hcount := congrArg Presence.Store.count hstore
      rcases htraffic.destined hposted hevent hpaid with ⟨k, b, parcel, hstarts, hcause⟩ | hsame
      · cases hcause with
        | announcement hparcel =>
            subst hparcel
            exact hstarts.informed hposted hbefore
        | relay j message hsender hparcel =>
            apply (hinformed i hbefore).of_same hcount
            intro n message
            simp [hstarts.destined, hparcel]
        | order message hsender hparcel =>
            apply (hinformed i hbefore).of_same hcount
            intro n message
            simp [hstarts.destined, hparcel]
      · apply (hinformed i hbefore).of_same hcount
        intro n message
        exact hsame i hi _ n rfl

end World

def arrival (user : String) : Event := .connect user ⟨[], false⟩ (.create .accepting none)

/-- Whether tasks take turns only where they wait: whoever takes a step goes on until it cannot. -/
def World.unbroken (w : World) : List Event → Bool
  | [] => true
  | e :: rest =>
      (w.after e).any fun w' => w'.unbroken rest &&
        match e, rest with
        | .turn task, .turn next :: _ => next == task || (w'.step task).isNone
        | .turn task, _ => (w'.step task).isNone
        | _, _ => true

end Rollcall.Session
