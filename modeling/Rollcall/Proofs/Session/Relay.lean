import Rollcall.Proofs.Session.Cleanup
import Rollcall.Proofs.Session.Traffic

/-!
Relayed payloads.

Where payloads are relayed, a connection handles one at a time: its next payload is read only after
the broadcast of the last has returned. So what a recipient gets of a sender is a part of what was
read from the sender, in order, and all of it as long as the recipient is registered and the sender
has not been dropped (`Run.relays_in_order`).
-/

namespace Rollcall.Connection

/-- Whether a parcel is a payload relayed for connection `s`. -/
def Parcel.isRelayOf (s : Nat) (parcel : Parcel) : Bool :=
  match parcel.origin with
  | .relay _ i => i == s
  | _ => false

theorem Parcel.isRelayOf_own (s : Nat) (parcel : Parcel) (hown : parcel.origin.broadcast? = none) :
    parcel.isRelayOf s = false := by
  unfold isRelayOf
  split
  case h_1 n i horigin => simp [horigin, Origin.broadcast?] at hown
  case h_2 => rfl

end Rollcall.Connection

namespace Rollcall.Session

open Connection

namespace World

/-- What entered the channel of connection `r` of the payloads of connection `s`. -/
def relayed (w : World) (s r : Nat) : List Outbound :=
  ((w.site.hub.entered r).filter (Parcel.isRelayOf s)).map Parcel.message

/-- Connection `r` is registered and connection `s` has not been dropped. -/
def Hears (w : World) (s r : Nat) : Prop :=
  r ∈ w.site.hub.registered ∧ ∀ c, w.conns[s]? = some c → c.owner ≠ .aborted

/-- What has been relayed for `s` to `r`, and whether this is `all` of it. The last payload is on
its way while the broadcast of it is under way. -/
inductive Relays (all : Prop) (w : World) (s r : Nat) : Prop where
  | resting
      (hrests : ∀ b, w.underway (.owner s) = some b →
        ∃ parcel, b.Carries parcel ∧ parcel.isRelayOf s = false)
      (hpart : (w.relayed s r).Sublist (w.payloads s))
      (hall : all → w.relayed s r = w.payloads s)
  | relaying (b : Broadcast) (parcel : Parcel) (sent earlier : List Outbound)
      (hunderway : w.underway (.owner s) = some b) (hcarries : b.Carries parcel)
      (hrelay : parcel.isRelayOf s = true) (hread : w.payloads s = earlier ++ [parcel.message])
      (hrelayed : w.relayed s r = sent ++ List.replicate (b.reached.count r) parcel.message)
      (hpart : sent.Sublist earlier) (hall : all → sent = earlier ∧ r ∈ b.targets)

variable {w w' : World} {e : Event} {s r : Nat} {all all' : Prop}

theorem Relays.of_same (hrelays : w.Relays all s r) (hkept : all' → all)
    (hunderway : w'.underway (.owner s) = w.underway (.owner s))
    (hread : w'.payloads s = w.payloads s) (hrelayed : w'.relayed s r = w.relayed s r) :
    w'.Relays all' s r := by
  cases hrelays with
  | resting hrests hpart hall =>
      refine .resting (hunderway ▸ hrests) ?_ fun hall' => ?_
      · rwa [hrelayed, hread]
      · rw [hrelayed, hread, hall (hkept hall')]
  | relaying b parcel sent earlier hbefore hcarries hrelay hpayloads hsent hpart hall =>
      exact .relaying b parcel sent earlier (hunderway.trans hbefore) hcarries hrelay
        (hread.trans hpayloads) (hrelayed.trans hsent) hpart (hall ∘ hkept)

/-- What a receiver was relayed is part of what the sender has read, in its order. -/
theorem Relays.part (hrelays : w.Relays all s r) (hposted : w.Posted) :
    (w.relayed s r).Sublist (w.payloads s) := by
  cases hrelays with
  | resting hrests hpart => exact hpart
  | relaying b parcel sent earlier hunderway hcarries hrelay hread hrelayed hpart =>
      obtain ⟨_, _, hcarried⟩ := hposted.underway _ b hunderway
      rw [hrelayed, hread, (Broadcast.nodup_reached hcarried.distinct).count]
      refine hpart.append ?_
      split
      · exact List.Sublist.refl _
      · exact List.nil_sublist _

/-- The end of a broadcast of `s`, in which its last payload has reached `r` or not. -/
theorem Relays.of_end (hrelays : w.Relays all s r) (hposted : w.Posted)
    (hunderway : w'.underway (.owner s) = none) (hread : w'.payloads s = w.payloads s)
    (hrelayed : w'.relayed s r = w.relayed s r)
    (hreached : all' → all ∧ ∀ b, w.underway (.owner s) = some b → r ∈ b.targets → r ∈ b.reached) :
    w'.Relays all' s r := by
  refine .resting (by simp [hunderway]) ?_ fun hall' => ?_
  · rw [hrelayed, hread]
    exact hrelays.part hposted
  · rw [hrelayed, hread]
    obtain ⟨hbefore, hreaches⟩ := hreached hall'
    cases hrelays with
    | resting hrests hpart hall => exact hall hbefore
    | relaying b parcel sent earlier hunderway hcarries hrelay hpayloads hsent hpart hall =>
        obtain ⟨_, _, hcarried⟩ := hposted.underway _ b hunderway
        obtain ⟨hsame, htarget⟩ := hall hbefore
        rw [hsent, hpayloads, (Broadcast.nodup_reached hcarried.distinct).count, hsame,
          if_pos (hreaches b hunderway htarget)]
        rfl

theorem relayed_congr (hsame : (w'.site.hub.entered r).filter (Parcel.isRelayOf s) =
    (w.site.hub.entered r).filter (Parcel.isRelayOf s)) : w'.relayed s r = w.relayed s r :=
  congrArg (List.map Parcel.message) hsame

theorem relayed_quiet (hsite : w.site.Quiet w'.site) : w'.relayed s r = w.relayed s r :=
  relayed_congr (hsite.hub.filter_eq (Parcel.isRelayOf_own s) r)

/-- A parcel of another sender is no relay of `s`. -/
theorem not_isRelayOf {k : Sender} {parcel : Parcel} (hk : k ≠ .owner s)
    (hrelayed : ∀ m i, parcel.origin = .relay m i → k = .owner i) : parcel.isRelayOf s = false := by
  unfold Parcel.isRelayOf
  split
  case h_1 m i horigin =>
    have hsender := hrelayed m i horigin
    apply beq_eq_false_iff_ne.mpr
    intro hi
    apply hk
    rw [hsender, hi]
  case h_2 => rfl

/-- A broadcast that `s` begins announces something or relays its next payload. -/
theorem Relays.of_begins {b : Broadcast} {parcel : Parcel} (hrelays : w.Relays all s r)
    (hidle : w.underway (.owner s) = none) (hsite : w.site.Only (b.Begins parcel) w'.site)
    (hnow : w'.underway (.owner s) = some b) (hcause : w.Cause (.owner s) parcel w')
    (hkept : all' → all ∧ r ∈ w.site.hub.registered) : w'.Relays all' s r := by
  cases hrelays with
  | relaying b₀ _ _ _ hbefore => simp [hidle] at hbefore
  | resting hrests hpart hall =>
      cases hcause with
      | announcement hparcel hread =>
          have hnot : parcel.isRelayOf s = false := by rw [hparcel]; rfl
          have hsame : w'.relayed s r = w.relayed s r :=
            relayed_congr (hsite.hub.filter_other _ r hnot)
          refine .resting ?_ ?_ ?_
          · intro b₀ hb₀
            obtain rfl : b = b₀ := Option.some.inj (hnow.symm.trans hb₀)
            exact ⟨parcel, hsite.hub.carries, hnot⟩
          · rwa [hsame, hread]
          · intro hall'
            rw [hsame, hread, hall (hkept hall').1]
      | relay i message hsender hparcel hread =>
          cases hsender
          have hrelay : parcel.isRelayOf s = true := by
            rw [hparcel]
            exact beq_self_eq_true s
          have hgrown : w'.relayed s r =
              w.relayed s r ++ List.replicate (b.reached.count r) parcel.message := by
            simp only [relayed, hsite.hub.filter_self _ r hrelay, List.map_append,
              List.map_replicate]
          refine .relaying b parcel _ (w.payloads s) hnow hsite.hub.carries hrelay ?_
            hgrown hpart ?_
          · rw [hread, Function.update_self, hparcel]
          · intro hall'
            obtain ⟨hbefore, hregistered⟩ := hkept hall'
            exact ⟨hall hbefore, hsite.hub.targets ▸ hregistered⟩
      | order message hsender => cases hsender

theorem Relays.of_goesOn {b b' : Broadcast} (hrelays : w.Relays all s r)
    (hbefore : w.underway (.owner s) = some b) (hsite : w.site.Only (b.GoesOn b') w'.site)
    (hnow : w'.underway (.owner s) = some b') (hread : w'.payloads = w.payloads)
    (hweaker : all' → all) : w'.Relays all' s r := by
  cases hrelays with
  | resting hrests hpart hall =>
      obtain ⟨parcel, hcarries, hnot⟩ := hrests b hbefore
      have hsame : w'.relayed s r = w.relayed s r :=
        relayed_congr (hsite.hub.filter_other _ r hcarries hnot)
      refine .resting ?_ ?_ ?_
      · intro b₀ hb₀
        obtain rfl : b' = b₀ := Option.some.inj (hnow.symm.trans hb₀)
        exact ⟨parcel, hsite.hub.carries parcel hcarries, hnot⟩
      · rwa [hsame, hread]
      · intro hall'
        rw [hsame, hread, hall (hweaker hall')]
  | relaying b₀ parcel sent earlier hb₀ hcarries hrelay hpayloads hsent hpart hall =>
      obtain rfl : b = b₀ := Option.some.inj (hbefore.symm.trans hb₀)
      obtain ⟨n, hgrown, hcount⟩ := hsite.hub.filter_self _ r hcarries hrelay
      refine .relaying b' parcel sent earlier hnow (hsite.hub.carries parcel hcarries) hrelay
        (by rw [hread, hpayloads]) ?_ hpart ?_
      · rw [hcount, ← List.replicate_append_replicate, ← List.append_assoc, ← hsent]
        simp only [relayed, hgrown, List.map_append, List.map_replicate]
      · intro hall'
        rw [hsite.hub.targets]
        exact hall (hweaker hall')

/-- Whatever an event does, what is relayed for `s` stays in step with what was read from it. It
stays all of it while `r` is registered and `s` is not dropped. -/
theorem Relays.of_traffic (hrelays : w.Relays all s r) (hposted : w.Posted)
    (hpolicy : w.site.policy = .relay) (htraffic : w.Traffic e w')
    (hkept : all' → all ∧ r ∈ w.site.hub.registered ∧ w'.Hears s r) : w'.Relays all' s r := by
  have hweaker : all' → all := fun hall' => (hkept hall').1
  cases htraffic with
  | quiet hsite hunderway hreturning hread =>
      have hsame : w'.payloads = w.payloads := hread.resolve_right (by simp [hpolicy])
      exact hrelays.of_same hweaker (by rw [hunderway]) (by rw [hsame]) (relayed_quiet hsite)
  | begins k b parcel hidle hsite hunderway hreturning hcause =>
      by_cases hk : k = .owner s
      · subst hk
        have hnow : w'.underway (.owner s) = some b := by rw [hunderway, Function.update_self]
        apply hrelays.of_begins hidle hsite hnow hcause
        intro hall'
        exact ⟨hweaker hall', (hkept hall').2.1⟩
      · have hnot := not_isRelayOf hk fun m i => hcause.relayed
        refine hrelays.of_same hweaker (by rw [hunderway, Function.update_of_ne (Ne.symm hk)]) ?_
          (relayed_congr (hsite.hub.filter_other _ r hnot))
        cases hcause with
        | announcement hparcel hread => rw [hread]
        | relay i message hsender hparcel hread =>
            have hi : s ≠ i := fun hi => hk (hi ▸ hsender)
            rw [hread, Function.update_of_ne hi]
        | order message hsender hparcel hread => rw [hread]
  | goesOn k b b' hbefore hsite hunderway hreturning hread =>
      by_cases hk : k = .owner s
      · subst hk
        have hnow : w'.underway (.owner s) = some b' := by rw [hunderway, Function.update_self]
        exact hrelays.of_goesOn hbefore hsite hnow hread hweaker
      · obtain ⟨parcel, n, hcarried⟩ := hposted.underway k b hbefore
        have hnot := not_isRelayOf hk hcarried.relayed
        exact hrelays.of_same hweaker (by rw [hunderway, Function.update_of_ne (Ne.symm hk)])
          (by rw [hread])
          (relayed_congr (hsite.hub.filter_other _ r hcarried.carries hnot))
  | settles k b hbefore hsite hunderway hreturning hread =>
      have hsame : w'.relayed s r = w.relayed s r := by simp only [relayed, hsite.hub.entered]
      by_cases hk : k = .owner s
      · subst hk
        apply hrelays.of_end hposted (by rw [hunderway, Function.update_self]) (by rw [hread]) hsame
        intro hall'
        refine ⟨hweaker hall', ?_⟩
        intro b₀ hb₀ htarget
        obtain rfl : b = b₀ := Option.some.inj (hbefore.symm.trans hb₀)
        have hregistered := (hkept hall').2.2.1
        exact ((b.mem_targets r).mp htarget).resolve_right
          ((hsite.hub.registered r).mp hregistered).2
      · exact hrelays.of_same hweaker (by rw [hunderway, Function.update_of_ne (Ne.symm hk)])
          (by rw [hread]) hsame
  | givesUp i b c runtime hconn hbefore hdrop hruntime hsite hunderway hreturning hread =>
      by_cases hi : i = s
      · subst hi
        apply hrelays.of_end hposted (by rw [hunderway, Function.update_self]) (by rw [hread])
          (relayed_quiet hsite)
        intro hall'
        -- a sender that gives up has been dropped
        have hbound := (List.getElem?_eq_some_iff.mp hconn).1
        have hconn' : w'.conns[i]? = some (c.drop i w.site runtime).1 := by
          simp [hdrop, put, hbound]
        exact absurd (c.drop_move i w.site runtime).aborted ((hkept hall').2.2.2 _ hconn')
      · exact hrelays.of_same hweaker
          (by rw [hunderway, Function.update_of_ne (by simpa using Ne.symm hi)]) (by rw [hread])
          (relayed_quiet hsite)

end World

/-- Whoever has been dropped stays so. -/
theorem Fate.aborted {i : Nat} {c c' : Conn} {w w' : World} {e : Event} (hfate : Fate i c w w' e c')
    (haborted : c.owner = .aborted) : c'.owner = .aborted := by
  cases hfate with
  | aside howner => exact howner.trans haborted
  | owner hevent hmove => exact absurd haborted hmove.not_aborted
  | cleanup hevent hmove => exact hmove.owner_eq.trans haborted
  | orphan hevent hmove => exact hmove.aborted

/-- Whoever is heard now was heard before, if the recipient had been opened then. -/
theorem World.Hears.before {w w' : World} {e : Event} {s r : Nat} {c : Conn}
    (hhears : w'.Hears s r) (hsound : w.Sound True) (hadvance : Advance w e w')
    (hconn : w.conns[r]? = some c) (hopened : .opened ∈ c.deeds) : w.Hears s r := by
  constructor
  · obtain ⟨_, _, hfate⟩ := hadvance.fate hconn
    exact Decidable.byContradiction fun hgone => hfate.gone hsound hconn hopened hgone hhears.1
  · intro d hd haborted
    obtain ⟨d', hd', hfate⟩ := hadvance.fate hd
    exact hhears.2 d' hd' (hfate.aborted haborted)

section Runs

variable {may : Event → Prop} {buffer sendTimeout : Nat} {v w : World}

theorem Run.relays_part
    (run : Run may (World.create (Instance.create .relay buffer sendTimeout)) v) (s r : Nat) :
    v.Regular True ∧ v.site.policy = .relay ∧ v.Relays False s r := by
  have hstep (e : Event) (u u' : World) (_ : may e) (hafter : u.after e = some u')
      (hbefore : u.Regular True ∧ u.site.policy = .relay ∧ u.Relays False s r) :
      u'.Regular True ∧ u'.site.policy = .relay ∧ u'.Relays False s r := by
    obtain ⟨hregular, hpolicy, hrelays⟩ := hbefore
    have htraffic := hregular.traffic hafter
    exact ⟨hregular.of_after (fun _ _ => trivial) hafter, htraffic.policy.trans hpolicy,
      hrelays.of_traffic hregular.posted hpolicy htraffic False.elim⟩
  refine run.invariant hstep ⟨World.regular_create True _ _ _, rfl, .resting ?_ ?_ False.elim⟩
  · simp [World.create, World.underway]
  · exact List.nil_sublist _

/-- Under the relay policy, in whatever order frames, evictions, closes and drops come: what entered
the channel of `r` of the frames of `s` is a part of the payloads read from `s`, in their order and
each at most once; and if `r` was registered before the first of them was read and still is, it is
all of them once `s` has nothing under way, unless `s` has been dropped. -/
theorem Run.relays_in_order
    (run : Run may (World.create (Instance.create .relay buffer sendTimeout)) v) (s r : Nat) :
    (v.relayed s r).Sublist (v.payloads s) ∧
      ∀ w, Run may v w → v.payloads s = [] → r ∈ v.site.hub.registered →
        r ∈ w.site.hub.registered → (∀ c, w.conns[s]? = some c → c.owner ≠ .aborted) →
          w.underway (.owner s) = none → w.relayed s r = w.payloads s := by
  obtain ⟨hregular, hpolicy, hrelays⟩ := run.relays_part s r
  constructor
  · exact hrelays.part hregular.posted
  · intro w later hnothing hregistered hstays hkept hidle
    have hall : v.Relays (v.Hears s r) s r := by
      cases hrelays with
      | resting hrests hpart =>
          exact .resting hrests hpart fun _ => by
            rw [hnothing] at hpart ⊢
            exact List.sublist_nil.mp hpart
      | relaying b parcel sent earlier hunderway hcarries hrelay hread => simp [hnothing] at hread
    have hopened := hregular.sound.opened_of_registered hregistered
    have hstep (e : Event) (u u' : World) (_ : may e) (hafter : u.after e = some u')
        (hbefore : u.Regular True ∧ u.site.policy = .relay ∧ u.Relays (u.Hears s r) s r ∧
          ∃ c, u.conns[r]? = some c ∧ .opened ∈ c.deeds) :
        u'.Regular True ∧ u'.site.policy = .relay ∧ u'.Relays (u'.Hears s r) s r ∧
          ∃ c, u'.conns[r]? = some c ∧ .opened ∈ c.deeds := by
      obtain ⟨hregular, hpolicy, hrelays, c, hconn, hopened⟩ := hbefore
      have htraffic := hregular.traffic hafter
      have hadvance := World.after_advance hafter
      refine ⟨hregular.of_after (fun _ _ => trivial) hafter, htraffic.policy.trans hpolicy,
        hrelays.of_traffic hregular.posted hpolicy htraffic fun hhears => ?_,
        World.mem_deeds_of_after hafter hconn hopened⟩
      have hheard := hhears.before hregular.sound hadvance hconn hopened
      exact ⟨hheard, hheard.1, hhears⟩
    obtain ⟨_, _, hrelays, _⟩ := later.invariant hstep ⟨hregular, hpolicy, hall, hopened⟩
    cases hrelays with
    | resting hrests hpart hall => exact hall ⟨hstays, hkept⟩
    | relaying b parcel sent earlier hunderway => simp [hidle] at hunderway

end Runs

def pairEvents : List Event :=
  [.connect "alice" ⟨[], false⟩ (.create .accepting none),
    .connect "bob" ⟨[], false⟩ (.create .accepting none)] ++
    List.replicate 4 (.turn (.owner 0 .signal)) ++ List.replicate 4 (.turn (.owner 1 .signal))

/-- One of them sends two texts and a ping between them. After the first it is asked to close, and
its owner takes what has arrived all the same. -/
def chatEvents : List Event :=
  .arrive 0 [.frame (.text "one"), .frame (.ping []), .frame (.text "two")] ::
    List.replicate 2 (.turn (.owner 0 .signal)) ++
    .close 0 :: List.replicate 3 (.turn (.owner 0 .arrival))

theorem relays_in_order_chat :
    ∃ v w, (World.create (Instance.create .relay 8 2000)).play pairEvents = some v ∧
      v.play chatEvents = some w ∧ w.site.hub.isClosing 0 = true ∧
      w.payloads 0 = [.text "one", .text "two"] ∧
      (w.relayed 0 1).Sublist (w.payloads 0) ∧ w.relayed 0 1 = w.payloads 0 := by
  have hplayed : ((World.create (Instance.create .relay 8 2000)).play pairEvents).any (fun v =>
      (v.play chatEvents).any fun w => v.payloads 0 == [] && v.site.hub.registered.contains 1 &&
        w.site.hub.registered.contains 1 && (w.underway (.owner 0)).isNone &&
        (w.conns[0]?.all fun c => c.owner.stage == .opened) &&
        w.site.hub.isClosing 0 && w.payloads 0 == [.text "one", .text "two"]) := by
    decide
  obtain ⟨v, hplay, hthen⟩ := (Option.any_eq_true _ _).mp hplayed
  obtain ⟨w, hplay', hthen⟩ := (Option.any_eq_true _ _).mp hthen
  simp only [Bool.and_eq_true, beq_iff_eq, List.contains_iff_mem, Option.isNone_iff_eq_none]
    at hthen
  obtain ⟨⟨⟨⟨⟨⟨hnothing, hregistered⟩, hstays⟩, hidle⟩, hopen⟩, hclosing⟩, hpayloads⟩ := hthen
  have run : Run (fun _ => True) (World.create (Instance.create .relay 8 2000)) v :=
    .of_play (fun _ _ => trivial) hplay
  have later : Run (fun _ => True) v w := .of_play (fun _ _ => trivial) hplay'
  have hkept : ∀ c, w.conns[0]? = some c → c.owner ≠ .aborted := by
    intro c hconn haborted
    simp [hconn, haborted, Owner.stage] at hopen
  obtain ⟨_, hall⟩ := run.relays_in_order 0 1
  obtain ⟨hpart, _⟩ := (run.trans later).relays_in_order 0 1
  exact ⟨v, w, hplay, hplay', hclosing, hpayloads, hpart,
    hall w later hnothing hregistered hstays hkept hidle⟩

end Rollcall.Session
