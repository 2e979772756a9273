import Mathlib.Algebra.GroupWithZero.Nat
import Mathlib.Data.List.Induction
import Rollcall.Proofs.Session.Traffic

/-!
Broadcasts are conserved.

A broadcast that returns began at one event of the history. Of the connections that were registered
then, each got exactly one copy or none, the result counts the two kinds, those without a copy are
out of the registry and closing, and nobody else is touched (`World.Accounted`). The counters are
the sums over all results (`World.broadcasts_conserved`).
-/

namespace Rollcall.Session

open Connection

namespace World

/-- The copies of broadcast `n` that entered the channel of connection `i`. -/
def copies (w : World) (n i : Nat) : List Parcel :=
  (w.site.hub.entered i).filter (Parcel.isOf n)

def results (w : World) : List Event → List BroadcastResult
  | [] => []
  | e :: rest =>
      ((w.returning e).map Broadcast.result).toList ++
        ((w.after e).map fun next => next.results rest).getD []

/-- At one of the events that lead from `start` to `v` a broadcast begins, in `u`. -/
def BeginsIn (start : World) (events : List Event) (u v : World) : Prop :=
  ∃ earlier e later u', events = earlier ++ e :: later ∧ start.play earlier = some u ∧
    u.after e = some u' ∧ u'.site.hub.broadcasts = u.site.hub.broadcasts + 1 ∧
    u'.play later = some v

/-- A broadcast that began in `u` and returns at the event from `v` to `v'`. -/
structure Accounted (u v v' : World) (b : Broadcast) (parcel : Parcel) : Prop where
  carries : b.Carries parcel
  number : parcel.origin.broadcast? = some u.site.hub.broadcasts
  total : b.result.delivered + b.result.failed = u.site.hub.registered.length
  delivered : b.result.delivered = u.site.hub.registered.countP fun i =>
    v'.copies u.site.hub.broadcasts i == [parcel]
  copies : ∀ i, v'.copies u.site.hub.broadcasts i = [parcel] ∧ i ∈ u.site.hub.registered ∨
    v'.copies u.site.hub.broadcasts i = []
  /-- Whoever got no copy is out of the registry and closing. -/
  evicted : ∀ i ∈ u.site.hub.registered, v'.copies u.site.hub.broadcasts i = [] →
    i ∉ v'.site.hub.registered ∧ v'.site.hub.isClosing i = true
  /-- The others are as they were. -/
  spared : ∀ i, v'.copies u.site.hub.broadcasts i = [parcel] ∨ i ∉ u.site.hub.registered →
    (i ∈ v'.site.hub.registered ↔ i ∈ v.site.hub.registered) ∧
      v'.site.hub.isClosing i = v.site.hub.isClosing i

/-- A broadcast under way that began when `registered` were registered. -/
structure Tracked (v : World) (k : Sender) (b : Broadcast) (n : Nat) (parcel : Parcel)
    (registered : List Nat) : Prop where
  carried : v.Carried k b parcel n
  targets : b.targets = registered
  known : ∀ i ∈ registered, i < v.conns.length
  copies : ∀ i, v.copies n i = List.replicate (b.reached.count i) parcel
  /-- Nobody else sends under its number. -/
  alone : ∀ k' b', k' ≠ k → v.underway k' = some b' →
    ∃ parcel' m, v.Carried k' b' parcel' m ∧ m ≠ n

variable {start u v v' w w' : World} {e : Event} {events : List Event}

/-- No connection is forgotten. -/
theorem length_le_of_advance (hadvance : Advance w e w') : w.conns.length ≤ w'.conns.length := by
  cases hadvance with
  | owner i c r => simp [put]
  | writer i c r => simp [put]
  | cleanup i c r => simp [put]
  | orphan i c r => simp [put]
  | outside e i change => simp [mapConn]
  | connect user input output => simp [connect]
  | spare e w' hspares => exact Nat.le_of_eq (congrArg List.length hspares.conns.symm)

theorem play_append (w : World) (first rest : List Event) :
    w.play (first ++ rest) = (w.play first).bind fun v => v.play rest := by
  induction first generalizing w with
  | nil => rfl
  | cons e first ih =>
      simp only [List.cons_append, play]
      cases w.after e with
      | none => rfl
      | some next => exact ih next

theorem play_snoc (w : World) (events : List Event) (e : Event) :
    w.play (events ++ [e]) = (w.play events).bind fun v => v.after e := by
  rw [play_append]
  congr 1
  funext v
  simp only [play]
  cases v.after e <;> rfl

theorem BeginsIn.snoc (hbegins : start.BeginsIn events u v) (hafter : v.after e = some v') :
    start.BeginsIn (events ++ [e]) u v' := by
  obtain ⟨earlier, first, later, u', rfl, hplay, hfirst, hcounted, hlater⟩ := hbegins
  refine ⟨earlier, first, later ++ [e], u', by simp, hplay, hfirst, hcounted, ?_⟩
  rw [play_snoc, hlater]
  exact hafter

/-- Where a broadcast under way is left alone or goes on, it stays accounted for. -/
theorem Tracked.of_traffic {k : Sender} {b b' : Broadcast} {n : Nat} {parcel : Parcel}
    {registered : List Nat} (htracked : v.Tracked k b n parcel registered)
    (hregular : v.Regular True) (hlength : v.conns.length ≤ v'.conns.length)
    (hbefore : v.underway k = some b) (htraffic : v.Traffic e v')
    (hlater : v'.underway k = some b') :
    v'.Tracked k b' n parcel registered := by
  have halone (k' : Sender) (b₁ : Broadcast) (hk' : k' ≠ k) (hunderway : v'.underway k' = some b₁) :
      ∃ parcel' m, v'.Carried k' b₁ parcel' m ∧ m ≠ n := by
    rcases htraffic.source hunderway with
      hsame | ⟨before, hother, hsite⟩ | ⟨parcel', hsite, hcause, _⟩
    · obtain ⟨parcel', m, hcarried, hm⟩ := htracked.alone k' b₁ hk' hsame
      exact ⟨parcel', m, hcarried.later htraffic hregular.posted, hm⟩
    · obtain ⟨parcel', m, hcarried, hm⟩ := htracked.alone k' before hk' hother
      exact ⟨parcel', m, hcarried.goesOn hsite, hm⟩
    · exact ⟨parcel', _, .begins hregular.sound.distinct hsite hcause,
        Nat.ne_of_gt htracked.carried.given⟩
  have hknown (i : Nat) (hi : i ∈ registered) : i < v'.conns.length :=
    Nat.lt_of_lt_of_le (htracked.known i hi) hlength
  -- an event that lets no copy in and leaves the broadcast as it is
  have hstays (hsame : v'.underway k = v.underway k) (hcopies : ∀ i, v'.copies n i = v.copies n i) :
      v'.Tracked k b' n parcel registered := by
    obtain rfl : b = b' := Option.some.inj (hbefore.symm.trans (hsame.symm.trans hlater))
    exact ⟨htracked.carried.later htraffic hregular.posted, htracked.targets, hknown,
      fun i => (hcopies i).trans (htracked.copies i), halone⟩
  have hown (parcel : Parcel) (hnone : parcel.origin.broadcast? = none) : parcel.isOf n = false :=
    parcel.isOf_own n hnone
  cases htraffic with
  | quiet hsite hunderway => exact hstays (by rw [hunderway]) (hsite.hub.filter_eq hown)
  | begins k₀ b₀ parcel₀ hidle hsite hunderway hreturning hcause =>
      have hk : k ≠ k₀ := fun hk => by simp [hk, hidle] at hbefore
      have hnumber := Parcel.isOf_false hcause.number (Nat.ne_of_gt htracked.carried.given)
      exact hstays (by rw [hunderway, Function.update_of_ne hk])
        fun i => hsite.hub.filter_other _ i hnumber
  | goesOn k₀ b₀ b₁ hbefore₀ hsite hunderway =>
      by_cases hk : k = k₀
      · subst hk
        rw [hunderway, Function.update_self] at hlater
        obtain rfl := Option.some.inj hlater
        obtain rfl : b = b₀ := Option.some.inj (hbefore.symm.trans hbefore₀)
        refine ⟨htracked.carried.goesOn hsite, hsite.hub.targets.trans htracked.targets, hknown,
          fun i => ?_, halone⟩
        have hnumber := (parcel.isOf_iff n).mpr htracked.carried.number
        obtain ⟨m, hcopies, hcount⟩ := hsite.hub.filter_self _ i htracked.carried.carries hnumber
        rw [hcount, ← List.replicate_append_replicate, ← htracked.copies i]
        exact hcopies
      · obtain ⟨parcel₀, m, hcarried, hm⟩ := htracked.alone k₀ b₀ (Ne.symm hk) hbefore₀
        have hnumber := Parcel.isOf_false hcarried.number hm
        exact hstays (by rw [hunderway, Function.update_of_ne hk])
          fun i => hsite.hub.filter_other _ i hcarried.carries hnumber
  | settles k₀ b₀ hbefore₀ hsite hunderway =>
      have hk : k ≠ k₀ := fun hk => by simp [hunderway, hk] at hlater
      exact hstays (by rw [hunderway, Function.update_of_ne hk])
        fun i => by simp only [World.copies, hsite.hub.entered]
  | givesUp i b₀ c runtime hconn hbefore₀ hdrop hruntime hsite hunderway =>
      have hk : k ≠ .owner i := fun hk => by simp [hunderway, hk] at hlater
      exact hstays (by rw [hunderway, Function.update_of_ne hk]) (hsite.hub.filter_eq hown)

/-- A broadcast that begins is accounted for from its first attempts on. -/
theorem Tracked.of_begins {k : Sender} {b : Broadcast} {parcel : Parcel} (hregular : v.Regular True)
    (hlength : v.conns.length ≤ v'.conns.length) (htraffic : v.Traffic e v')
    (hsite : v.site.Only (b.Begins parcel) v'.site)
    (hunderway : v'.underway = Function.update v.underway k (some b))
    (hcause : v.Cause k parcel v') :
    v'.Tracked k b v.site.hub.broadcasts parcel v.site.hub.registered where
  carried := .begins hregular.sound.distinct hsite hcause
  targets := hsite.hub.targets
  known i hi := Nat.lt_of_lt_of_le (hregular.sound.known i hi) hlength
  copies i := by
    have hnone : (v.site.hub.entered i).filter (Parcel.isOf v.site.hub.broadcasts) = [] := by
      refine List.filter_eq_nil_iff.mpr fun other hin hnumber => ?_
      exact Nat.lt_irrefl _
        (hregular.posted.entered i other hin _ ((other.isOf_iff _).mp hnumber))
    have hcopies := hsite.hub.filter_self _ i ((parcel.isOf_iff _).mpr hcause.number)
    rwa [hnone, List.nil_append] at hcopies
  alone k' b' hk' hlater := by
    rw [hunderway, Function.update_of_ne hk'] at hlater
    obtain ⟨parcel', m, hcarried⟩ := hregular.posted.underway k' b' hlater
    exact ⟨parcel', m, hcarried.later htraffic hregular.posted, Nat.ne_of_lt hcarried.given⟩

theorem regular_play {policy : MessagePolicy} {buffer sendTimeout : Nat}
    (hplay : (create (Instance.create policy buffer sendTimeout)).play events = some v) :
    v.Regular True :=
  have run : Run (fun _ => True) _ v := .of_play (fun _ _ => trivial) hplay
  run.regular (fun _ _ => trivial) (regular_create True policy buffer sendTimeout)

/-- Whatever is under way began at an event of the history and is accounted for. -/
theorem tracked_of_play {policy : MessagePolicy} {buffer sendTimeout : Nat}
    (hplay : (create (Instance.create policy buffer sendTimeout)).play events = some v) :
    ∀ k b, v.underway k = some b → ∃ u parcel,
      (create (Instance.create policy buffer sendTimeout)).BeginsIn events u v ∧
        v.Tracked k b u.site.hub.broadcasts parcel u.site.hub.registered := by
  induction events using List.reverseRecOn generalizing v with
  | nil =>
      cases hplay
      intro k b hk
      cases k <;> simp [create, World.underway, Operator.broadcast?] at hk
  | append_singleton events e ih =>
      intro k b hlater
      rw [play_snoc, Option.bind_eq_some_iff] at hplay
      obtain ⟨before, hplay, hafter⟩ := hplay
      have hregular := regular_play hplay
      have htraffic := hregular.traffic hafter
      have hlength := length_le_of_advance (after_advance hafter)
      have hgoes {b₀ : Broadcast} (hbefore : before.underway k = some b₀) :
          ∃ u parcel, (create (Instance.create policy buffer sendTimeout)).BeginsIn
            (events ++ [e]) u v ∧
            v.Tracked k b u.site.hub.broadcasts parcel u.site.hub.registered := by
        obtain ⟨u, parcel, hbegins, htracked⟩ := ih hplay k b₀ hbefore
        exact ⟨u, parcel, hbegins.snoc hafter,
          htracked.of_traffic hregular hlength hbefore htraffic hlater⟩
      rcases htraffic.source hlater with
        hsame | ⟨b₀, hbefore, _⟩ | ⟨parcel, hsite, hcause, hunderway⟩
      · exact hgoes hsame
      · exact hgoes hbefore
      · exact ⟨before, parcel, ⟨events, e, [], v, rfl, hplay, hafter, hsite.hub.broadcasts, rfl⟩,
          .of_begins hregular hlength htraffic hsite hunderway hcause⟩

theorem Tracked.accounted {k : Sender} {b : Broadcast} {parcel : Parcel} (hsound : v.Sound True)
    (htracked : v.Tracked k b u.site.hub.broadcasts parcel u.site.hub.registered)
    (hsite : v.site.Settles b v'.site) : Accounted u v v' b parcel := by
  obtain ⟨hcarried, htargets, hknown, hbefore, _⟩ := htracked
  have hcopies (i : Nat) : v'.copies u.site.hub.broadcasts i =
      if i ∈ b.reached then [parcel] else [] := by
    have hsame : v'.copies u.site.hub.broadcasts i = v.copies u.site.hub.broadcasts i := by
      simp only [World.copies, hsite.hub.entered]
    rw [hsame, hbefore, (Broadcast.nodup_reached hcarried.distinct).count]
    split <;> rfl
  have hreached {i : Nat} : v'.copies u.site.hub.broadcasts i = [parcel] ↔ i ∈ b.reached := by
    rw [hcopies]
    split <;> simp_all
  have hmissed {i : Nat} : v'.copies u.site.hub.broadcasts i = [] ↔ i ∉ b.reached := by
    rw [hcopies]
    split <;> simp_all
  refine ⟨hcarried.carries, hcarried.number, ?_, ?_, fun i => ?_, fun i hi hnone => ?_,
    fun i hspared => ?_⟩
  · rw [b.delivered_add_failed, ← htargets, Broadcast.targets, List.length_map]
  · rw [Broadcast.delivered_eq_countP hcarried.distinct, htargets]
    exact List.countP_congr fun i _ => by simp [hreached]
  · by_cases hi : i ∈ b.reached
    · exact .inl ⟨hreached.mpr hi, htargets ▸ (b.mem_targets i).mpr (.inl hi)⟩
    · exact .inr (hmissed.mpr hi)
  · have hfailed : i ∈ b.failures :=
      ((b.mem_targets i).mp (htargets ▸ hi)).resolve_left (hmissed.mp hnone)
    have hbound : i < v.site.hub.peers.length := hsound.sizes ▸ hknown i hi
    exact ⟨fun hstays => ((hsite.hub.registered i).mp hstays).2 hfailed,
      (hsite.hub.closing i).mpr (.inr ⟨hfailed, hbound⟩)⟩
  · have hnot : i ∉ b.failures := by
      rcases hspared with hcopy | hstranger
      · exact Broadcast.not_mem_failures hcarried.distinct (hreached.mp hcopy)
      · exact fun hfailed => hstranger (htargets ▸ (b.mem_targets i).mpr (.inr hfailed))
    refine ⟨by simp [hsite.hub.registered, hnot], ?_⟩
    rw [Bool.eq_iff_iff, hsite.hub.closing]
    simp [hnot]

/-- What the counters say after broadcasts with these results: they are unsigned 64-bit numbers. -/
def tallyOf (results : List BroadcastResult) : Nat × Nat :=
  (Metrics.wrapUnsigned (results.map BroadcastResult.delivered).sum,
    Metrics.wrapUnsigned (results.map BroadcastResult.failed).sum)

/-- A further result is added to both counters, which wrap. -/
theorem tallyOf_append (results : List BroadcastResult) (r : BroadcastResult) :
    tallyOf (results ++ [r]) = (Metrics.wrapUnsigned ((tallyOf results).1 + r.delivered),
      Metrics.wrapUnsigned ((tallyOf results).2 + r.failed)) := by
  simp only [tallyOf, Metrics.wrapUnsigned, List.map_append, List.sum_append, List.map_cons,
    List.map_nil, List.sum_singleton, Nat.mod_add_mod]

/-- An event counts the broadcast that returns at it, and no other. -/
theorem Traffic.tally (htraffic : w.Traffic e w') {results : List BroadcastResult}
    (htally : w.site.tally = tallyOf results) :
    w'.site.tally = tallyOf (results ++ ((w.returning e).map Broadcast.result).toList) := by
  have hsame (hreturning : w.returning e = none) (hkept : w'.site.tally = w.site.tally) :
      w'.site.tally = tallyOf (results ++ ((w.returning e).map Broadcast.result).toList) := by
    rw [hreturning, hkept, htally]
    simp
  cases htraffic with
  | quiet hsite hunderway hreturning => exact hsame hreturning hsite.tally
  | begins k b parcel hidle hsite hunderway hreturning => exact hsame hreturning hsite.tally
  | goesOn k b b' hbefore hsite hunderway hreturning => exact hsame hreturning hsite.tally
  | settles k b hbefore hsite hunderway hreturning =>
      have hcounted : tallyOf (results ++ ((w.returning e).map Broadcast.result).toList) =
          tallyOf (results ++ [b.result]) := by rw [hreturning]; rfl
      rw [hcounted, hsite.tally]
      split
      case isTrue hempty => simp [htally, tallyOf, Broadcast.result, Broadcast.failures, hempty]
      case isFalse => rw [tallyOf_append, htally]
  | givesUp i b c runtime hconn hbefore hdrop hruntime hsite hunderway hreturning =>
      exact hsame hreturning hsite.tally

/-- By induction on the events: the counters tell the results that were returned. -/
theorem tally_play {results : List BroadcastResult} (hregular : w.Regular True)
    (htally : w.site.tally = tallyOf results) (hplay : w.play events = some v) :
    v.site.tally = tallyOf (results ++ w.results events) := by
  induction events generalizing w results with
  | nil =>
      cases hplay
      simpa [World.results] using htally
  | cons e rest ih =>
      simp only [play, Option.bind_eq_some_iff] at hplay
      obtain ⟨next, hafter, hrest⟩ := hplay
      have hlater := ih (hregular.of_after (fun _ _ => trivial) hafter)
        ((hregular.traffic hafter).tally htally) hrest
      rw [hlater]
      simp [World.results, hafter]

/-- Whatever led to `v`: a broadcast that returns began in some `u` of the history and is accounted
for as `Accounted` says; as long as it is only begun or goes on it changes no registration and
closes nobody; and the counters are the sums over the broadcasts that have returned. -/
theorem broadcasts_conserved {policy : MessagePolicy} {buffer sendTimeout : Nat}
    (hplay : (create (Instance.create policy buffer sendTimeout)).play events = some v) :
    (∀ e v' b, v.after e = some v' → v.returning e = some b → ∃ u parcel,
      (create (Instance.create policy buffer sendTimeout)).BeginsIn events u v ∧
        Accounted u v v' b parcel) ∧
    (∀ e v' k b, v.after e = some v' → v'.underway k = some b → v.underway k ≠ some b →
      v'.site.hub.registered = v.site.hub.registered ∧
        v'.site.hub.isClosing = v.site.hub.isClosing) ∧
    (v.site.metrics.broadcastDelivered, v.site.metrics.broadcastFailed) =
      tallyOf ((create (Instance.create policy buffer sendTimeout)).results events) := by
  have hregular := regular_play hplay
  refine ⟨fun e v' b hafter hreturns => ?_, fun e v' k b hafter hlater hnew => ?_, ?_⟩
  · have hsettled : ∃ k, v.underway k = some b ∧ v.site.Settles b v'.site := by
      cases hregular.traffic hafter with
      | settles k b₀ hbefore hsite hunderway hreturning =>
          obtain rfl : b₀ = b := Option.some.inj (hreturning.symm.trans hreturns)
          exact ⟨k, hbefore, hsite⟩
      | _ => simp_all
    obtain ⟨k, hbefore, hsite⟩ := hsettled
    obtain ⟨u, parcel, hbegins, htracked⟩ := tracked_of_play hplay k b hbefore
    exact ⟨u, parcel, hbegins, htracked.accounted hregular.sound hsite⟩
  · rcases (hregular.traffic hafter).source hlater with hsame | ⟨b₀, _, hsite⟩ | ⟨parcel, hsite, _⟩
    · exact absurd hsame hnew
    · exact ⟨hsite.hub.registered, hsite.hub.closing⟩
    · exact ⟨hsite.hub.registered, hsite.hub.closing⟩
  · have hnothing : (create (Instance.create policy buffer sendTimeout)).site.tally = tallyOf [] :=
      rfl
    exact tally_play (regular_create True policy buffer sendTimeout) hnothing hplay

end World

/-- Two clients, one of whom reads nothing: her place is taken when the second broadcast begins, and
no time is given. -/
def fullEvents : List Event :=
  [.connect "alice" ⟨[], false⟩ (.create .accepting none),
    .connect "bob" ⟨[], false⟩ (.create .accepting none), .turn (.owner 0 .signal),
    .turn (.owner 1 .signal), .order (.broadcast (.text "one")), .operate, .turn (.writer 1),
    .order (.broadcast (.text "two"))]

theorem broadcasts_conserved_full :
    ∃ v v' b u parcel, (World.create (Instance.create .echo 1 0)).play fullEvents = some v ∧
      v.after .operate = some v' ∧ v.returning .operate = some b ∧ b.result = ⟨1, 1⟩ ∧
      v'.site.hub.registered = [1] ∧
      (World.create (Instance.create .echo 1 0)).BeginsIn fullEvents u v ∧
      World.Accounted u v v' b parcel ∧
      (v.site.metrics.broadcastDelivered, v.site.metrics.broadcastFailed) = (2, 0) := by
  have hplayed : ((World.create (Instance.create .echo 1 0)).play fullEvents).any (fun v =>
      (v.after .operate).any fun v' => (v.returning .operate).any fun b =>
        b.result == ⟨1, 1⟩ && v'.site.hub.registered == [1]) := by
    decide
  obtain ⟨v, hplay, hthen⟩ := (Option.any_eq_true _ _).mp hplayed
  obtain ⟨v', hafter, hthen⟩ := (Option.any_eq_true _ _).mp hthen
  obtain ⟨b, hreturns, hthen⟩ := (Option.any_eq_true _ _).mp hthen
  simp only [Bool.and_eq_true, beq_iff_eq] at hthen
  obtain ⟨hresult, hregistered⟩ := hthen
  obtain ⟨haccounted, _, htally⟩ := World.broadcasts_conserved hplay
  obtain ⟨u, parcel, hbegins, haccount⟩ := haccounted .operate v' b hafter hreturns
  refine ⟨v, v', b, u, parcel, hplay, hafter, hreturns, hresult, hregistered, hbegins, haccount, ?_⟩
  rw [htally]
  decide

end Rollcall.Session
