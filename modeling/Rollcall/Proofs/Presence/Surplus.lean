import Mathlib.Algebra.BigOperators.Group.Finset.Piecewise
import Mathlib.Algebra.Order.BigOperators.Group.Finset
import Mathlib.Data.Int.Basic
import Mathlib.Order.Bounds.Basic
import Rollcall.Proofs.Presence.Tally

/-!
The store after any history of joins and leaves.

A leave that finds nobody is absorbed, so the score of a member is not its joins less its leaves: it
is the largest surplus of joins over leaves that the end of the history has, however far back the
end is taken to reach (`Store.reflects_changes`). A change adds its gain and is then held at zero
from below (`Store.score_apply`), and the law follows by induction on the history. With it, callers
that leave as often as they joined leave nobody behind, however their calls interleave and whose
join a leave undid.
-/

namespace Rollcall.Presence

/-- One connection of a member more, or one less. -/
inductive Change where
  | join (member : String)
  | leave (member : String)
deriving DecidableEq, Repr

namespace Change

def member : Change → String
  | .join member => member
  | .leave member => member

def joins : Change → Bool
  | .join _ => true
  | .leave _ => false

/-- What a change adds to the joins of a member less its leaves. -/
def gain (member : String) : Change → Int
  | .join other => if other = member then 1 else 0
  | .leave other => if other = member then -1 else 0

end Change

/-- The joins of a member less its leaves. -/
def surplus (member : String) (changes : List Change) : Int :=
  changes.count (.join member) - changes.count (.leave member)

theorem surplus_nil (member : String) : surplus member [] = 0 := rfl

theorem surplus_append (member : String) (first last : List Change) :
    surplus member (first ++ last) = surplus member first + surplus member last := by
  simp only [surplus, List.count_append]
  omega

theorem surplus_singleton (member : String) (change : Change) :
    surplus member [change] = change.gain member := by
  cases change with
  | join other => by_cases hsame : other = member <;> simp [surplus, Change.gain, hsame]
  | leave other => by_cases hsame : other = member <;> simp [surplus, Change.gain, hsame]

theorem surplus_cons (member : String) (change : Change) (changes : List Change) :
    surplus member (change :: changes) = change.gain member + surplus member changes := by
  rw [← surplus_singleton, ← surplus_append, List.singleton_append]

/-- Each join of a member is followed by a leave of its own. Leaves beyond those are free to stand
anywhere, and so is everything about other members. -/
inductive Matched (member : String) : List Change → Prop where
  | nil : Matched member []
  | other {change : Change} {rest : List Change} (hother : change ≠ .join member)
      (hrest : Matched member rest) : Matched member (change :: rest)
  | join {between rest : List Change} (hothers : Matched member (between ++ rest)) :
      Matched member (.join member :: (between ++ .leave member :: rest))

/-- No end of a matched history has more joins than leaves. -/
theorem Matched.surplus_le {member : String} {changes last : List Change}
    (hmatched : Matched member changes) (hlast : last <:+ changes) : surplus member last ≤ 0 := by
  induction hmatched generalizing last with
  | nil =>
      obtain rfl := List.suffix_nil.mp hlast
      exact Int.le_refl 0
  | @other change rest hother _ ih =>
      rcases List.suffix_cons_iff.mp hlast with rfl | hrest
      · have hgain : change.gain member ≤ 0 := by
          cases change with
          | join name =>
              have hname : name ≠ member := fun hsame => hother (hsame ▸ rfl)
              simp [Change.gain, hname]
          | leave name => simp only [Change.gain]; split <;> omega
        have htail := ih (List.suffix_refl rest)
        rw [surplus_cons]
        omega
      · exact ih hrest
  | @join between rest _ ih =>
      -- without the pair, what is left of the end is an end of what the pair stands in
      have hpair (front : List Change) : surplus member (front ++ .leave member :: rest) =
          surplus member (front ++ rest) - 1 := by
        simp only [surplus_append, surplus_cons, Change.gain, if_true]
        omega
      rcases List.suffix_cons_iff.mp hlast with rfl | hlater
      · have hwhole := ih (List.suffix_refl _)
        rw [surplus_cons, hpair]
        simp only [Change.gain, if_true]
        omega
      · rcases List.suffix_or_suffix_of_suffix hlater (List.suffix_append between _) with
          hafter | ⟨front, rfl⟩
        · rcases List.suffix_cons_iff.mp hafter with rfl | hrest
          · have hends := ih (List.suffix_append between rest)
            have hone := hpair []
            simp only [List.nil_append] at hone
            omega
          · exact ih (hrest.trans (List.suffix_append between rest))
        · have hfront := List.suffix_append_self_iff.mp hlater
          have hends := ih (List.suffix_append_self_iff.mpr hfront)
          rw [hpair]
          omega

/-- A history in which each change is made by one of several callers. -/
abbrev Calls := List (Nat × Change)

namespace Calls

def changes (calls : Calls) : List Change := calls.map Prod.snd

def own (calls : Calls) (caller : Nat) : List Change :=
  changes (calls.filter fun call => call.1 = caller)

theorem own_cons (call : Nat × Change) (calls : Calls) (caller : Nat) :
    own (call :: calls) caller =
      if call.1 = caller then call.2 :: own calls caller else own calls caller := by
  by_cases hown : call.1 = caller <;> simp [own, changes, hown]

theorem own_suffix {calls later : Calls} (hlater : later <:+ calls) (caller : Nat) :
    later.own caller <:+ calls.own caller := (hlater.filter _).map _

/-- A surplus is made up of those of the callers. -/
theorem surplus_changes (member : String) (calls : Calls) (callers : Finset Nat)
    (hcallers : ∀ call ∈ calls, call.1 ∈ callers) :
    surplus member calls.changes = ∑ caller ∈ callers, surplus member (calls.own caller) := by
  induction calls with
  | nil => simp [changes, own, surplus_nil]
  | cons call rest ih =>
      have hcaller : call.1 ∈ callers := hcallers call List.mem_cons_self
      have hrest := ih fun other hother => hcallers other (List.mem_cons_of_mem call hother)
      have hterm (caller : Nat) : surplus member (own (call :: rest) caller) =
          (if call.1 = caller then call.2.gain member else 0) +
            surplus member (own rest caller) := by
        rw [own_cons]
        by_cases hown : call.1 = caller <;> simp [hown, surplus_cons]
      calc surplus member (changes (call :: rest))
          = call.2.gain member + surplus member (changes rest) := surplus_cons member call.2 _
        _ = ∑ caller ∈ callers, surplus member (own (call :: rest) caller) := by
          rw [hrest, Finset.sum_congr rfl fun caller _ => hterm caller, Finset.sum_add_distrib,
            Finset.sum_ite_eq, if_pos hcaller]

/-- Where the history of every caller is matched, no end of the whole one has more joins than
leaves. -/
theorem surplus_le {member : String} {calls : Calls} {last : List Change}
    (hmatched : ∀ caller, Matched member (calls.own caller)) (hlast : last <:+ calls.changes) :
    surplus member last ≤ 0 := by
  obtain ⟨later, hlater, rfl⟩ := (List.suffix_map_iff).mp hlast
  have hsum := surplus_changes member later (later.map Prod.fst).toFinset fun call hcall =>
    List.mem_toFinset.mpr (List.mem_map_of_mem hcall)
  calc surplus member (later.map Prod.snd)
      = ∑ caller ∈ (later.map Prod.fst).toFinset, surplus member (own later caller) := hsum
    _ ≤ 0 := Finset.sum_nonpos fun caller _ =>
      (hmatched caller).surplus_le (own_suffix hlater caller)

end Calls

namespace Store

def apply (s : Store) : Change → Nat × Store
  | .join member => s.join member
  | .leave member => s.leave member

/-- The store after a history that began with nobody. -/
def after (changes : List Change) : Store :=
  changes.foldl (fun s change => (s.apply change).2) empty

/-- How many connections a member has, none if it is absent. -/
def score (s : Store) (member : String) : Nat := (s.score? member).getD 0

theorem after_concat (changes : List Change) (change : Change) :
    after (changes ++ [change]) = ((after changes).apply change).2 := by
  simp [after]

section Apply

variable (s : Store) (change : Change) (member : String)

/-- A change does what it is for and is then held at zero from below. -/
theorem score_apply :
    ((s.apply change).2.score member : Int) = max 0 (s.score member + change.gain member) := by
  cases change with
  | join other =>
      simp only [apply, score, score?_join, Change.gain]
      by_cases hsame : member = other
      · subst hsame
        simp only [if_true, Option.getD_some]
        omega
      · simp only [hsame, Ne.symm hsame, if_false]
        omega
  | leave other =>
      simp only [apply, score, score?_leave, Change.gain]
      by_cases hsame : member = other
      · subst hsame
        simp only [if_true]
        cases s.score? member with
        | none => simp
        | some n =>
            by_cases hlast : n ≤ 1
            · simp only [Option.bind_some, hlast, if_true, Option.getD_none, Option.getD_some]
              omega
            · simp only [Option.bind_some, hlast, if_false, Option.getD_some]
              omega
      · simp only [hsame, Ne.symm hsame, if_false]
        omega

/-- A caller is told the score that its member has from then on. -/
theorem answer_apply : (s.apply change).1 = (s.apply change).2.score change.member := by
  cases change with
  | join other =>
      simp only [apply, score, score?_join, Change.member, if_true, Option.getD_some]
      rfl
  | leave other =>
      simp only [apply, score, score?_leave, Change.member, if_true]
      unfold leave
      cases s.score? other with
      | none => rfl
      | some n => by_cases hlast : n ≤ 1 <;> simp [hlast]

/-- A change leaves the scores of all other members alone. -/
theorem score?_apply_of_ne (hother : change.member ≠ member) :
    (s.apply change).2.score? member = s.score? member := by
  cases change with
  | join other => exact (score?_join s other member).trans (if_neg (Ne.symm hother))
  | leave other => exact (score?_leave s other member).trans (if_neg (Ne.symm hother))

theorem score?_apply_congr {s s' : Store} (hsame : s.score? member = s'.score? member) :
    (s.apply change).2.score? member = (s'.apply change).2.score? member := by
  by_cases hown : change.member = member
  case pos =>
    subst hown
    cases change with
    | join other =>
        change s.score? other = s'.score? other at hsame
        simp [apply, Change.member, score?_join, hsame]
    | leave other =>
        change s.score? other = s'.score? other at hsame
        simp [apply, Change.member, score?_leave, hsame]
  case neg => rw [score?_apply_of_ne _ _ _ hown, score?_apply_of_ne _ _ _ hown, hsame]

end Apply

/-- A score depends on the changes of its own member only. -/
theorem score?_after_filter (changes : List Change) (member : String) :
    (after (changes.filter fun change => change.member = member)).score? member =
      (after changes).score? member := by
  induction changes using List.reverseRecOn with
  | nil => rfl
  | append_singleton changes change ih =>
      rw [List.filter_append, after_concat]
      by_cases hown : change.member = member
      case pos =>
        have hkept : [change].filter (fun change => change.member = member) = [change] := by
          simp [hown]
        rw [hkept, after_concat]
        exact score?_apply_congr change member ih
      case neg =>
        have hgone : [change].filter (fun change => change.member = member) = [] := by
          simp [hown]
        rw [hgone, List.append_nil, score?_apply_of_ne _ _ _ hown]
        exact ih

/-- A score is the largest surplus that an end of the history has. -/
theorem isGreatest_surplus (changes : List Change) (member : String) :
    IsGreatest (surplus member '' {last | last <:+ changes}) ((after changes).score member) := by
  induction changes using List.reverseRecOn with
  | nil =>
      constructor
      · exact ⟨[], List.suffix_refl [], rfl⟩
      · rintro _ ⟨last, hlast, rfl⟩
        obtain rfl := List.suffix_nil.mp hlast
        exact Int.le_refl 0
  | append_singleton changes change ih =>
      obtain ⟨⟨longest, hlongest, hreached⟩, hbound⟩ := ih
      have hends (last : List Change) : surplus member (last ++ [change]) =
          surplus member last + change.gain member := by
        rw [surplus_append, surplus_singleton]
      rw [after_concat, score_apply]
      constructor
      case left =>
        -- either the best end goes on, or it is better to begin anew
        by_cases hpositive : 0 ≤ (after changes).score member + change.gain member
        case pos =>
          refine ⟨longest ++ [change], List.suffix_append_self_iff.mpr hlongest, ?_⟩
          rw [hends, hreached]
          omega
        case neg =>
          refine ⟨[], List.nil_suffix, ?_⟩
          rw [surplus_nil]
          omega
      case right =>
        rintro _ ⟨last, hlast, rfl⟩
        rcases List.suffix_concat_iff.mp hlast with rfl | ⟨last, rfl, hbefore⟩
        · rw [surplus_nil]
          omega
        · have hbest : surplus member last ≤ (after changes).score member :=
            hbound ⟨last, hbefore, rfl⟩
          rw [hends]
          omega

/-- The store always tells of some list of members how often each occurs in it. -/
theorem exists_tallies (changes : List Change) : ∃ members, (after changes).Tallies members := by
  induction changes using List.reverseRecOn with
  | nil => exact ⟨[], .empty⟩
  | append_singleton changes change ih =>
      obtain ⟨members, htallies⟩ := ih
      rw [after_concat]
      cases change with
      | join member =>
          refine ⟨member :: members, htallies.join fun other => ?_⟩
          by_cases hsame : other = member <;> simp [hsame, Ne.symm]
      | leave member =>
          by_cases hpresent : member ∈ members
          case pos =>
            refine ⟨members.erase member, htallies.leave fun other => ?_⟩
            by_cases hsame : other = member
            · subst hsame
              have hone := List.count_pos_iff.mpr hpresent
              rw [List.count_erase_self, if_pos rfl]
              omega
            · rw [List.count_erase_of_ne hsame, if_neg hsame, Nat.add_zero]
          case neg =>
            have habsent : (after changes).score? member = none := by
              rw [htallies.scores, if_pos (List.count_eq_zero.mpr hpresent)]
            exact ⟨members, by simpa only [apply, leave, habsent] using htallies⟩

/-- The store lists those who have a connection, each once, and nobody else. -/
theorem counts_present (changes : List Change) : ∃ present : Finset String,
    (∀ member, member ∈ present ↔ 0 < (after changes).score member) ∧
      (after changes).count = present.card := by
  obtain ⟨members, htallies⟩ := exists_tallies changes
  refine ⟨members.toFinset, fun member => ?_, htallies.count⟩
  rw [List.mem_toFinset, ← List.count_pos_iff, score, htallies.scores]
  by_cases habsent : members.count member = 0 <;> simp [habsent]

/-- A member whose score is zero is absent. -/
theorem score?_eq (changes : List Change) (member : String) :
    (after changes).score? member =
      if (after changes).score member = 0 then none else some ((after changes).score member) := by
  obtain ⟨members, htallies⟩ := exists_tallies changes
  rw [score, htallies.scores]
  by_cases habsent : members.count member = 0 <;> simp [habsent]

/-- No score exceeds the number of joins. -/
theorem score_le_joins (changes : List Change) (member : String) :
    (after changes).score member ≤ changes.countP Change.joins := by
  obtain ⟨⟨last, hlast, hreached⟩, _⟩ := isGreatest_surplus changes member
  have hown : last.count (.join member) ≤ changes.count (.join member) :=
    hlast.sublist.count_le _
  have hall : changes.count (.join member) ≤ changes.countP Change.joins := by
    apply List.countP_mono_left
    intro change _ hjoin
    obtain rfl : change = .join member := by simpa using hjoin
    rfl
  rw [surplus] at hreached
  omega

/-- Two stores with the same scores. -/
def Alike (s s' : Store) : Prop :=
  (∀ member, s.score? member = s'.score? member) ∧ s.count = s'.count

/-- Changes of different members may be made in either order. -/
theorem alike_swap (changes rest : List Change) {one two : Change}
    (hother : one.member ≠ two.member) :
    (after (changes ++ one :: two :: rest)).Alike (after (changes ++ two :: one :: rest)) := by
  have hscores (member : String) : (after (changes ++ one :: two :: rest)).score? member =
      (after (changes ++ two :: one :: rest)).score? member := by
    rw [← score?_after_filter, ← score?_after_filter (changes ++ two :: one :: rest)]
    by_cases hone : one.member = member
    · have htwo : two.member ≠ member := fun hsame => hother (hone.trans hsame.symm)
      simp [hone, htwo]
    · simp [List.filter_cons, hone]
  refine ⟨hscores, ?_⟩
  obtain ⟨present, hpresent, hcount⟩ := counts_present (changes ++ one :: two :: rest)
  obtain ⟨present', hpresent', hcount'⟩ := counts_present (changes ++ two :: one :: rest)
  have hsame : present = present' := by
    ext member
    rw [hpresent, hpresent', score, score, hscores]
  rw [hcount, hcount', hsame]

/-- What a store tells of the history behind it. -/
structure Reflects (changes : List Change) : Prop where
  score : ∀ member,
    IsGreatest (surplus member '' {last | last <:+ changes}) ((after changes).score member)
  absent : ∀ member, (after changes).score? member = none ↔ (after changes).score member = 0
  stored : ∀ member n, (after changes).score? member = some n → 1 ≤ n
  /-- Whoever joins or leaves next is told the new score. -/
  answers : ∀ next,
    ((after changes).apply next).1 = (after (changes ++ [next])).score next.member
  counts : ∃ present : Finset String,
    (∀ member, member ∈ present ↔ 0 < (after changes).score member) ∧
      (after changes).count = present.card
  /-- No score leaves 64 bits with a sign before there are as many joins. -/
  fits : changes.countP Change.joins < Nat.pow 2 63 →
    ∀ member, (after changes).score member < Nat.pow 2 63
  /-- The next two changes, if they are of different members, are answered alike in either order,
  and no later history tells in which order they were. -/
  commutes : ∀ one two, one.member ≠ two.member →
    ((after changes).apply one).1 = ((after (changes ++ [two])).apply one).1 ∧
      ((after changes).apply two).1 = ((after (changes ++ [one])).apply two).1 ∧
      ∀ rest, (after (changes ++ one :: two :: rest)).Alike (after (changes ++ two :: one :: rest))
  /-- Callers whose own joins of a member are each matched leave it absent. -/
  drains : ∀ (calls : Calls) (member : String), calls.changes = changes →
    (∀ caller, Matched member (calls.own caller)) → (after changes).score? member = none

/-- A change is answered the same where only others have changed in between. -/
theorem answer_after_other (changes : List Change) {one two : Change}
    (hother : one.member ≠ two.member) :
    ((after changes).apply one).1 = ((after (changes ++ [two])).apply one).1 := by
  rw [answer_apply, answer_apply, after_concat, score, score]
  congr 1
  exact score?_apply_congr one one.member
    (score?_apply_of_ne (after changes) two one.member (Ne.symm hother)).symm

/-- The law of the store, for every history of joins and leaves of whatever members. -/
theorem reflects_changes (changes : List Change) : Reflects changes := by
  have hscore := score?_eq changes
  constructor
  case score => exact isGreatest_surplus changes
  case absent =>
    intro member
    rw [hscore]
    by_cases hzero : (after changes).score member = 0 <;> simp [hzero]
  case stored =>
    intro member n hstored
    rw [hscore] at hstored
    split at hstored
    case isTrue => cases hstored
    case isFalse hpositive =>
      cases hstored
      exact Nat.pos_of_ne_zero hpositive
  case answers =>
    intro next
    rw [after_concat]
    exact answer_apply (after changes) next
  case counts => exact counts_present changes
  case fits =>
    intro hfew member
    exact Nat.lt_of_le_of_lt (score_le_joins changes member) hfew
  case commutes =>
    intro one two hother
    refine ⟨answer_after_other changes hother, answer_after_other changes (Ne.symm hother), ?_⟩
    intro rest
    exact alike_swap changes rest hother
  case drains =>
    rintro calls member rfl hmatched
    obtain ⟨⟨last, hlast, hreached⟩, _⟩ := isGreatest_surplus calls.changes member
    have hnone := Calls.surplus_le hmatched hlast
    rw [hscore, if_pos (by omega)]

/-- The second caller's extra leave takes away the first one's join, and still nobody is left. -/
example : (after (Calls.changes
    [(0, .join "ann"), (1, .leave "ann"), (1, .join "ann"), (0, .leave "ann"),
      (1, .leave "ann")])).score?
      "ann" = none := by
  decide

end Store
end Rollcall.Presence
