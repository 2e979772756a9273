import Mathlib.Data.Finset.Card
import Rollcall.Presence.Store

/-!
The store as a tally.

A store tells exactly how often each member occurs in a list of members (`Store.Tallies`). A join
adds an occurrence and the leave of a member that occurs takes one away, so the floor at zero is
never reached by members that left as often as they joined.
-/

namespace Rollcall.Presence.Store

def keys (scores : List (String × Nat)) : List String := scores.map Prod.fst

theorem mem_keys_iff (member : String) (scores : List (String × Nat)) :
    member ∈ keys scores ↔ (lookup member scores).isSome := by
  induction scores with
  | nil => simp [keys, lookup]
  | cons entry rest ih =>
      obtain ⟨other, n⟩ := entry
      simp only [keys, List.map_cons, List.mem_cons, lookup] at ih ⊢
      by_cases hsame : member = other
      · simp [hsame]
      · simp [hsame, ih]

/-- A member that has no score yet is listed last. -/
theorem keys_put (member : String) (n : Nat) (scores : List (String × Nat)) :
    keys (put member n scores) =
      if member ∈ keys scores then keys scores else keys scores ++ [member] := by
  induction scores with
  | nil => simp [keys, put]
  | cons entry rest ih =>
      obtain ⟨other, k⟩ := entry
      simp only [keys, put] at ih ⊢
      by_cases hsame : member = other
      · simp [hsame]
      · by_cases hknown : member ∈ rest.map Prod.fst <;> simp [hsame, hknown, ih]

theorem keys_drop (member : String) (scores : List (String × Nat)) :
    keys (drop member scores) = (keys scores).filter (· ≠ member) := by
  induction scores with
  | nil => rfl
  | cons entry rest ih =>
      obtain ⟨other, k⟩ := entry
      simp only [keys, drop] at ih ⊢
      by_cases hsame : member = other
      · subst hsame
        simpa using ih
      · simp [hsame, Ne.symm hsame, ih]

theorem nodup_keys_put (member : String) (n : Nat) {scores : List (String × Nat)}
    (hdistinct : (keys scores).Nodup) : (keys (put member n scores)).Nodup := by
  rw [keys_put]
  split
  · exact hdistinct
  case isFalse hnew =>
    refine List.nodup_append.mpr ⟨hdistinct, by simp, fun other hother last hlast => ?_⟩
    rw [List.mem_singleton.mp hlast]
    exact fun hsame => hnew (hsame ▸ hother)

/-- The store tells how often each member occurs among `members`. -/
structure Tallies (s : Store) (members : List String) : Prop where
  distinct : (keys s.scores).Nodup
  scores : ∀ member, s.score? member =
    if members.count member = 0 then none else some (members.count member)

namespace Tallies

variable {s : Store} {members members' : List String}

theorem empty : Store.empty.Tallies [] := ⟨List.nodup_nil, fun _ => rfl⟩

theorem of_count_eq (htallies : s.Tallies members)
    (hsame : ∀ member, members'.count member = members.count member) : s.Tallies members' :=
  ⟨htallies.distinct, fun member => by rw [hsame, htallies.scores]⟩

/-- A join is one occurrence of its member more. -/
theorem join {member : String} (htallies : s.Tallies members)
    (hmore : ∀ other, members'.count other =
      members.count other + if other = member then 1 else 0) :
    (s.join member).2.Tallies members' := by
  refine ⟨nodup_keys_put _ _ htallies.distinct, fun other => ?_⟩
  rw [score?_join, hmore, htallies.scores other, htallies.scores member]
  by_cases hsame : other = member
  · by_cases habsent : members.count member = 0 <;> simp [hsame, habsent]
  · simp [hsame]

/-- A leave is one occurrence of its member less. -/
theorem leave {member : String} (htallies : s.Tallies members)
    (hless : ∀ other, members.count other =
      members'.count other + if other = member then 1 else 0) :
    (s.leave member).2.Tallies members' := by
  -- the member occurs, so its score has not come to the floor
  have hone := hless member
  simp only [if_true] at hone
  refine ⟨?_, fun other => ?_⟩
  · unfold Store.leave
    split
    · exact htallies.distinct
    · split
      · simp only [keys_drop]
        exact htallies.distinct.filter _
      · exact nodup_keys_put _ _ htallies.distinct
  · rw [score?_leave, htallies.scores other, htallies.scores member, hless other]
    by_cases hsame : other = member
    · by_cases hlast : members'.count member = 0 <;> simp [hsame, hone, hlast]
    · simp [hsame]

theorem mem_keys (htallies : s.Tallies members) (member : String) :
    member ∈ keys s.scores ↔ member ∈ members := by
  have hscore := htallies.scores member
  rw [mem_keys_iff, ← score?, hscore, ← List.count_pos_iff]
  by_cases habsent : members.count member = 0
  · simp [habsent]
  · simp [habsent, Nat.pos_of_ne_zero habsent]

/-- The store counts everyone who occurs, once. -/
theorem count (htallies : s.Tallies members) : s.count = members.toFinset.card := by
  have hsame : (keys s.scores).toFinset = members.toFinset := by
    ext member
    simp only [List.mem_toFinset, htallies.mem_keys]
  calc s.count = (keys s.scores).length := by simp [Store.count, keys]
    _ = (keys s.scores).toFinset.card := (List.toFinset_card_of_nodup htallies.distinct).symm
    _ = members.toFinset.card := by rw [hsame]

end Tallies
end Rollcall.Presence.Store
