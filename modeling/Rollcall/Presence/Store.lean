/-!
The presence store in memory.

Who is present: every member with the number of its open connections. A member whose number would
fall to zero is removed, so every stored number is at least one.
-/

namespace Rollcall.Presence

/-- Members with their scores; no member is listed twice. -/
structure Store where
  scores : List (String × Nat)
deriving DecidableEq, Repr, Inhabited

namespace Store

def empty : Store := ⟨[]⟩

def lookup (member : String) : List (String × Nat) → Option Nat
  | [] => none
  | (other, n) :: rest => if member = other then some n else lookup member rest

def put (member : String) (n : Nat) : List (String × Nat) → List (String × Nat)
  | [] => [(member, n)]
  | (other, k) :: rest =>
      if member = other then (other, n) :: rest else (other, k) :: put member n rest

def drop (member : String) : List (String × Nat) → List (String × Nat)
  | [] => []
  | (other, k) :: rest =>
      if member = other then drop member rest else (other, k) :: drop member rest

/-- Setting a score changes what is found for that member and for nobody else. -/
theorem lookup_put (member other : String) (n : Nat) (scores : List (String × Nat)) :
    lookup other (put member n scores) =
      if other = member then some n else lookup other scores := by
  induction scores with
  | nil => by_cases h : other = member <;> simp [put, lookup, h]
  | cons entry rest ih =>
    obtain ⟨head, k⟩ := entry
    by_cases hm : member = head
    · subst hm
      by_cases ho : other = member <;> simp [put, lookup, ho]
    · by_cases ho : other = head
      · subst ho
        simp [put, lookup, hm, Ne.symm hm]
      · simp [put, lookup, hm, ho, ih]

/-- After a removal nothing is found for that member, and what is found for others is unchanged. -/
theorem lookup_drop (member other : String) (scores : List (String × Nat)) :
    lookup other (drop member scores) = if other = member then none else lookup other scores := by
  induction scores with
  | nil => simp [drop, lookup]
  | cons entry rest ih =>
    obtain ⟨head, k⟩ := entry
    by_cases hm : member = head
    · subst hm
      by_cases ho : other = member
      · simpa [drop, ho] using ih
      · simpa [drop, lookup, ho] using ih
    · by_cases ho : other = head
      · subst ho
        simp [drop, lookup, hm, Ne.symm hm]
      · simp [drop, lookup, hm, ho, ih]

def score? (s : Store) (member : String) : Option Nat := lookup member s.scores

def count (s : Store) : Nat := s.scores.length

/-- One more connection of a member: its new score and the store after it. -/
def join (s : Store) (member : String) : Nat × Store :=
  let n := (s.score? member).getD 0 + 1
  (n, ⟨put member n s.scores⟩)

/-- One connection of a member less: what remains and the store after it. An absent member stays
absent. -/
def leave (s : Store) (member : String) : Nat × Store :=
  match s.score? member with
  | none => (0, s)
  | some n =>
      if n ≤ 1 then (0, ⟨drop member s.scores⟩) else (n - 1, ⟨put member (n - 1) s.scores⟩)

/-- A join adds one to the score of the member and leaves all others alone. -/
theorem score?_join (s : Store) (member other : String) :
    (s.join member).2.score? other =
      if other = member then some ((s.score? member).getD 0 + 1) else s.score? other := by
  simp only [join, score?, lookup_put]

/-- A leave takes one from the score of the member, which is absent once nothing is left, and leaves
all others alone. -/
theorem score?_leave (s : Store) (member other : String) :
    (s.leave member).2.score? other =
      if other = member then (s.score? member).bind fun n => if n ≤ 1 then none else some (n - 1)
      else s.score? other := by
  unfold leave
  cases h : s.score? member with
  | none =>
    by_cases ho : other = member
    · simp [ho, h]
    · simp [ho]
  | some n =>
    by_cases hn : n ≤ 1
    · simp [hn, score?, lookup_drop]
    · simp [hn, score?, lookup_put]

end Store
end Rollcall.Presence
