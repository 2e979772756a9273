import Mathlib.Algebra.BigOperators.Group.Finset.Piecewise
import Mathlib.Algebra.Order.BigOperators.Group.Finset
import Rollcall.Redis.Gauges
import Rollcall.Redis.Server

/-!
Counting the keys that match some patterns.

The count walks through the pages of each pattern, from cursor zero to the first page whose cursor
is zero (`Walk`), one pattern after the other (`Tour`), and adds up the lengths of all pages. A walk
that shows every key of its pattern once adds the number of these keys. So a key is counted as often
as there are patterns that it matches (`found_eq_sum`), and the total is the number of keys that
match at least one pattern exactly if no key matches two (`Client.cachedKeys_exact`).
-/

namespace Rollcall.Redis

variable {σ : Type} [Network σ]

/-- The pages of a pattern from a cursor on, and whether they end with cursor zero or with a request
that failed. -/
inductive Walk (pattern : String) : (cursor : Nat) → Client σ → (pages : List (List String)) →
    Except CallFailure Unit → Client σ → Prop where
  | last {cursor : Nat} {c c' : Client σ} {keys : List String}
      (hpage : c.execute (Dialog.page cursor pattern) = (.ok (0, keys), c')) :
      Walk pattern cursor c [keys] (.ok ()) c'
  | broken {cursor : Nat} {c c' : Client σ} {failure : CallFailure}
      (hpage : c.execute (Dialog.page cursor pattern) = (.error failure, c')) :
      Walk pattern cursor c [] (.error failure) c'
  | more {cursor next : Nat} {c c' c'' : Client σ} {keys : List String} {pages : List (List String)}
      {outcome : Except CallFailure Unit}
      (hpage : c.execute (Dialog.page cursor pattern) = (.ok (next, keys), c')) (hnext : next ≠ 0)
      (rest : Walk pattern next c' pages outcome c'') :
      Walk pattern cursor c (keys :: pages) outcome c''

/-- A walk for each pattern, each from cursor zero, up to a request that failed. -/
inductive Tour : List String → Client σ → (walks : List (List (List String))) →
    Except CallFailure Unit → Client σ → Prop where
  | done {c : Client σ} : Tour [] c [] (.ok ()) c
  | broken {pattern : String} {patterns : List String} {c c' : Client σ}
      {pages : List (List String)} {failure : CallFailure}
      (walk : Walk pattern 0 c pages (.error failure) c') :
      Tour (pattern :: patterns) c [pages] (.error failure) c'
  | walked {pattern : String} {patterns : List String} {c c' c'' : Client σ}
      {pages : List (List String)} {walks : List (List (List String))}
      {outcome : Except CallFailure Unit} (walk : Walk pattern 0 c pages (.ok ()) c')
      (rest : Tour patterns c' walks outcome c'') :
      Tour (pattern :: patterns) c (pages :: walks) outcome c''

def found (walks : List (List (List String))) : Nat := walks.flatten.flatten.length

theorem found_cons (pages : List (List String)) (walks : List (List (List String))) :
    found (pages :: walks) = pages.flatten.length + found walks := by
  rw [found, List.flatten_cons, List.flatten_append, List.length_append, found]

namespace Client

variable {c c' c'' : Client σ} {pattern : String} {patterns : List String}
  {cursor total limit : Nat} {pages : List (List String)} {walks : List (List (List String))}
  {outcome : Except CallFailure Unit} {r : Except CallFailure Nat}

theorem countKeys_done (limit cursor total : Nat) (c : Client σ) :
    countKeys limit ⟨[], cursor, total⟩ c = (some (.ok total), c) := by
  rw [countKeys]

theorem countKeys_zero (cursor total : Nat) (c : Client σ) :
    countKeys 0 ⟨pattern :: patterns, cursor, total⟩ c = (none, c) := by
  rw [countKeys]

/-- A page is counted, and the walk goes on from its cursor. -/
theorem countKeys_page {next : Nat} {keys : List String} (limit total : Nat)
    (patterns : List String)
    (hpage : c.execute (Dialog.page cursor pattern) = (.ok (next, keys), c')) :
    countKeys (limit + 1) ⟨pattern :: patterns, cursor, total⟩ c =
      countKeys limit
        ⟨if next = 0 then patterns else pattern :: patterns, next, total + keys.length⟩
        c' := by
  rw [countKeys]
  simp only [hpage]
  rfl

theorem countKeys_broken {failure : CallFailure} (limit total : Nat) (patterns : List String)
    (hpage : c.execute (Dialog.page cursor pattern) = (.error failure, c')) :
    countKeys (limit + 1) ⟨pattern :: patterns, cursor, total⟩ c = (some (.error failure), c') := by
  rw [countKeys]
  simp only [hpage]

/-- A whole walk takes as many requests as it has pages. -/
theorem countKeys_walked (walk : Walk pattern cursor c pages (.ok ()) c') (limit total : Nat)
    (patterns : List String) :
    countKeys (limit + pages.length) ⟨pattern :: patterns, cursor, total⟩ c =
      countKeys limit ⟨patterns, 0, total + pages.flatten.length⟩ c' := by
  generalize houtcome : Except.ok () = outcome at walk
  induction walk generalizing total with
  | last hpage => simp [countKeys_page limit total patterns hpage]
  | broken => cases houtcome
  | more hpage hnext rest ih =>
      rw [List.length_cons, ← Nat.add_assoc, countKeys_page _ total patterns hpage, if_neg hnext,
        ih _ houtcome, List.flatten_cons, List.length_append, Nat.add_assoc]

/-- A walk that fails ends the count, however many patterns are left. -/
theorem countKeys_failed {failure : CallFailure}
    (walk : Walk pattern cursor c pages (.error failure) c') (limit total : Nat)
    (patterns : List String) :
    countKeys (limit + pages.length + 1) ⟨pattern :: patterns, cursor, total⟩ c =
      (some (.error failure), c') := by
  generalize houtcome : Except.error failure = outcome at walk
  induction walk generalizing total with
  | last => cases houtcome
  | broken hpage =>
      cases houtcome
      exact countKeys_broken _ total patterns hpage
  | more hpage hnext rest ih =>
      rw [countKeys_page _ total patterns hpage, if_neg hnext]
      exact ih _ houtcome

/-- A count gets through a tour that it has enough requests for. -/
theorem countKeys_tour (tour : Tour patterns c walks outcome c') (total : Nat)
    (hlimit : walks.flatten.length < limit) :
    countKeys limit ⟨patterns, 0, total⟩ c =
      (some (outcome.map fun _ => total + found walks), c') := by
  induction tour generalizing total limit with
  | done => exact countKeys_done limit 0 total _
  | @broken pattern patterns c c' pages failure walk =>
      obtain ⟨spare, rfl⟩ : ∃ spare, limit = spare + pages.length + 1 :=
        ⟨limit - pages.length - 1, by simp at hlimit; omega⟩
      exact countKeys_failed walk spare total patterns
  | @walked pattern patterns c c' c'' pages walks outcome walk rest ih =>
      rw [List.flatten_cons, List.length_append] at hlimit
      obtain ⟨left, rfl⟩ : ∃ left, limit = left + pages.length := ⟨limit - pages.length, by omega⟩
      rw [countKeys_walked walk, ih _ (by omega), found_cons, Nat.add_assoc]

/-- A count that came to a result has been through the rest of the walk that it was on. -/
theorem walk_of_countKeys
    (hcount : countKeys limit ⟨pattern :: patterns, cursor, total⟩ c = (some r, c')) :
    (∃ pages failure, Walk pattern cursor c pages (.error failure) c' ∧ r = .error failure) ∨
      ∃ pages c₁ left, Walk pattern cursor c pages (.ok ()) c₁ ∧
        countKeys left ⟨patterns, 0, total + pages.flatten.length⟩ c₁ = (some r, c') := by
  induction limit generalizing cursor total c with
  | zero => simp [countKeys_zero] at hcount
  | succ limit ih =>
      obtain ⟨failure, c₁, hpage⟩ | ⟨next, keys, c₁, hpage⟩ :
          (∃ failure c₁, c.execute (Dialog.page cursor pattern) = (.error failure, c₁)) ∨
            ∃ next keys c₁, c.execute (Dialog.page cursor pattern) = (.ok (next, keys), c₁) := by
        rcases c.execute (Dialog.page cursor pattern) with ⟨failure | ⟨next, keys⟩, c₁⟩
        · exact .inl ⟨failure, c₁, rfl⟩
        · exact .inr ⟨next, keys, c₁, rfl⟩
      · rw [countKeys_broken limit total patterns hpage] at hcount
        cases hcount
        exact .inl ⟨[], failure, .broken hpage, rfl⟩
      · rw [countKeys_page limit total patterns hpage] at hcount
        obtain rfl | hnext := Nat.eq_zero_or_pos next
        · refine .inr ⟨[keys], c₁, limit, .last hpage, ?_⟩
          simpa using hcount
        · have hnext : next ≠ 0 := Nat.pos_iff_ne_zero.mp hnext
          rw [if_neg hnext] at hcount
          obtain ⟨pages, failure, walk, hr⟩ | ⟨pages, c₂, left, walk, hleft⟩ := ih hcount
          · exact .inl ⟨keys :: pages, failure, .more hpage hnext walk, hr⟩
          · refine .inr ⟨keys :: pages, c₂, left, .more hpage hnext walk, ?_⟩
            rwa [List.flatten_cons, List.length_append, ← Nat.add_assoc]

/-- By induction on the limit: a count that ends has made a tour. -/
theorem tour_of_countKeys (hcount : countKeys limit ⟨patterns, 0, total⟩ c = (some r, c')) :
    ∃ walks outcome, Tour patterns c walks outcome c' ∧
      r = outcome.map fun _ => total + found walks := by
  induction patterns generalizing limit total c with
  | nil =>
      rw [countKeys_done] at hcount
      cases hcount
      exact ⟨[], .ok (), .done, rfl⟩
  | cons pattern patterns ih =>
      obtain ⟨pages, failure, walk, rfl⟩ | ⟨pages, c₁, left, walk, hleft⟩ :=
        walk_of_countKeys hcount
      · exact ⟨[pages], .error failure, .broken walk, rfl⟩
      · obtain ⟨walks, outcome, tour, rfl⟩ := ih hleft
        refine ⟨pages :: walks, outcome, .walked walk tour, ?_⟩
        rw [found_cons, Nat.add_assoc]

/-- What the count of the keys that match some patterns comes to, if it may send as many requests as
it needs. -/
def Counts (c : Client σ) (patterns : List String) (r : Except CallFailure Nat) (c' : Client σ) :
    Prop :=
  ∃ enough, ∀ limit, enough ≤ limit → c.cachedKeys limit patterns = (some r, c')

/-- A count that succeeds has only one result. -/
theorem Counts.unique {n n' : Nat} (hcounts : c.Counts patterns (.ok n) c')
    (hcounts' : c.Counts patterns (.ok n') c'') : n = n' := by
  obtain ⟨enough, hresult⟩ := hcounts
  obtain ⟨enough', hresult'⟩ := hcounts'
  have hsame := (hresult (max enough enough') (Nat.le_max_left _ _)).symm.trans
    (hresult' (max enough enough') (Nat.le_max_right _ _))
  cases hsame
  rfl

/-- What the count comes to is read off the tour of the patterns. -/
theorem counts_iff (c : Client σ) (patterns : List String) (r : Except CallFailure Nat)
    (c' : Client σ) :
    c.Counts patterns r c' ↔ ∃ walks outcome, Tour patterns c walks outcome c' ∧
      r = outcome.map fun _ => found walks := by
  constructor
  · rintro ⟨enough, hcounts⟩
    simpa using tour_of_countKeys (hcounts enough (Nat.le_refl enough))
  · rintro ⟨walks, outcome, tour, rfl⟩
    refine ⟨walks.flatten.length + 1, ?_⟩
    intro limit hlimit
    have hresult := countKeys_tour tour 0 hlimit
    simp only [Nat.zero_add] at hresult
    exact hresult

end Client

section Keyspace

variable (keyspace : Finset String) (fits : String → String → Bool) {patterns : List String}
  {walks : List (List (List String))}

/-- The pages of a pattern show each key of the store that matches it once, and no others. -/
structure Shows (pattern : String) (pages : List (List String)) : Prop where
  nodup : pages.flatten.Nodup
  keys : pages.flatten.toFinset = keyspace.filter fun key => fits pattern key

/-- The keys of the store that match at least one pattern. -/
def matching (patterns : List String) : Finset String :=
  keyspace.filter fun key => patterns.any fun pattern => fits pattern key

variable {keyspace fits}

theorem Shows.length_eq {pattern : String} {pages : List (List String)}
    (hshows : Shows keyspace fits pattern pages) :
    pages.flatten.length = ∑ key ∈ keyspace, if fits pattern key then 1 else 0 := by
  rw [← List.toFinset_card_of_nodup hshows.nodup, hshows.keys, Finset.card_filter]

/-- Each key is found once for each pattern that it matches. -/
theorem found_eq_sum (hshows : List.Forall₂ (Shows keyspace fits) patterns walks) :
    found walks = ∑ key ∈ keyspace, patterns.countP fun pattern => fits pattern key := by
  induction hshows with
  | nil => simp [found]
  | cons hfirst hrest ih =>
      rw [found_cons, hfirst.length_eq, ih, ← Finset.sum_add_distrib]
      apply Finset.sum_congr rfl
      intro key _
      rw [List.countP_cons, Nat.add_comm]

/-- As many keys are found as match exactly if no key matches two patterns. -/
theorem found_eq_card_iff (hshows : List.Forall₂ (Shows keyspace fits) patterns walks) :
    found walks = (matching keyspace fits patterns).card ↔
      ∀ key ∈ keyspace, (patterns.countP fun pattern => fits pattern key) ≤ 1 := by
  have hany (key : String) : (patterns.any fun pattern => fits pattern key) = true ↔
      0 < patterns.countP fun pattern => fits pattern key := by
    rw [List.any_eq_true, List.countP_pos_iff]
  have hle (key : String) : (if patterns.any fun pattern => fits pattern key then 1 else 0) ≤
      patterns.countP fun pattern => fits pattern key := by
    split
    case isTrue hmatches => exact (hany key).mp hmatches
    case isFalse => exact Nat.zero_le _
  rw [found_eq_sum hshows, matching, Finset.card_filter, eq_comm,
    Finset.sum_eq_sum_iff_of_le fun key _ => hle key]
  apply forall₂_congr
  intro key _
  have hmatches := hany key
  split
  case isTrue hmatch =>
    have hpos := hmatches.mp hmatch
    omega
  case isFalse hnone =>
    have hzero := mt hmatches.mpr hnone
    omega

end Keyspace

namespace Client

/-- Whatever the store answers, the count of the keys that match some patterns comes to an end
exactly if the tour of the patterns does: with the failure of the request that failed, if there was
one, and otherwise with the number of keys on all its pages. If each walk shows each key of its
pattern once, every key is counted once for each pattern that it matches; this is the number of keys
that match at least one pattern exactly if no key matches two of them. -/
theorem cachedKeys_exact (c : Client σ) (patterns : List String) :
    (∀ r c', c.Counts patterns r c' ↔ ∃ walks outcome, Tour patterns c walks outcome c' ∧
      r = outcome.map fun _ => found walks) ∧
    ∀ (keyspace : Finset String) (fits : String → String → Bool) (walks : List (List (List String)))
      (c' : Client σ), Tour patterns c walks (.ok ()) c' →
      List.Forall₂ (Shows keyspace fits) patterns walks →
        c.Counts patterns (.ok (∑ key ∈ keyspace, patterns.countP fun pattern => fits pattern key))
          c' ∧
        (c.Counts patterns (.ok (matching keyspace fits patterns).card) c' ↔
          ∀ key ∈ keyspace, (patterns.countP fun pattern => fits pattern key) ≤ 1) := by
  refine ⟨c.counts_iff patterns, ?_⟩
  intro keyspace fits walks c' tour hshows
  have hcounts : c.Counts patterns (.ok (found walks)) c' :=
    (c.counts_iff patterns _ c').mpr ⟨walks, .ok (), tour, rfl⟩
  rw [← found_eq_card_iff hshows, ← found_eq_sum hshows]
  refine ⟨hcounts, ?_, ?_⟩
  · intro hdistinct
    exact hcounts.unique hdistinct
  · intro hcard
    rwa [hcard] at hcounts

section Shelf

/-- A pattern with a star at its end, and nowhere else. -/
def startsLike (pattern key : String) : Bool := pattern.toList.dropLast.isPrefixOf key.toList

def pageReply (next : Int) (keys : List String) : Reaction :=
  .reply (.array [.int next, .array (keys.map .bulk)])

/-- A store that shows two articles on three pages, one of them empty, and a session on one. -/
def shelf : Client Server :=
  .create .default (.create true (.inOrder [pageReply 7 ["article:1"], pageReply 9 [],
    pageReply 0 ["article:2"], pageReply 0 ["session:9"]]))

theorem cachedKeys_exact_shelf :
    ∃ walks c', Tour ["article*", "session*"] shelf walks (.ok ()) c' ∧
      List.Forall₂ (Shows {"article:1", "article:2", "online", "session:9"} startsLike)
        ["article*", "session*"] walks ∧
      shelf.Counts ["article*", "session*"] (.ok 3) c' := by
  have hshows : List.Forall₂ (Shows {"article:1", "article:2", "online", "session:9"} startsLike)
      ["article*", "session*"] [[["article:1"], [], ["article:2"]], [["session:9"]]] :=
    .cons ⟨by decide, by decide⟩ (.cons ⟨by decide, by decide⟩ .nil)
  have tour : ∃ c', Tour ["article*", "session*"] shelf
      [[["article:1"], [], ["article:2"]], [["session:9"]]] (.ok ()) c' :=
    ⟨_, .walked (.more rfl (by decide) (.more rfl (by decide) (.last rfl)))
      (.walked (.last rfl) .done)⟩
  obtain ⟨c', tour⟩ := tour
  have hcounts := ((shelf.cachedKeys_exact _).2 _ _ _ c' tour hshows).2.mpr (by decide)
  exact ⟨_, c', tour, hshows, hcounts⟩

/-- A store with one key, which it shows for each of two patterns. -/
def narrow : Client Server :=
  .create .default (.create true (.inOrder [pageReply 0 ["user:1"], pageReply 0 ["user:1"]]))

/-- The key matches both patterns and is counted twice. -/
theorem counted_twice :
    ∃ walks c', Tour ["user:*", "user:1*"] narrow walks (.ok ()) c' ∧
      List.Forall₂ (Shows {"user:1"} startsLike) ["user:*", "user:1*"] walks ∧
      (matching {"user:1"} startsLike ["user:*", "user:1*"]).card = 1 ∧
      narrow.Counts ["user:*", "user:1*"] (.ok 2) c' ∧
      ¬ narrow.Counts ["user:*", "user:1*"] (.ok 1) c' := by
  have hshows : List.Forall₂ (Shows {"user:1"} startsLike) ["user:*", "user:1*"]
      [[["user:1"]], [["user:1"]]] :=
    .cons ⟨by decide, by decide⟩ (.cons ⟨by decide, by decide⟩ .nil)
  have tour : ∃ c', Tour ["user:*", "user:1*"] narrow [[["user:1"]], [["user:1"]]] (.ok ()) c' :=
    ⟨_, .walked (.last rfl) (.walked (.last rfl) .done)⟩
  obtain ⟨c', tour⟩ := tour
  have htwo : narrow.Counts ["user:*", "user:1*"] (.ok 2) c' :=
    (narrow.counts_iff _ _ _).mpr ⟨_, _, tour, rfl⟩
  refine ⟨_, c', tour, hshows, by decide, htwo, fun hone => ?_⟩
  exact absurd (htwo.unique hone) (by decide)

end Shelf

end Client
end Rollcall.Redis
