import Mathlib.Data.Finset.Card
import Rollcall.Connection.Hub
import Rollcall.Presence.Store
import Rollcall.UserId

/-!
Whom a connection counts as.

Ids differ in their texts, so anonymous connections never count as one another. But a client may
give itself the name under which an anonymous connection counts, which is a user id like any other.
Where nobody does, each anonymous connection is counted once and is touched by no one else.
-/

namespace Rollcall.Connection

namespace Id

def digitValue (c : Char) : Nat :=
  if c.toNat < 'a'.toNat then c.toNat - '0'.toNat else c.toNat - 'a'.toNat + 10

def hexValue (digits : List Char) : Nat := digits.foldl (fun value c => 16 * value + digitValue c) 0

theorem digitValue_digitChar : ∀ n < 16, digitValue n.digitChar = n := by decide

theorem hexValue_append_singleton (digits : List Char) (c : Char) :
    hexValue (digits ++ [c]) = 16 * hexValue digits + digitValue c := by
  simp [hexValue]

/-- Reading the digits of a number gives the number. -/
theorem hexValue_toDigits (n : Nat) : hexValue (Nat.toDigits 16 n) = n := by
  induction n using Nat.strongRecOn with
  | ind n ih =>
      by_cases hsmall : n < 16
      · rw [Nat.toDigits_of_lt_base hsmall]
        simp [hexValue, digitValue_digitChar n hsmall]
      · rw [Nat.toDigits_of_base_le (by decide) (by omega), hexValue_append_singleton,
          ih _ (by omega), digitValue_digitChar _ (Nat.mod_lt n (by decide))]
        omega

theorem dash_not_mem_toDigits (n : Nat) : '-' ∉ Nat.toDigits 16 n := by
  have hdigit : ∀ d < 16, '-' ≠ d.digitChar := by decide
  induction n using Nat.strongRecOn with
  | ind n ih =>
      by_cases hsmall : n < 16
      · rw [Nat.toDigits_of_lt_base hsmall, List.mem_singleton]
        exact hdigit n hsmall
      · rw [Nat.toDigits_of_base_le (by decide) (by omega), List.mem_append,
          List.mem_singleton, not_or]
        exact ⟨ih _ (by omega), hdigit _ (Nat.mod_lt n (by decide))⟩

theorem toList_pushn (text : String) (c : Char) (n : Nat) :
    (text.pushn c n).toList = text.toList ++ List.replicate n c := by
  rw [String.pushn_eq_repeat_push]
  induction n with
  | zero => simp [Nat.repeat]
  | succ n ih => simp [Nat.repeat, ih, List.replicate_succ']

theorem toList_hex (width n : Nat) : (hex width n).toList =
    List.replicate (width - (Nat.toDigits 16 n).length) '0' ++ Nat.toDigits 16 n := by
  simp [hex, Text.hexText, toList_pushn]

theorem hexValue_replicate_append (k : Nat) (digits : List Char) :
    hexValue (List.replicate k '0' ++ digits) = hexValue digits := by
  induction k with
  | zero => simp
  | succ k ih =>
      rw [← ih]
      rfl

/-- Numbers filled up to the same width are told apart by their digits. -/
theorem hex_injective {width n m : Nat} (hsame : hex width n = hex width m) : n = m := by
  have hvalue (n : Nat) : hexValue (hex width n).toList = n := by
    rw [toList_hex, hexValue_replicate_append, hexValue_toDigits]
  rw [← hvalue n, hsame, hvalue]

theorem dash_not_mem_hex (width n : Nat) : '-' ∉ (hex width n).toList := by
  rw [toList_hex, List.mem_append, not_or]
  exact ⟨by simp, dash_not_mem_toDigits n⟩

/-- The groups can be told apart by the dashes between them. -/
theorem intercalate_injective {as bs : List String} (has : as ≠ []) (hbs : bs ≠ [])
    (hplain : ∀ group ∈ as, '-' ∉ group.toList) (hplain' : ∀ group ∈ bs, '-' ∉ group.toList)
    (hsame : "-".intercalate as = "-".intercalate bs) : as = bs := by
  have hsplit (groups : List String) (hgroups : groups ≠ [])
      (hplain : ∀ group ∈ groups, '-' ∉ group.toList) :
      ("-".intercalate groups).toList.splitOn '-' = groups.map String.toList := by
    rw [String.toList_intercalate]
    exact List.splitOn_intercalate '-' (by simpa using hplain) (by simpa using hgroups)
  have hmap : as.map String.toList = bs.map String.toList := by
    rw [← hsplit as has hplain, hsame, hsplit bs hbs hplain']
  exact List.map_injective_iff.mpr (fun _ _ => String.toList_inj.mp) hmap

/-- Ids of 122 random bits are told apart by their texts. -/
theorem text_injective {a b : Id} (ha : a.random < Nat.pow 2 122) (hb : b.random < Nat.pow 2 122)
    (hsame : a.text = b.text) : a = b := by
  unfold text at hsame
  simp only at hsame
  have hgroups := intercalate_injective (by simp) (by simp) (by simp [dash_not_mem_hex])
    (by simp [dash_not_mem_hex]) hsame
  simp only [List.cons.injEq, and_true] at hgroups
  obtain ⟨hfirst, hsecond, hthird, hfourth, hfifth⟩ := hgroups
  have hhigh := hex_injective hfirst
  have hlow := hex_injective hsecond
  have hversion := hex_injective hthird
  have hvariant := hex_injective hfourth
  have hlast := hex_injective hfifth
  obtain ⟨a⟩ := a
  obtain ⟨b⟩ := b
  simp only [Nat.pow_eq] at *
  congr 1
  omega

end Id

namespace Peer

/-- Whether a peer has given itself the name under which an anonymous one counts. -/
def PosesAs (p q : Peer) : Prop :=
  p.isAnonymous = false ∧ q.isAnonymous = true ∧ p.user = q.member

instance (p q : Peer) : Decidable (p.PosesAs q) := inferInstanceAs (Decidable (_ ∧ _))

variable {p q : Peer}

theorem member_of_named (hnamed : p.isAnonymous = false) : p.member = p.user := by
  unfold isAnonymous at hnamed
  simp [member, memberOf, hnamed]

theorem member_of_anonymous (hanonymous : p.isAnonymous = true) :
    p.member = "anonymous:" ++ p.id.text := by
  unfold isAnonymous at hanonymous
  simp [member, memberOf, hanonymous]

/-- Anonymous connections count as one only if they have the same id. -/
theorem member_inj_of_anonymous (hp : p.id.random < Nat.pow 2 122)
    (hq : q.id.random < Nat.pow 2 122)
    (hanonymous : p.isAnonymous = true) (hanonymous' : q.isAnonymous = true) :
    p.member = q.member ↔ p.id = q.id := by
  rw [member_of_anonymous hanonymous, member_of_anonymous hanonymous']
  constructor
  · intro hsame
    have htexts := congrArg String.toList hsame
    simp only [String.toList_append] at htexts
    exact Id.text_injective hp hq (String.toList_inj.mp (List.append_cancel_left htexts))
  · intro hid
    rw [hid]

/-- Two connections count as the same member exactly if they are named by the same user, or one of
them, being named, bears the anonymous name of the other. -/
theorem member_eq_iff (hp : p.id.random < Nat.pow 2 122) (hq : q.id.random < Nat.pow 2 122)
    (hid : p.id ≠ q.id) :
    p.member = q.member ↔
      (p.isAnonymous = false ∧ q.isAnonymous = false ∧ p.user = q.user) ∨
        p.PosesAs q ∨ q.PosesAs p := by
  cases hanonymous : p.isAnonymous with
  | false =>
      cases hanonymous' : q.isAnonymous with
      | false => simp [PosesAs, hanonymous, hanonymous', member_of_named]
      | true => simp [PosesAs, hanonymous, hanonymous', member_of_named]
  | true =>
      cases hanonymous' : q.isAnonymous with
      | false => simp [PosesAs, hanonymous, hanonymous', member_of_named, eq_comm]
      | true =>
          simp [PosesAs, hanonymous, hanonymous',
            member_inj_of_anonymous hp hq hanonymous hanonymous', hid]

end Peer

/-- Connections with ids of their own, each of 122 bits. -/
structure Distinct (peers : List Peer) : Prop where
  apart : (peers.map Peer.id).Nodup
  wide : ∀ p ∈ peers, p.id.random < Nat.pow 2 122

/-- No named connection poses as an anonymous one. -/
def Honest (peers : List Peer) : Prop := ∀ p ∈ peers, ∀ q ∈ peers, ¬ p.PosesAs q

instance (peers : List Peer) : Decidable (Honest peers) :=
  inferInstanceAs (Decidable (∀ p ∈ peers, ∀ q ∈ peers, ¬ p.PosesAs q))

def namedUsers (peers : List Peer) : List String :=
  (peers.filter fun p => !p.isAnonymous).map Peer.user

def anonymousPeers (peers : List Peer) : List Peer := peers.filter Peer.isAnonymous

section Peers

variable {peers : List Peer}

theorem mem_namedUsers {user : String} :
    user ∈ namedUsers peers ↔ ∃ p ∈ peers, p.isAnonymous = false ∧ p.user = user := by
  simp [namedUsers, and_assoc]

theorem mem_anonymousPeers {p : Peer} :
    p ∈ anonymousPeers peers ↔ p ∈ peers ∧ p.isAnonymous = true := by
  simp [anonymousPeers]

theorem Distinct.eq_of_id (hdistinct : Distinct peers) {p q : Peer} (hp : p ∈ peers)
    (hq : q ∈ peers) (hid : p.id = q.id) : p = q :=
  List.inj_on_of_nodup_map hdistinct.apart hp hq hid

theorem Distinct.id_ne_of_posesAs (hdistinct : Distinct peers) {p q : Peer} (hp : p ∈ peers)
    (hq : q ∈ peers) (hposes : p.PosesAs q) : p.id ≠ q.id := by
  intro hid
  obtain ⟨hnamed, hanonymous, -⟩ := hposes
  rw [hdistinct.eq_of_id hp hq hid, hanonymous] at hnamed
  cases hnamed

theorem card_toFinset_eq (members : List String) :
    members.eraseDups.length = members.toFinset.card := by
  induction hlength : members.length using Nat.strongRecOn generalizing members with
  | ind n ih =>
      cases members with
      | nil => rfl
      | cons member others =>
          have hshorter : (others.filter fun other => !other == member).length < n := by
            have hle := List.length_filter_le (fun other => !other == member) others
            simp only [List.length_cons] at hlength
            omega
          have hmembers : (member :: others).toFinset =
              insert member (others.filter fun other => !other == member).toFinset := by
            ext other
            by_cases hsame : other = member <;> simp [hsame]
          rw [List.eraseDups_cons, List.length_cons, ih _ hshorter _ rfl, hmembers,
            Finset.card_insert_of_notMem (by simp)]

/-- Anonymous connections count as often as there are any. -/
theorem Distinct.card_anonymousPeers (hdistinct : Distinct peers) :
    ((anonymousPeers peers).map Peer.member).toFinset.card = (anonymousPeers peers).length := by
  rw [List.toFinset_card_of_nodup, List.length_map]
  refine (List.nodup_map_iff_inj_on ?_).mpr fun p hp q hq hsame => ?_
  · exact (List.Nodup.of_map _ hdistinct.apart).filter _
  · obtain ⟨hp, hanonymous⟩ := mem_anonymousPeers.mp hp
    obtain ⟨hq, hanonymous'⟩ := mem_anonymousPeers.mp hq
    have hid := (Peer.member_inj_of_anonymous (hdistinct.wide p hp) (hdistinct.wide q hq) hanonymous
      hanonymous').mp hsame
    exact hdistinct.eq_of_id hp hq hid

/-- The members are the names and what the anonymous connections count as. -/
theorem toFinset_members (peers : List Peer) : (peers.map Peer.member).toFinset =
    (namedUsers peers).toFinset ∪ ((anonymousPeers peers).map Peer.member).toFinset := by
  ext member
  simp only [List.mem_toFinset, Finset.mem_union, List.mem_map, mem_namedUsers, mem_anonymousPeers]
  constructor
  · rintro ⟨p, hp, rfl⟩
    cases hanonymous : p.isAnonymous with
    | false => exact .inl ⟨p, hp, hanonymous, (Peer.member_of_named hanonymous).symm⟩
    | true => exact .inr ⟨p, ⟨hp, hanonymous⟩, rfl⟩
  · rintro (⟨p, hp, hnamed, rfl⟩ | ⟨p, ⟨hp, -⟩, rfl⟩)
    · exact ⟨p, hp, Peer.member_of_named hnamed⟩
    · exact ⟨p, hp, rfl⟩

/-- Nobody poses as another exactly if no user id is an anonymous name. -/
theorem honest_iff_disjoint (peers : List Peer) : Honest peers ↔
    (namedUsers peers).toFinset ∩ ((anonymousPeers peers).map Peer.member).toFinset = ∅ := by
  simp only [Finset.eq_empty_iff_forall_notMem, Finset.mem_inter, List.mem_toFinset, List.mem_map,
    mem_namedUsers, mem_anonymousPeers, not_and, not_exists]
  constructor
  · rintro hhonest _ ⟨p, hp, hnamed, rfl⟩ q ⟨hq, hanonymous⟩ hsame
    exact hhonest p hp q hq ⟨hnamed, hanonymous, hsame.symm⟩
  · rintro hapart p hp q hq ⟨hnamed, hanonymous, hsame⟩
    exact hapart p.user ⟨p, hp, hnamed, rfl⟩ q ⟨hq, hanonymous⟩ hsame.symm

/-- The members are as many as the named users and the anonymous connections together exactly if
nobody poses as another. -/
theorem Distinct.unique_iff (hdistinct : Distinct peers) :
    (peers.map Peer.member).eraseDups.length =
      (namedUsers peers).eraseDups.length + (anonymousPeers peers).length ↔ Honest peers := by
  have hcounts := Finset.card_union_add_card_inter (namedUsers peers).toFinset
    ((anonymousPeers peers).map Peer.member).toFinset
  rw [honest_iff_disjoint, ← Finset.card_eq_zero, card_toFinset_eq, card_toFinset_eq,
    toFinset_members, ← hdistinct.card_anonymousPeers]
  omega

theorem Distinct.member_iff (hdistinct : Distinct peers) :
    (∀ p ∈ peers, ∀ q ∈ peers, p.id ≠ q.id → (p.member = q.member ↔
      p.isAnonymous = false ∧ q.isAnonymous = false ∧ p.user = q.user)) ↔ Honest peers := by
  constructor
  · intro hlaw p hp q hq hposes
    have hid := hdistinct.id_ne_of_posesAs hp hq hposes
    obtain ⟨hnamed, hanonymous, hsame⟩ := hposes
    have hmembers : p.member = q.member := (Peer.member_of_named hnamed).trans hsame
    have hboth := ((hlaw p hp q hq hid).mp hmembers).2.1
    rw [hanonymous] at hboth
    cases hboth
  · intro hhonest p hp q hq hid
    rw [Peer.member_eq_iff (hdistinct.wide p hp) (hdistinct.wide q hq) hid]
    simp [hhonest p hp q hq, hhonest q hq p hp]

/-- Whether the joins and leaves of a connection leave the score of another one alone. -/
def KeepsScore (q p : Peer) : Prop := ∀ store : Presence.Store,
  (store.join q.member).2.score? p.member = store.score? p.member ∧
    (store.leave q.member).2.score? p.member = store.score? p.member

theorem keepsScore_iff (p q : Peer) : KeepsScore q p ↔ p.member ≠ q.member := by
  constructor
  · intro hkeeps hsame
    have hjoined := (hkeeps .empty).1
    rw [Presence.Store.score?_join, if_pos hsame] at hjoined
    cases hjoined
  · intro hother store
    rw [Presence.Store.score?_join, Presence.Store.score?_leave, if_neg hother, if_neg hother]
    exact ⟨rfl, rfl⟩

/-- Anonymous connections keep their scores to themselves exactly if nobody poses as another. -/
theorem Distinct.keepsScore_iff (hdistinct : Distinct peers) :
    (∀ p ∈ peers, p.isAnonymous = true → ∀ q ∈ peers, q.id ≠ p.id → KeepsScore q p) ↔
      Honest peers := by
  simp only [Connection.keepsScore_iff]
  constructor
  · intro hlaw q hq p hp hposes
    have hid := hdistinct.id_ne_of_posesAs hq hp hposes
    obtain ⟨hnamed, hanonymous, hsame⟩ := hposes
    exact hlaw p hp hanonymous q hq hid (hsame.symm.trans (Peer.member_of_named hnamed).symm)
  · intro hhonest p hp hanonymous q hq hid hsame
    have hcases :=
      (Peer.member_eq_iff (hdistinct.wide q hq) (hdistinct.wide p hp) hid).mp hsame.symm
    simp [hhonest p hp q hq, hhonest q hq p hp, hanonymous] at hcases

end Peers

namespace Hub

def listed (h : Hub) : List Peer := h.registered.filterMap fun i => h.peers[i]?

theorem uniqueUsers_eq (h : Hub) : h.uniqueUsers = (h.listed.map Peer.member).eraseDups.length := by
  simp [uniqueUsers, members, listed, List.map_filterMap]

/-- Among connections with ids of their own no two count as one unless both are named alike, the
number of unique users is that of the names and of the anonymous connections together, and nobody
but an anonymous connection itself changes its score: each of the three exactly if nobody poses as
an anonymous connection. -/
theorem countsApart_iff (h : Hub) (hdistinct : Distinct h.listed) :
    ((∀ p ∈ h.listed, ∀ q ∈ h.listed, p.id ≠ q.id → (p.member = q.member ↔
      p.isAnonymous = false ∧ q.isAnonymous = false ∧ p.user = q.user)) ↔ Honest h.listed) ∧
    (h.uniqueUsers = (namedUsers h.listed).eraseDups.length + (anonymousPeers h.listed).length ↔
      Honest h.listed) ∧
    ((∀ p ∈ h.listed, p.isAnonymous = true → ∀ q ∈ h.listed, q.id ≠ p.id → KeepsScore q p) ↔
      Honest h.listed) := by
  rw [uniqueUsers_eq]
  exact ⟨hdistinct.member_iff, hdistinct.unique_iff, hdistinct.keepsScore_iff⟩

def ofUsers (users : List String) : Hub :=
  users.foldl (fun h user => (h.connect user 1).add h.peers.length) (create defaultTimeout)

/-- Two anonymous connections and two of one user. -/
theorem countsApart_guests : Distinct (ofUsers ["", "alice", "", "alice"]).listed ∧
    Honest (ofUsers ["", "alice", "", "alice"]).listed ∧
    (ofUsers ["", "alice", "", "alice"]).uniqueUsers =
      (namedUsers (ofUsers ["", "alice", "", "alice"]).listed).eraseDups.length +
        (anonymousPeers (ofUsers ["", "alice", "", "alice"]).listed).length := by
  have hdistinct : Distinct (ofUsers ["", "alice", "", "alice"]).listed := ⟨by decide, by decide⟩
  have hhonest : Honest (ofUsers ["", "alice", "", "alice"]).listed := by decide
  exact ⟨hdistinct, hhonest, (countsApart_iff _ hdistinct).2.1.mpr hhonest⟩

end Hub

/-- The name under which the anonymous connection with the number zero for its id counts. -/
def posing : String := "anonymous:00000000-0000-4000-8000-000000000000"

/-- A client that poses as an anonymous connection is let in. The two are distinct but count as
one. -/
theorem posing_counts_as_anonymous :
    UserId.validate posing 128 = .ok posing ∧ Distinct (Hub.ofUsers ["", posing]).listed ∧
      (Hub.ofUsers ["", posing]).members = [posing, posing] ∧
      (Hub.ofUsers ["", posing]).uniqueUsers = 1 ∧
      (namedUsers (Hub.ofUsers ["", posing]).listed).eraseDups.length +
        (anonymousPeers (Hub.ofUsers ["", posing]).listed).length = 2 :=
  ⟨rfl, ⟨by decide, by decide⟩, by decide, by decide, by decide⟩

end Rollcall.Connection
