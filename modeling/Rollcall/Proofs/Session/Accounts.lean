import Rollcall.Proofs.Presence.Tally
import Rollcall.Proofs.Session.Advance

/-!
Accounts.

Every deed is done once for its connection and entered once into the ledger. So the store and the
counters can be read off the deeds: the store tells who has joined and not left, and the counters
tell how many connections were opened and closed (`Run.balanced`).
-/

namespace Rollcall.Session

/-- From one state of a connection and the site to another, the deeds done for `member` in between
were entered into the ledger. -/
def Enters (member : String) (before after : Conn × Instance) : Prop :=
  ∃ fresh, after.1.deeds = before.1.deeds ++ fresh ∧
    after.2.ledger = fresh.foldl (Ledger.enter member) before.2.ledger

namespace Enters

variable {member : String} {c c' : Conn} {s s' : Instance} {a b r : Conn × Instance}

theorem nothing (hdeeds : b.1.deeds = a.1.deeds) (hledger : b.2.ledger = a.2.ledger) :
    Enters member a b := ⟨[], by simpa using hdeeds, hledger⟩

theorem one (deed : Deed) (hdeeds : b.1.deeds = a.1.deeds ++ [deed])
    (hledger : b.2.ledger = a.2.ledger.enter member deed) : Enters member a b :=
  ⟨[deed], hdeeds, hledger⟩

theorem trans (hab : Enters member a b) (hbr : Enters member b r) : Enters member a r := by
  obtain ⟨first, hdeeds, hledger⟩ := hab
  obtain ⟨second, hdeeds', hledger'⟩ := hbr
  refine ⟨first ++ second, ?_, ?_⟩
  · rw [hdeeds', hdeeds, List.append_assoc]
  · rw [hledger', hledger, List.foldl_append]

theorem deregister (i : Nat) (hdeeds : c'.deeds = c.deeds) (hledger : s'.ledger = s.ledger) :
    Enters member (c, s) (c'.deregister i s') := by
  refine one .closed (by simp [Conn.deregister, Conn.note, hdeeds]) ?_
  simp only [Ledger.enter, ← hledger]
  rfl

theorem announceEnd (s₁ : Instance) (hdeeds : c'.deeds = c.deeds) (hledger : s'.ledger = s.ledger) :
    Enters member (c, s) (c'.announceEnd s₁, s') := by
  unfold Conn.announceEnd
  split
  · exact nothing hdeeds hledger
  · exact one .announced (by simp [Conn.note, hdeeds]) hledger

theorem of_drop {i : Nat} {runtime : Bool} (hmove : DropMove i c s runtime r) :
    Enters member (c, s) r := by
  cases hmove with
  | unpolled => exact nothing rfl rfl
  | undo s' howner haside => exact (deregister i rfl haside.ledger).trans (nothing rfl rfl)
  | late => exact nothing rfl rfl

theorem of_owner {i : Nat} (hmove : OwnerMove i c s r) :
    Enters (Conn.member s i) (c, s) r := by
  cases hmove with
  | drop => exact of_drop (c.drop_move i s true)
  | start => exact one .opened rfl rfl
  | join call score presence howner hpassed hfinish =>
      exact one .joined rfl (Instance.finishJoin_ledger hfinish).2
  | miss call failure presence howner hpassed hfinish =>
      exact nothing rfl (Instance.finishJoin_ledger hfinish).2
  | work c' s' hopen hstays hkeeps haside => exact nothing hkeeps.deeds haside.ledger
  | finish c' s' reason hopen hkeeps howner hcleanup haside =>
      exact nothing hkeeps.deeds haside.ledger
  | part s' reason deadline howner hdone hspares => exact nothing rfl hspares.ledger
  | stop => exact nothing rfl rfl

theorem undo (registered : Bool) (i : Nat) : Enters member (c, s) (c.undo registered i s) := by
  cases registered with
  | true => exact deregister i rfl rfl
  | false => exact nothing rfl rfl

/-- The deeds of a turn of a cleanup are entered into the ledger under the connection's member. -/
theorem of_cleanup {i : Nat} (hmove : CleanupMove i c s r) :
    Enters (Conn.member s i) (c, s) r := by
  cases hmove with
  | leave registered => exact (undo registered i).trans (one .leaveAsked rfl rfl)
  | skip registered => exact (undo registered i).trans (announceEnd _ rfl rfl)
  | left call score presence hcleanup hdue hpassed hfinish =>
      have hleft : Enters (Conn.member s i) (c, s) (c.note .left, { s with presence }) :=
        one .left rfl (Instance.finishLeave_ledger hfinish).2
      exact hleft.trans (announceEnd _ rfl rfl)
  | fail call failure presence hcleanup hdue hpassed hfinish =>
      exact announceEnd _ rfl (Instance.finishLeave_ledger hfinish).2
  | announce a b s' hcleanup hspares => exact nothing rfl hspares.ledger
  | done a s' hcleanup hspares => exact nothing rfl hspares.ledger

end Enters

/-- The members of the connections, each with what was done for it. -/
structure Books where
  accounts : List (String × List Deed)
  ledger : Ledger

/-- One event adds the deeds of one connection, adds a connection or adds nothing. -/
inductive Books.Step (b : Books) : Books → Prop where
  | same : Step b b
  | enter (i : Nat) (member : String) (done fresh : List Deed)
      (haccount : b.accounts[i]? = some (member, done)) :
      Step b ⟨b.accounts.set i (member, done ++ fresh),
        fresh.foldl (Ledger.enter member) b.ledger⟩
  | newcomer (member : String) : Step b ⟨b.accounts ++ [(member, [])], b.ledger⟩

namespace World

def accounts (w : World) : List (String × List Deed) :=
  w.conns.mapIdx fun i c => (Conn.member w.site i, c.deeds)

def books (w : World) : Books := ⟨w.accounts, w.site.ledger⟩

theorem accounts_congr {w w' : World} (hconns : w'.conns.map Conn.deeds = w.conns.map Conn.deeds)
    (hnames : w'.site.hub.names = w.site.hub.names) : w'.accounts = w.accounts := by
  apply List.ext_getElem?
  intro i
  have hdeeds := congrArg (fun deeds => deeds[i]?) hconns
  simp only [List.getElem?_map] at hdeeds
  simp only [accounts, List.getElem?_mapIdx, Conn.member_eq hnames]
  cases hc : w.conns[i]? <;> cases hc' : w'.conns[i]? <;> simp_all

theorem getElem?_accounts {w : World} {i : Nat} {c : Conn} (hconn : w.conns[i]? = some c) :
    w.accounts[i]? = some (Conn.member w.site i, c.deeds) := by
  simp [accounts, hconn]

/-- What a task enters for its connection is a step of the books. -/
theorem books_put {w : World} {i : Nat} {c : Conn} {r : Conn × Instance}
    (hconn : w.conns[i]? = some c) (hothers : w.site.Others i r.2)
    (henters : Enters (Conn.member w.site i) (c, w.site) r) : w.books.Step (w.put i r).books := by
  obtain ⟨fresh, hdeeds, hledger⟩ := henters
  have haccounts : (w.put i r).accounts =
      w.accounts.set i (Conn.member w.site i, c.deeds ++ fresh) := by
    rw [← hdeeds]
    simp only [accounts, put, List.mapIdx_set, Conn.member_eq hothers.names]
  have hbooks : (w.put i r).books =
      ⟨w.accounts.set i (Conn.member w.site i, c.deeds ++ fresh),
        fresh.foldl (Ledger.enter (Conn.member w.site i)) w.site.ledger⟩ := by
    rw [books, haccounts]
    exact congrArg (Books.mk _) hledger
  rw [hbooks]
  exact .enter i _ c.deeds fresh (getElem?_accounts hconn)

/-- A new connection opens an account without deeds. -/
theorem accounts_connect {w : World} (hsizes : w.site.hub.peers.length = w.conns.length)
    (user : String) (input : Input) (output : Output) :
    (w.connect user input output).2.accounts = w.accounts ++
      [(Conn.member (w.connect user input output).2.site w.conns.length, [])] := by
  -- the new peer stands behind the others, whose members stay
  have hmember (i : Nat) (hi : i < w.conns.length) :
      Conn.member (w.connect user input output).2.site i = Conn.member w.site i := by
    simp [Conn.member, connect, Instance.mapHub, Connection.Hub.connect, List.getElem?_append,
      hsizes, hi]
  have holder : w.conns.mapIdx (fun i c =>
      (Conn.member (w.connect user input output).2.site i, c.deeds)) = w.accounts :=
    List.mapIdx_eq_mapIdx_iff.mpr fun i hi => by rw [hmember i hi]
  rw [← holder]
  exact List.mapIdx_concat

/-- Every advance is a step of the books. -/
theorem books_step {w w' : World} {e : Event} (hsizes : w.site.hub.peers.length = w.conns.length)
    (hadvance : Advance w e w') : w.books.Step w'.books := by
  cases hadvance with
  | owner i c r hconn hmove => exact books_put hconn hmove.others (.of_owner hmove)
  | writer i c r hconn howner hkeeps hspares =>
      exact books_put hconn (hspares.aside i).toOthers (.nothing hkeeps.deeds hspares.ledger)
  | cleanup i c r hconn hmove => exact books_put hconn hmove.others (.of_cleanup hmove)
  | orphan i c r hconn hmove => exact books_put hconn hmove.others (.of_drop hmove)
  | outside e i change howner hkeeps =>
      have haccounts : (w.mapConn i change).accounts = w.accounts :=
        accounts_congr (Connection.map_modify w.conns i change Conn.deeds fun c => (hkeeps c).deeds)
          rfl
      have hbooks : (w.mapConn i change).books = w.books := by
        rw [books, haccounts]
        rfl
      rw [hbooks]
      exact .same
  | connect user input output =>
      have hbooks : (w.connect user input output).2.books =
          ⟨w.accounts ++ [(Conn.member (w.connect user input output).2.site w.conns.length, [])],
            w.site.ledger⟩ := by
        rw [books, accounts_connect hsizes]
        rfl
      rw [hbooks]
      exact .newcomer _
  | spare e w' hspares =>
      have haccounts : w'.accounts = w.accounts :=
        accounts_congr (by rw [hspares.conns]) hspares.names
      have hbooks : w'.books = w.books := by simp only [books, haccounts, hspares.ledger]
      rw [hbooks]
      exact .same

end World

/-- Whether a join took effect whose leave has not. -/
def isPresent (deeds : List Deed) : Bool := deeds.contains .joined && !deeds.contains .left

def presentIn (accounts : List (String × List Deed)) : List String :=
  (accounts.filter fun a => isPresent a.2).map Prod.fst

namespace Books

/-- The ledger tells what the accounts say. -/
structure Balanced (b : Books) : Prop where
  store : b.ledger.store.Tallies (presentIn b.accounts)
  opened : b.ledger.opened = b.accounts.countP fun a => a.2.contains .opened
  closed : b.ledger.closed = b.accounts.countP fun a => a.2.contains .closed

/-- A member occurs among the present once for each of its connections that has joined and not
left. -/
theorem count_presentIn (accounts : List (String × List Deed)) (member : String) :
    (presentIn accounts).count member =
      accounts.countP fun a => a.1 == member && isPresent a.2 := by
  simp only [presentIn, List.count, List.countP_map, List.countP_filter]
  rfl

/-- Where one account is replaced, a count changes by what the account itself counts for. -/
theorem countP_set_add {α : Type} (p : α → Bool) (new : α) {items : List α} {i : Nat} {old : α}
    (hold : items[i]? = some old) :
    (items.set i new).countP p + (p old).toNat = items.countP p + (p new).toNat := by
  obtain ⟨hbound, rfl⟩ := List.getElem?_eq_some_iff.mp hold
  have hset := List.countP_set (p := p) (a := new) hbound
  have hpos : p items[i] = true → 0 < items.countP p := fun hp =>
    List.countP_pos_iff.mpr ⟨_, List.getElem_mem hbound, hp⟩
  cases hp : p items[i] <;> cases hq : p new <;> simp_all

/-- In an orderly list of deeds none is done twice. -/
theorem orderly_last {done : List Deed} {deed : Deed} (horderly : Orderly (done ++ [deed])) :
    deed ∉ done := by
  have hdistinct : (done ++ [deed]).Nodup := horderly.course.nodup (by decide)
  exact fun hmem => (List.nodup_append.mp hdistinct).2.2 deed hmem deed (by simp) rfl

/-- What comes before a deed in the course has been done before it. -/
theorem mem_earlier {done fresh : List Deed} {first second : Deed}
    (hcourse : (done ++ fresh).Sublist Deed.course) (hfirst : first ∈ done ++ fresh)
    (hsecond : second ∈ done) (horder : ¬ [second, first].Sublist Deed.course) : first ∈ done := by
  rcases List.mem_append.mp hfirst with hdone | hfresh
  · exact hdone
  · have hpair : [second, first].Sublist (done ++ fresh) :=
      (List.singleton_sublist.mpr hsecond).append (List.singleton_sublist.mpr hfresh)
    exact absurd (hpair.trans hcourse) horder

theorem orderly_earlier {done fresh : List Deed} (horderly : Orderly (done ++ fresh)) :
    Orderly done where
  course := (List.sublist_append_left done fresh).trans horderly.course
  closed hclosed :=
    mem_earlier horderly.course (horderly.closed (List.mem_append_left _ hclosed)) hclosed
      (by decide)
  asked hasked := by
    obtain ⟨hjoined, hclosed⟩ := horderly.asked (List.mem_append_left _ hasked)
    exact ⟨mem_earlier horderly.course hjoined hasked (by decide),
      mem_earlier horderly.course hclosed hasked (by decide)⟩
  left hleft :=
    mem_earlier horderly.course (horderly.left (List.mem_append_left _ hleft)) hleft (by decide)

theorem toNat_contains {done : List Deed} {deed : Deed} (hnew : deed ∉ done) (other : Deed) :
    ((done ++ [deed]).contains other).toNat =
      (done.contains other).toNat + if deed = other then 1 else 0 := by
  by_cases hsame : deed = other
  · subst hsame
    simp [hnew]
  · simp [hsame, Ne.symm hsame]

/-- A join makes present, a leave makes absent, and no other deed does either. -/
theorem isPresent_append {done : List Deed} {deed : Deed} (horderly : Orderly (done ++ [deed])) :
    (isPresent (done ++ [deed])).toNat + (if deed = .left then 1 else 0) =
      (isPresent done).toNat + if deed = .joined then 1 else 0 := by
  have hnew := orderly_last horderly
  have hleft : deed = .joined → .left ∉ done := fun hdeed hmem =>
    hnew (hdeed ▸ ((orderly_earlier horderly).asked ((orderly_earlier horderly).left hmem)).1)
  have hjoined : deed = .left → .joined ∈ done := fun hdeed => by
    subst hdeed
    have hasked := horderly.left (by simp)
    exact mem_earlier horderly.course (horderly.asked hasked).1
      (mem_earlier horderly.course hasked (by simpa using hasked) (by decide)) (by decide)
  cases deed <;> simp_all [isPresent]

variable {accounts : List (String × List Deed)} {ledger : Ledger} {i : Nat} {member : String}
  {done : List Deed}

/-- One deed, done and entered, keeps the balance. -/
theorem Balanced.enter (hbalanced : Balanced ⟨accounts, ledger⟩) (deed : Deed)
    (haccount : accounts[i]? = some (member, done)) (horderly : Orderly (done ++ [deed])) :
    Balanced ⟨accounts.set i (member, done ++ [deed]), ledger.enter member deed⟩ := by
  -- one account is replaced, so every count changes by what this deed adds to that account
  have hset (p : String × List Deed → Bool) := countP_set_add p (member, done ++ [deed]) haccount
  have hcontains := toNat_contains (orderly_last horderly)
  have hpresent := isPresent_append horderly
  have hcount (other : String) :
      (presentIn (accounts.set i (member, done ++ [deed]))).count other +
          (if other = member ∧ deed = .left then 1 else 0) =
        (presentIn accounts).count other + if other = member ∧ deed = .joined then 1 else 0 := by
    have hthis := hset fun a => a.1 == other && isPresent a.2
    rw [count_presentIn, count_presentIn]
    by_cases hsame : other = member
    · simp only [hsame, beq_self_eq_true, Bool.true_and, true_and] at hthis ⊢
      omega
    · have hother : (member == other) = false := beq_false_of_ne (Ne.symm hsame)
      simpa [hsame, hother] using hthis
  refine ⟨?_, ?_, ?_⟩
  · cases deed with
    | joined => exact hbalanced.store.join fun other => by simpa using hcount other
    | left => exact hbalanced.store.leave fun other => by simpa using (hcount other).symm
    | _ => exact hbalanced.store.of_count_eq fun other => by simpa using hcount other
  · have hopened := hset fun a => a.2.contains .opened
    have hentered : (ledger.enter member deed).opened =
        ledger.opened + if deed = .opened then 1 else 0 := by
      cases deed <;> rfl
    have hbefore := hbalanced.opened
    have hthis := hcontains .opened
    simp only at hopened hbefore ⊢
    omega
  · have hclosed := hset fun a => a.2.contains .closed
    have hentered : (ledger.enter member deed).closed =
        ledger.closed + if deed = .closed then 1 else 0 := by
      cases deed <;> rfl
    have hbefore := hbalanced.closed
    have hthis := hcontains .closed
    simp only at hclosed hbefore ⊢
    omega

theorem Balanced.enterAll (hbalanced : Balanced ⟨accounts, ledger⟩) (fresh : List Deed)
    (haccount : accounts[i]? = some (member, done)) (horderly : Orderly (done ++ fresh)) :
    Balanced
      ⟨accounts.set i (member, done ++ fresh), fresh.foldl (Ledger.enter member) ledger⟩ := by
  -- the account grows deed by deed, so what was done before must be general
  induction fresh generalizing accounts ledger done with
  | nil =>
      obtain ⟨hbound, hitem⟩ := List.getElem?_eq_some_iff.mp haccount
      simpa [← hitem] using hbalanced
  | cons deed rest ih =>
      have hsplit : done ++ deed :: rest = done ++ [deed] ++ rest := by simp
      rw [hsplit] at horderly ⊢
      have hone := hbalanced.enter deed haccount (orderly_earlier horderly)
      have hbound := (List.getElem?_eq_some_iff.mp haccount).1
      simpa using ih hone (by simp [hbound]) horderly

/-- Every step of the books to orderly accounts keeps the balance. -/
theorem Step.balanced {b b' : Books} (hstep : b.Step b') (horderly : ∀ a ∈ b'.accounts, Orderly a.2)
    (hbalanced : b.Balanced) : b'.Balanced := by
  cases hstep with
  | same => exact hbalanced
  | enter i member done fresh haccount =>
      have hbound := (List.getElem?_eq_some_iff.mp haccount).1
      exact hbalanced.enterAll fresh haccount
        (horderly (member, done ++ fresh) (List.mem_iff_getElem?.mpr ⟨i, by simp [hbound]⟩))
  | newcomer member =>
      refine ⟨?_, ?_, ?_⟩
      · refine hbalanced.store.of_count_eq fun other => ?_
        simp [presentIn, isPresent]
      · simpa using hbalanced.opened
      · simpa using hbalanced.closed

end Books

/-- Who is present: the member of every connection whose join took effect and whose leave has
not. -/
def World.present (w : World) : List String := presentIn w.accounts

theorem World.Sound.orderly {orphans : Prop} {w : World} (hsound : w.Sound orphans) :
    ∀ a ∈ w.accounts, Orderly a.2 := by
  intro a ha
  obtain ⟨i, hbound, rfl⟩ := List.mem_mapIdx.mp ha
  exact (hsound.conns i _ (List.getElem?_eq_getElem hbound)).recorded.orderly

theorem World.countP_accounts (w : World) (p : List Deed → Bool) :
    (w.accounts.countP fun a => p a.2) = w.conns.countP fun c => p c.deeds := by
  have hdeeds : w.accounts.map Prod.snd = w.conns.map Conn.deeds :=
    List.ext_getElem? fun i => by simp [World.accounts, Function.comp_def]
  calc (w.accounts.countP fun a => p a.2) = (w.accounts.map Prod.snd).countP p := by
        rw [List.countP_map]
        rfl
    _ = w.conns.countP fun c => p c.deeds := by
        rw [hdeeds, List.countP_map]
        rfl

/-- At the end of every run from a balanced world the ledger tells what was done. -/
theorem Run.balanced {may : Event → Prop} {v w : World} (run : Run may v w)
    (hsound : v.Sound True) (hbalanced : v.books.Balanced) :
    w.Sound True ∧ w.books.Balanced := by
  have hkept (e : Event) (u u' : World) (_ : may e) (hafter : u.after e = some u')
      (hbefore : u.Sound True ∧ u.books.Balanced) : u'.Sound True ∧ u'.books.Balanced := by
    have hadvance := World.after_advance hafter
    have hlater := hbefore.1.of_advance (fun _ _ => trivial) hadvance
    exact ⟨hlater, (World.books_step hbefore.1.sizes hadvance).balanced hlater.orderly hbefore.2⟩
  exact run.invariant hkept ⟨hsound, hbalanced⟩

/-- At first nobody is present, and nothing is counted. -/
theorem World.balanced_create (policy : MessagePolicy) (buffer sendTimeout : Nat) :
    (World.create (Instance.create policy buffer sendTimeout)).books.Balanced :=
  ⟨Presence.Store.Tallies.empty, rfl, rfl⟩

end Rollcall.Session
