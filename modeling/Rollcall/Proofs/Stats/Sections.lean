import Mathlib.Data.List.Basic
import Rollcall.Stats.Snapshot

/-!
The sections of a snapshot.

Each collaborator is read by a call of its own that may give a value, fail, be late or never return.
A value shows exactly if it came in time (`Truthful`), and what one collaborator does shows in no
section but its own (`Isolated`), whatever the others do.
-/

namespace Rollcall

namespace Course

variable {ε α β : Type} {c : Course (Except ε α)} {limit : Nat} {value : α}

/-- The call gives this value within the limit. -/
def Gives (c : Course (Except ε α)) (limit : Nat) (value : α) : Prop :=
  ∃ wait, c = .returns wait (.ok value) ∧ wait ≤ limit

def Succeeds (c : Course (Except ε α)) (limit : Nat) : Prop := ∃ value, c.Gives limit value

/-- The field shows what the call gives in time, and the placeholder if it gives nothing. -/
structure Shown (c : Course (Except ε α)) (limit : Nat) (render : α → β) (placeholder : β)
    (field : β) : Prop where
  value : ∀ value, c.Gives limit value → field = render value
  placeholder : ¬ c.Succeeds limit → field = placeholder

/-- The outcome of a call that is given up with a failure at the limit. -/
theorem toOption_getD_within? (failure : ε) :
    ((c.within? limit).getD (.error failure)).toOption = some value ↔ c.Gives limit value := by
  cases c with
  | never => simp [within?, Gives, Except.toOption]
  | returns wait result =>
      unfold within? Gives
      by_cases hle : wait ≤ limit
      all_goals
        cases result <;> simp [Except.toOption, hle]

theorem toBool_getD_within? (failure : ε) :
    ((c.within? limit).getD (.error failure)).toBool = true ↔ c.Succeeds limit := by
  unfold Succeeds
  simp only [← toOption_getD_within? failure]
  cases (c.within? limit).getD (.error failure) <;> simp [Except.toBool, Except.toOption]

theorem shown_getD (render : α → β) (placeholder : β) {outcome : Option α}
    (houtcome : ∀ value, outcome = some value ↔ c.Gives limit value) :
    c.Shown limit render placeholder ((outcome.map render).getD placeholder) where
  value value hgives := by rw [(houtcome value).mpr hgives]; rfl
  placeholder hnot := by
    cases outcome with
    | none => rfl
    | some value => exact absurd ⟨value, (houtcome value).mp rfl⟩ hnot

theorem shown_id (placeholder : α) {outcome : Option α}
    (houtcome : ∀ value, outcome = some value ↔ c.Gives limit value) :
    c.Shown limit id placeholder (outcome.getD placeholder) := by
  simpa using shown_getD id placeholder houtcome

theorem shown_some {outcome : Option α}
    (houtcome : ∀ value, outcome = some value ↔ c.Gives limit value) :
    c.Shown limit some none outcome where
  value value hgives := (houtcome value).mpr hgives
  placeholder hnot :=
    Option.eq_none_iff_forall_ne_some.mpr fun value hsome => hnot ⟨value, (houtcome value).mp hsome⟩

/-- Where nothing passes for the placeholder, the placeholder shows that the call gave nothing. -/
theorem getD_eq_placeholder {render : α → β} {placeholder : β}
    (hrender : ∀ value, render value ≠ placeholder) {outcome : Option α}
    (houtcome : ∀ value, outcome = some value ↔ c.Gives limit value) :
    (outcome.map render).getD placeholder = placeholder ↔ ¬ c.Succeeds limit := by
  cases outcome with
  | none =>
      refine iff_of_true rfl fun ⟨value, hgives⟩ => ?_
      cases (houtcome value).mpr hgives
  | some value =>
      exact iff_of_false (hrender value) (not_not_intro ⟨value, (houtcome value).mp rfl⟩)

end Course

namespace Stats

/-- Whether all went well is what the status tells. -/
def Status.Tells (status : Status) (ok : Prop) : Prop :=
  (status = .normal ↔ ok) ∧ (status = .degraded ↔ ¬ ok)

theorem Status.tells_ofOk {ok : Bool} {p : Prop} (hok : ok = true ↔ p) : (ofOk ok).Tells p := by
  rw [Tells, ← hok]
  cases ok <;> simp [ofOk]

/-- No duration reads like the placeholder. -/
theorem latency_ne_absent (d : Span) : latency d ≠ absent := by
  intro hsame
  have hlast := congrArg (fun text => text.toList.getLast?) hsame
  simp [latency, absent] at hlast

/-- A value is moved on by as many units as it fills, or to the last one. -/
theorem scaleUnits_spec (value : Nat) (unit : String) (units : List String) (hsome : 1 ≤ value) :
    ∃ k name, (unit :: units)[k]? = some name ∧
      scaleUnits value unit units = (value / Nat.pow 1024 k, name) ∧
      Nat.pow 1024 k ≤ value ∧ (value < Nat.pow 1024 (k + 1) ∨ k = units.length) := by
  induction units generalizing value unit with
  | nil => exact ⟨0, unit, rfl, by simp [scaleUnits], hsome, .inr rfl⟩
  | cons next rest ih =>
      by_cases hfills : 1024 ≤ value
      · obtain ⟨k, name, hname, hscaled, hfrom, hto⟩ :=
          ih (value / 1024) next (Nat.div_pos hfills (by decide))
        refine ⟨k + 1, name, hname, ?_, ?_, ?_⟩
        · rw [scaleUnits, if_pos hfills, hscaled, Nat.div_div_eq_div_mul, Nat.mul_comm]
          rfl
        · exact (Nat.le_div_iff_mul_le (by decide)).mp hfrom
        · rw [Nat.div_lt_iff_lt_mul (by decide)] at hto
          exact hto.imp_right fun hlast => congrArg (· + 1) hlast
      · refine ⟨0, unit, rfl, ?_, hsome, .inl (by simpa using hfills)⟩
        simp [scaleUnits, hfills]

/-- How a number of bytes reads: in whole ones of the largest unit that it fills. -/
def ReadsAs (bytes : Nat) (text : String) : Prop :=
  (bytes < 1024 ∧ text = "< 1KB") ∨
    ∃ k unit, ["KB", "MB", "GB", "TB"][k]? = some unit ∧ Nat.pow 1024 (k + 1) ≤ bytes ∧
      (bytes < Nat.pow 1024 (k + 2) ∨ unit = "TB") ∧
        text = toString (bytes / Nat.pow 1024 (k + 1)) ++ " " ++ unit

theorem readsAs_byteCount (bytes : Nat) : ReadsAs bytes (byteCount bytes) := by
  unfold byteCount
  split
  case isTrue hsmall => exact .inl ⟨hsmall, rfl⟩
  case isFalse hlarge =>
    have hfills : 1 ≤ bytes / 1024 := Nat.div_pos (Nat.le_of_not_lt hlarge) (by decide)
    obtain ⟨k, unit, hunit, hscaled, hfrom, hto⟩ :=
      scaleUnits_spec (bytes / 1024) "KB" ["MB", "GB", "TB"] hfills
    rw [Nat.div_lt_iff_lt_mul (by decide)] at hto
    refine .inr ⟨k, unit, hunit, (Nat.le_div_iff_mul_le (by decide)).mp hfrom,
      hto.imp_right fun hlast => ?_, ?_⟩
    · subst hlast
      exact (Option.some.inj hunit).symm
    · rw [hscaled, Nat.div_div_eq_div_mul, Nat.mul_comm]
      rfl

theorem ReadsAs.ne_absent {bytes : Nat} {text : String} (hreads : ReadsAs bytes text) :
    text ≠ absent := by
  rcases hreads with ⟨_, rfl⟩ | ⟨k, unit, hunit, _, _, rfl⟩
  · decide
  · have hmem := List.mem_of_getElem? hunit
    intro hsame
    have hlast := congrArg (fun text => text.toList.getLast?) hsame
    simp only [List.mem_cons, List.not_mem_nil, or_false] at hmem
    obtain rfl | rfl | rfl | rfl := hmem
    all_goals
      simp [absent] at hlast

/-- The cache section shows what the gauges give in time. -/
structure CacheSection.Shows (x : CacheSection) (g : CacheGauges) (limit : Nat)
    (patterns : List String) : Prop where
  latency : g.roundTrip.Shown limit Stats.latency absent x.latency
  latencyText : ∀ d, g.roundTrip.Gives limit d → x.latency = toString (d.nanos / 1000000) ++ "ms"
  /-- No latency reads as the placeholder. -/
  latencyAbsent : x.latency = absent ↔ ¬ g.roundTrip.Succeeds limit
  memory : g.usedMemory.Shown limit byteCount absent x.memory
  memoryText : ∀ bytes, g.usedMemory.Gives limit bytes → ReadsAs bytes x.memory
  memoryAbsent : x.memory = absent ↔ ¬ g.usedMemory.Succeeds limit
  keys : (g.cachedKeys patterns).Shown limit some none x.cachedKeys
  status : x.status.Tells (g.roundTrip.Succeeds limit ∧ g.usedMemory.Succeeds limit ∧
    (g.cachedKeys patterns).Succeeds limit)
  backend : x.backend = g.name

/-- The database section, and the views with their status, show what the gauges give in time. -/
structure Snapshot.ShowsDatabase (x : Snapshot) (g : DatabaseGauges) (limit : Nat) : Prop where
  status : x.database.status.Tells (g.ping.Succeeds limit)
  pool : x.database.pool = g.pool
  views : g.views.Shown limit id 0 x.basic.totalViews
  viewsStatus : x.basic.viewsStatus.Tells (g.views.Succeeds limit)

/-- A snapshot shows a value exactly if the call for it succeeded in time, and says where one did
not. -/
structure Truthful (s : Sources) (limit : Nat) (count : Course (Except Presence.Failure Nat))
    (x : Snapshot) : Prop where
  online : count.Shown limit id 0 x.basic.onlineUsers
  presence : x.basic.presenceStatus.Tells (count.Succeeds limit)
  cache : ∀ g, s.cache = some g → x.cache.Shows g limit s.patterns
  cacheDisabled : s.cache = none → x.cache = ⟨.disabled, "n/a", none, "none", "n/a"⟩
  database : ∀ g, s.database = some g → x.ShowsDatabase g limit
  databaseDisabled : s.database = none →
    x.database = ⟨.disabled, ⟨0, 0, 0, 0⟩⟩ ∧ x.basic.totalViews = 0 ∧
      x.basic.viewsStatus = .disabled
  service : x.serviceStatus.Tells
    (count.Succeeds limit ∧ ∀ g, s.database = some g → g.ping.Succeeds limit)
  others : x.latency = s.latency ∧ x.connections = s.connections ∧ x.backend = s.backend ∧
    x.host = s.host

/-- The snapshot that is made where the presence count goes this way. -/
def report (s : Sources) (limit : Nat) (t : Presence.Tracker)
    (count : Course (Except Presence.Failure Nat)) : Snapshot :=
  snapshot s limit (t.reading limit count).1

/-- What a collaborator does, or whether there is one, shows only in its own sections. What is known
of the process and its host may have changed in the meantime. -/
structure Isolated (s : Sources) (limit : Nat) (t : Presence.Tracker)
    (count : Course (Except Presence.Failure Nat)) (x : Snapshot) : Prop where
  cache : ∀ cache host y, y = report { s with cache, host } limit t count →
    y = { x with cache := y.cache, host := y.host }
  database : ∀ database host y, y = report { s with database, host } limit t count →
    y = { x with
      database := y.database
      basic := { x.basic with totalViews := y.basic.totalViews, viewsStatus := y.basic.viewsStatus }
      serviceStatus := y.serviceStatus
      host := y.host }
  presence : ∀ t' count' host y, y = report { s with host } limit t' count' →
    y = { x with
      basic := { x.basic with
        onlineUsers := y.basic.onlineUsers
        presenceStatus := y.basic.presenceStatus }
      serviceStatus := y.serviceStatus
      host := y.host }

variable {limit : Nat} {α : Type}

theorem toOption_bounded {course : GaugeCourse α} {value : α} :
    (bounded limit course).toOption = some value ↔ course.Gives limit value :=
  Course.toOption_getD_within? _

theorem toBool_bounded {course : GaugeCourse α} :
    (bounded limit course).toBool = true ↔ course.Succeeds limit :=
  Course.toBool_getD_within? _

theorem CacheGauges.latency_shown (g : CacheGauges) (limit : Nat) (patterns : List String) :
    g.roundTrip.Shown limit Stats.latency absent (g.read limit patterns).latency :=
  Course.shown_getD _ _ fun _ => toOption_bounded

theorem CacheGauges.memory_shown (g : CacheGauges) (limit : Nat) (patterns : List String) :
    g.usedMemory.Shown limit byteCount absent (g.read limit patterns).memory :=
  Course.shown_getD _ _ fun _ => toOption_bounded

theorem CacheGauges.shows_read (g : CacheGauges) (limit : Nat) (patterns : List String) :
    (g.read limit patterns).Shows g limit patterns where
  latency := g.latency_shown limit patterns
  latencyText d hgives := (g.latency_shown limit patterns).value d hgives
  latencyAbsent := Course.getD_eq_placeholder latency_ne_absent fun _ => toOption_bounded
  memory := g.memory_shown limit patterns
  memoryText bytes hgives := by
    rw [(g.memory_shown limit patterns).value bytes hgives]
    exact readsAs_byteCount bytes
  memoryAbsent := Course.getD_eq_placeholder (fun bytes => (readsAs_byteCount bytes).ne_absent)
    fun _ => toOption_bounded
  keys := Course.shown_some fun _ => toOption_bounded
  status := by
    apply Status.tells_ofOk
    simp only [Bool.and_eq_true, toBool_bounded, and_assoc]
  backend := rfl

theorem showsDatabase (s : Sources) (limit : Nat) (presence : Presence.Reading) {g : DatabaseGauges}
    (hdatabase : s.database = some g) : (snapshot s limit presence).ShowsDatabase g limit := by
  simp only [snapshot, databaseSection, hdatabase]
  exact {
    status := Status.tells_ofOk toBool_bounded
    pool := rfl
    views := Course.shown_id 0 fun _ => toOption_bounded
    viewsStatus := Status.tells_ofOk toBool_bounded }

/-- A reading of the presence store shows the count if it came in time. -/
theorem reading_eq (t : Presence.Tracker) (limit : Nat)
    (count : Course (Except Presence.Failure Nat)) :
    (t.reading limit count).1 =
      ⟨(Presence.Tracker.bounded limit count).toOption.getD 0,
        !(Presence.Tracker.bounded limit count).toBool⟩ := by
  unfold Presence.Tracker.reading Presence.Tracker.counted Presence.Tracker.absorb
  cases Presence.Tracker.bounded limit count <;> rfl

/-- The online figure of a reading is the count in time, or zero. -/
theorem online_shown (t : Presence.Tracker) (limit : Nat)
    (count : Course (Except Presence.Failure Nat)) :
    count.Shown limit id 0 (t.reading limit count).1.onlineUsers := by
  rw [reading_eq]
  exact Course.shown_id 0 fun _ => Course.toOption_getD_within? _

theorem not_degraded_iff (t : Presence.Tracker) (limit : Nat)
    (count : Course (Except Presence.Failure Nat)) :
    (!(t.reading limit count).1.degraded) = true ↔ count.Succeeds limit := by
  rw [reading_eq, Bool.not_not]
  exact Course.toBool_getD_within? _

/-- The database counts as failed if there is one and its ping did not succeed. -/
theorem database_not_degraded_iff (limit : Nat) (database : Option DatabaseGauges) :
    ((databaseSection limit database).1.status != .degraded) = true ↔
      ∀ g, database = some g → g.ping.Succeeds limit := by
  cases database with
  | none => simp [databaseSection]
  | some g =>
      have htells : (Status.ofOk (bounded limit g.ping).toBool).Tells (g.ping.Succeeds limit) :=
        Status.tells_ofOk toBool_bounded
      simp [databaseSection, htells.2]

theorem truthful_report (s : Sources) (limit : Nat) (t : Presence.Tracker)
    (count : Course (Except Presence.Failure Nat)) :
    Truthful s limit count (report s limit t count) where
  online := online_shown t limit count
  presence := Status.tells_ofOk (not_degraded_iff t limit count)
  cache g hcache := by
    simp only [report, snapshot, cacheSection, hcache]
    exact g.shows_read limit s.patterns
  cacheDisabled hnone := by
    simp only [report, snapshot, cacheSection, hnone]
    rfl
  database g hdatabase := showsDatabase s limit _ hdatabase
  databaseDisabled hnone := by
    simp [report, snapshot, databaseSection, hnone]
  service := by
    apply Status.tells_ofOk
    rw [Bool.and_eq_true, not_degraded_iff]
    exact and_congr_right' (database_not_degraded_iff limit s.database)
  others := ⟨rfl, rfl, rfl, rfl⟩

theorem isolated_report (s : Sources) (limit : Nat) (t : Presence.Tracker)
    (count : Course (Except Presence.Failure Nat)) :
    Isolated s limit t count (report s limit t count) where
  cache cache host y hy := by
    subst hy
    rfl
  database database host y hy := by
    subst hy
    rfl
  presence t' count' host y hy := by
    subst hy
    rfl

/-- In every snapshot each section tells the truth and stands for itself. -/
theorem report_truthful_isolated (s : Sources) (limit : Nat) (t : Presence.Tracker)
    (count : Course (Except Presence.Failure Nat)) :
    Truthful s limit count (report s limit t count) ∧
      Isolated s limit t count (report s limit t count) :=
  ⟨truthful_report s limit t count, isolated_report s limit t count⟩

end Stats
end Rollcall
