import Rollcall.Backoff
import Rollcall.Proofs.Binary64.Comparison
import Rollcall.Proofs.Binary64.Exact

/-!
The delays of any backoff.

A policy may hold any doubles. A base is never `nan` and never above the longest delay, whatever the
factor is, because the smaller one of two numbers is a number if one of them is. Chance takes part
only where the base and the jitter are above zero, and then it moves the base by no more than the
base itself (`Sound.chance`). So there is a range to draw from (`Chance.isRange`), and every delay
has its bounds (`Sound.delay_bounds`). With a factor of at least one the bases do not become smaller
(`Rising.advance`), and without chance the delays grow up to the longest one and stay there
(`Rising.pairwise`).
-/

namespace Rollcall

open Binary64

namespace Backoff

/-- Both durations can be measured. -/
structure Policy.IsMeasurable (p : Policy) : Prop where
  initial : p.initial ≤ Span.longest
  longest : p.longest ≤ Span.longest

/-- The part of a base that is left to chance: the jitter, moved into `[0, 1]`, `nan` to zero. -/
def Policy.share (p : Policy) : Binary64 :=
  if p.jitter.isNan then zero false else p.jitter.clamp (zero false) 1

/-- The longest delay, in milliseconds, and what chance may add to it. -/
def Policy.limit (p : Policy) : Binary64 := p.longestMillis + p.longestMillis * p.share

/-- A range that the generator draws from: it is not empty, and neither it nor its width is
infinite. -/
structure IsRange (low high : Binary64) : Prop where
  nonempty : low.blt high = true
  low_finite : low.isFinite = true
  high_finite : high.isFinite = true
  width : (high + -low).isFinite = true

/-- A draw from the range of the next delay, both ends counted in. -/
def Admits (b : Backoff) (draw : Binary64) : Prop :=
  (-b.spread).ble draw = true ∧ draw.ble b.spread = true

instance (b : Backoff) (draw : Binary64) : Decidable (b.Admits draw) :=
  inferInstanceAs (Decidable (_ ∧ _))

section Delay

variable {x y : Binary64}

/-- A delay is a whole number of milliseconds, and no less than one. -/
theorem delayOf_eq (hx : x.isFinite = true) :
    delayOf x = Span.ofMillis (Min.min (Nat.pow 2 64 - 1) ⌊Max.max x.value 1⌋₊) := by
  obtain ⟨hfinite, hvalue⟩ := max_one hx
  have hpos : 0 ≤ (x.max 1).value := by
    rw [hvalue]
    exact zero_le_one.trans (le_max_right _ _)
  rw [delayOf, toUnsigned_eq hfinite hpos, hvalue]

/-- A base that came out below every number gives the shortest delay. -/
theorem delayOf_infinite : delayOf (infinite true) = Span.ofMillis 1 := by decide

theorem delayOf_nan : delayOf nan = Span.ofMillis 1 := by decide

theorem millis_ofMillis (n : Nat) : (Span.ofMillis n).millis = n := Nat.mul_div_cancel n (by decide)

theorem ofMillis_le_iff {m n : Nat} : Span.ofMillis m ≤ Span.ofMillis n ↔ m ≤ n :=
  Nat.mul_le_mul_right_iff (by decide)

/-- Whatever the base and the draw, nobody retries at once. -/
theorem one_le_delayOf (x : Binary64) : Span.ofMillis 1 ≤ delayOf x := by
  have hwide : 1 ≤ Nat.pow 2 64 - 1 := by decide
  cases x with
  | nan => exact delayOf_nan ▸ Nat.le_refl _
  | infinite s =>
      cases s with
      | true => exact delayOf_infinite ▸ Nat.le_refl _
      | false => decide
  | finite s m e =>
      rw [delayOf_eq rfl, ofMillis_le_iff]
      refine le_min hwide (Nat.le_floor ?_)
      exact_mod_cast le_max_right _ _

/-- A longer base gives a longer delay, or the same one where both are cut to a millisecond. -/
theorem delayOf_mono (hy : y.isFinite = true) (hle : x.ble y = true) : delayOf x ≤ delayOf y := by
  rcases eq_or_le_of_ble hy hle with rfl | ⟨hx, hvalue⟩
  · rw [delayOf_infinite]
    exact one_le_delayOf y
  · rw [delayOf_eq hx, delayOf_eq hy, ofMillis_le_iff]
    exact min_le_min_left _ (Nat.floor_le_floor (max_le_max_right _ hvalue))

end Delay

section Limit

variable {x : Binary64}

theorem millis_le {d : Span} (hd : d ≤ Span.longest) : (d.millis : ℚ) ≤ 2 ^ 74 := by
  have hmillis : d.millis ≤ Span.longest.millis := Nat.div_le_div_right hd
  have hlongest : Span.longest.millis ≤ Nat.pow 2 74 := by decide
  exact_mod_cast hmillis.trans hlongest

/-- A duration in milliseconds is rounded once, to a number that is far from infinite. -/
theorem ofMillis_bounds {d : Span} (hd : d ≤ Span.longest) :
    (ofNat d.millis).isFinite = true ∧ 0 ≤ (ofNat d.millis).value ∧
    (ofNat d.millis).value ≤ 2 ^ 74 := by
  have hmillis := millis_le hd
  have hrounds := rounds_ofNat d.millis
  have hfinite := hrounds.isFinite (hmillis.trans (by norm_num))
  have hpower : Representable (2 ^ 74) := ⟨1, 74, by decide, by decide, by norm_num⟩
  exact ⟨hfinite, hrounds.nonneg hfinite, hpower.value_le hrounds hmillis hfinite⟩

theorem Policy.IsMeasurable.longest_bounds {p : Policy} (hp : p.IsMeasurable) :
    p.longestMillis.isFinite = true ∧ p.longestMillis.Fits ∧ 0 ≤ p.longestMillis.value ∧
      p.longestMillis.value ≤ 2 ^ 74 :=
  ⟨(ofMillis_bounds hp.longest).1, fits_ofRatio _ _ _, (ofMillis_bounds hp.longest).2⟩

/-- The part left to chance is at most the whole base, whatever the jitter is set to. -/
theorem share_between (p : Policy) :
    p.share.isFinite = true ∧ 0 ≤ p.share.value ∧ p.share.value ≤ 1 := by
  obtain ⟨hfinite, hvalue⟩ := value_one
  unfold Policy.share
  split
  case isTrue =>
    rw [value_zero]
    exact ⟨rfl, le_rfl, zero_le_one⟩
  case isFalse hnumber =>
    have hclamped :=
      clamp_between (Bool.eq_false_iff.mpr hnumber) (rfl : (zero false).isFinite = true)
      hfinite (by rw [value_zero, hvalue]; exact zero_le_one)
    rwa [value_zero, hvalue] at hclamped

/-- A part of a number that is not negative is rounded to a part of it. -/
theorem share_mul (p : Policy) (hx : x.isFinite = true) (hfits : x.Fits) (hpos : 0 ≤ x.value)
    (hsmall : x.value ≤ 2 ^ 74) :
    (x * p.share).Rounds (x.value * p.share.value) ∧ (x * p.share).isFinite = true ∧
      (x * p.share).value ≤ x.value := by
  obtain ⟨hfinite, hshare, hshare'⟩ := share_between p
  have hrounds := rounds_mul hx hfinite hpos hshare
  have hpart : x.value * p.share.value ≤ x.value := mul_le_of_le_one_right hpos hshare'
  have hproduct := hrounds.isFinite (hpart.trans (hsmall.trans (by norm_num)))
  exact ⟨hrounds, hproduct, (hfits.representable hpos).value_le hrounds hpart hproduct⟩

end Limit

/-- A call: for the next delay, with what chance would draw for it, or to start over. -/
inductive Call where
  | next (draw : Binary64)
  | reset

def after (b : Backoff) : Call → Backoff
  | .next draw => (b.step draw).2
  | .reset => b.reset

/-- The backoff of a policy after some calls. -/
def run (p : Policy) (calls : List Call) : Backoff := calls.foldl after (create p)

def delays (b : Backoff) : List Binary64 → List Span
  | [] => []
  | draw :: draws => (b.step draw).1 :: delays (b.step draw).2 draws

def stretch (draws : List Binary64) : List Call := draws.map .next

structure Sound (p : Policy) (b : Backoff) : Prop where
  policy : b.policy = p
  fits : b.next.Fits

section Run

variable {p : Policy} {b : Backoff} {draw : Binary64}

theorem run_append (p : Policy) (calls more : List Call) :
    run p (calls ++ more) = more.foldl after (run p calls) := List.foldl_append

/-- Without a reset the backoff after some draws depends only on how many there were. -/
theorem foldl_stretch (b : Backoff) (draws : List Binary64) :
    (stretch draws).foldl after b = Nat.iterate advance draws.length b := by
  induction draws generalizing b with
  | nil => rfl
  | cons draw draws ih => exact ih b.advance

theorem sound_create (p : Policy) : Sound p (create p) := ⟨rfl, fits_ofRatio _ _ _⟩

theorem Sound.base_fits (hsound : Sound p b) : b.base.Fits := hsound.fits.min (fits_ofRatio _ _ _)

theorem Sound.advance (hsound : Sound p b) : Sound p b.advance :=
  ⟨hsound.policy, (Fits.mul _ _).min (fits_ofRatio _ _ _)⟩

/-- Every call keeps a backoff sound; a reset brings the first one back. -/
theorem Sound.after (hsound : Sound p b) (call : Call) : Sound p (b.after call) := by
  cases call with
  | next draw => exact hsound.advance
  | reset => exact hsound.policy ▸ sound_create b.policy

/-- A call counts at most one attempt. -/
theorem attempt_after (b : Backoff) (call : Call) : (b.after call).attempt ≤ b.attempt + 1 := by
  cases call with
  | next draw => exact Nat.le_refl _
  | reset => exact Nat.zero_le _

/-- What holds at the start and is kept by every call holds after any calls. -/
theorem run_keeps {P : Backoff → Prop} (hcreate : P (create p))
    (hafter : ∀ b call, P b → P (b.after call)) (calls : List Call) : P (run p calls) := by
  induction calls using List.reverseRecOn with
  | nil => exact hcreate
  | append_singleton calls call ih =>
      rw [run_append]
      exact hafter _ call ih

theorem sound_run (p : Policy) (calls : List Call) : Sound p (run p calls) :=
  run_keeps (sound_create p) (fun _ call hsound => hsound.after call) calls

/-- No call counts more than one attempt. -/
theorem attempt_run (p : Policy) (calls : List Call) : (run p calls).attempt ≤ calls.length := by
  induction calls using List.reverseRecOn with
  | nil => exact Nat.le_refl _
  | append_singleton calls call ih =>
      rw [run_append, List.length_append]
      exact (attempt_after _ call).trans (Nat.succ_le_succ ih)

end Run

section Chance

variable {p : Policy} {b : Backoff} {draw : Binary64}

/-- A base is a number, and it is not above the longest delay. -/
theorem Sound.base_le (hp : p.IsMeasurable) (hsound : Sound p b) :
    b.base.isNan = false ∧ b.base.ble p.longestMillis = true := by
  have hnumber := isNan_eq_false hp.longest_bounds.1
  rw [base, hsound.policy]
  exact ⟨isNan_min hnumber, min_ble hnumber⟩

/-- Without a jitter there is no chance. -/
theorem not_jittered_of_nan (hnan : b.policy.jitter.isNan = true) : b.isJittered = false :=
  blt_nan (isNan_mul (isNan_clamp hnan _ _) _) _

/-- Chance takes part only where there is something to take a part of. -/
theorem Sound.jittered (hp : p.IsMeasurable) (hsound : Sound p b)
    (hjittered : b.isJittered = true) :
    b.base.isFinite = true ∧ 0 ≤ b.base.value ∧ b.spread = b.base * p.share := by
  have hnumber : ¬ p.jitter.isNan = true := by
    intro hnan
    rw [not_jittered_of_nan (hsound.policy.symm ▸ hnan)] at hjittered
    cases hjittered
  have hspread : b.spread = b.base * p.share := by
    rw [spread, hsound.policy, Policy.share, if_neg hnumber]
  obtain ⟨hshare, hpos, -⟩ := share_between p
  rw [isJittered, hspread] at hjittered
  rcases eq_or_le_of_ble hp.longest_bounds.1 (hsound.base_le hp).2 with hbase | ⟨hbase, -⟩
  · rw [hbase, infinite_mul_not_pos hshare hpos] at hjittered
    cases hjittered
  · refine ⟨hbase, ?_, hspread⟩
    by_contra hbelow
    rw [mul_not_pos hbase hshare (not_le.mp hbelow).le hpos] at hjittered
    cases hjittered

/-- What chance may do where it takes part. -/
structure Chance (b : Backoff) : Prop where
  base_finite : b.base.isFinite = true
  base_small : b.base.value ≤ 2 ^ 74
  spread_finite : b.spread.isFinite = true
  spread_pos : 0 < b.spread.value
  spread_le : b.spread.value ≤ b.base.value

/-- Where chance takes part, it has a range to draw from, and the sum stays finite. -/
theorem Sound.chance (hp : p.IsMeasurable) (hsound : Sound p b) (hjittered : b.isJittered = true) :
    Chance b := by
  obtain ⟨hlongest, -, -, hsmall⟩ := hp.longest_bounds
  obtain ⟨hbase, hpos, hspread⟩ := hsound.jittered hp hjittered
  have hbelow : b.base.value ≤ 2 ^ 74 :=
    ((ble_iff hbase hlongest).mp (hsound.base_le hp).2).trans hsmall
  obtain ⟨-, hfinite, hpart⟩ := share_mul p hbase hsound.base_fits hpos hbelow
  rw [← hspread] at hfinite hpart
  have hsome := (blt_iff rfl hfinite).mp hjittered
  rw [value_zero] at hsome
  exact ⟨hbase, hbelow, hfinite, hsome, hpart⟩

/-- There is a range to draw from. -/
theorem Chance.isRange (hchance : Chance b) : IsRange (-b.spread) b.spread := by
  have hspread := hchance.spread_finite
  have hpos := hchance.spread_pos
  have hopposite := isFinite_neg hspread
  have htwice : b.spread.value + (- -b.spread).value = b.spread.value + b.spread.value := by
    rw [value_neg, value_neg, neg_neg]
  refine ⟨?_, hopposite, hspread, ?_⟩
  · rw [blt_iff hopposite hspread, value_neg]
    linarith
  · have hrounds := rounds_add hspread (isFinite_neg hopposite) (by linarith)
    exact hrounds.isFinite (by linarith [hchance.spread_le, hchance.base_small])

/-- The longest delay, and what chance may add to it. -/
theorem limit_bounds (hp : p.IsMeasurable) :
    p.limit.isFinite = true ∧
      p.limit.Rounds (p.longestMillis.value + (p.longestMillis * p.share).value) := by
  obtain ⟨hlongest, hfits, hpos, hsmall⟩ := hp.longest_bounds
  obtain ⟨hrounds, hfinite, hpart⟩ := share_mul p hlongest hfits hpos hsmall
  have hsum := rounds_add hlongest hfinite (add_nonneg hpos (hrounds.nonneg hfinite))
  exact ⟨hsum.isFinite (by linarith), hsum⟩

/-- A part of a base is not more than the same part of the longest delay. -/
theorem Sound.spread_le_share (hp : p.IsMeasurable) (hsound : Sound p b)
    (hjittered : b.isJittered = true) :
    b.spread.value ≤ (p.longestMillis * p.share).value := by
  obtain ⟨hlongest, hlongestFits, hlongestPos, hlongestSmall⟩ := hp.longest_bounds
  obtain ⟨hbase, hpos, hspread⟩ := hsound.jittered hp hjittered
  have hbelow := (ble_iff hbase hlongest).mp (hsound.base_le hp).2
  obtain ⟨hrounds, hfinite, -⟩ :=
    share_mul p hbase hsound.base_fits hpos (hbelow.trans hlongestSmall)
  obtain ⟨hrounds', hfinite', -⟩ := share_mul p hlongest hlongestFits hlongestPos hlongestSmall
  have hparts := mul_le_mul_of_nonneg_right hbelow (share_between p).2.1
  rw [hspread]
  exact hrounds.value_le hrounds' hparts hfinite hfinite'

/-- A draw does not lift a base above the limit. -/
theorem Sound.add_draw_le (hp : p.IsMeasurable) (hsound : Sound p b)
    (hjittered : b.isJittered = true)
    (hdraw : b.Admits draw) : (b.base + draw).ble p.limit = true := by
  have hlongest := hp.longest_bounds.1
  have hchance := hsound.chance hp hjittered
  have hbase := hchance.base_finite
  have hopposite := isFinite_neg hchance.spread_finite
  have hfinite := isFinite_of_ble hopposite hchance.spread_finite hdraw.1 hdraw.2
  have hfrom := (ble_iff hopposite hfinite).mp hdraw.1
  have hto := (ble_iff hfinite hchance.spread_finite).mp hdraw.2
  have hbelow := (ble_iff hbase hlongest).mp (hsound.base_le hp).2
  rw [value_neg] at hfrom
  -- the sum is not negative, since the spread is not more than the base
  have hsum := rounds_add hbase hfinite (by linarith [hchance.spread_le])
  have hsumFinite := hsum.isFinite (by linarith [hchance.spread_le, hchance.base_small])
  obtain ⟨hlimit, hlimitRounds⟩ := limit_bounds hp
  rw [ble_iff hsumFinite hlimit]
  refine hsum.value_le hlimitRounds ?_ hsumFinite hlimit
  exact add_le_add hbelow (hto.trans (hsound.spread_le_share hp hjittered))

/-- A base is below the limit, too. -/
theorem Sound.base_le_limit (hp : p.IsMeasurable) (hsound : Sound p b) :
    delayOf b.base ≤ delayOf p.limit := by
  obtain ⟨hlongest, hfits, hpos, hsmall⟩ := hp.longest_bounds
  obtain ⟨hlimit, hlimitRounds⟩ := limit_bounds hp
  obtain ⟨hrounds, hfinite, -⟩ := share_mul p hlongest hfits hpos hsmall
  have hbelow : p.longestMillis.ble p.limit = true := by
    rw [ble_iff hlongest hlimit]
    refine (hfits.representable hpos).le_value hlimitRounds ?_ hlimit
    exact le_add_of_nonneg_right (hrounds.nonneg hfinite)
  exact Span.le_trans (delayOf_mono hlongest (hsound.base_le hp).2) (delayOf_mono hlimit hbelow)

/-- Every delay has its bounds. -/
theorem Sound.delay_bounds (hp : p.IsMeasurable) (hsound : Sound p b)
    (hdraw : b.isJittered = true → b.Admits draw) :
    Span.ofMillis 1 ≤ (b.step draw).1 ∧ (b.step draw).1 ≤ delayOf p.limit := by
  refine ⟨one_le_delayOf _, ?_⟩
  unfold step
  split
  case isTrue hjittered =>
    exact delayOf_mono (limit_bounds hp).1 (hsound.add_draw_le hp hjittered (hdraw hjittered))
  case isFalse => exact hsound.base_le_limit hp

end Chance

/-- The factor is at least one, and nothing is left to chance. -/
structure Policy.Rises (p : Policy) : Prop where
  multiplier : (1 : Binary64).ble p.multiplier = true
  jitter : p.jitter.ble (zero false) = true ∨ p.jitter.isNan = true

/-- The delay is as long as the longest one, or as what that is rounded to. -/
def Policy.Reaches (p : Policy) (delay : Span) : Prop :=
  p.longest.millis ≤ delay.millis ∨ delayOf p.longestMillis ≤ delay

/-- A backoff whose bases grow. -/
structure Rising (p : Policy) (b : Backoff) : Prop where
  sound : Sound p b
  finite : b.base.isFinite = true
  nonneg : 0 ≤ b.base.value

section Growth

variable {p : Policy} {b : Backoff} {draw : Binary64} {draws : List Binary64} {delay : Span}

theorem share_of_rises (hrises : p.Rises) : p.share.value = 0 := by
  obtain ⟨hone, hvalue⟩ := value_one
  refine le_antisymm ?_ (share_between p).2.1
  unfold Policy.share
  split
  case isTrue => exact (value_zero false).le
  case isFalse hnumber =>
    have hjitter := hrises.jitter.resolve_right hnumber
    unfold clamp
    split
    case isTrue => exact (value_zero false).le
    case isFalse habove =>
      rcases eq_or_le_of_ble rfl hjitter with hinfinite | ⟨hfinite, hbelow⟩
      · rw [hinfinite] at habove
        exact absurd rfl habove
      · rw [value_zero] at hbelow
        have hnot : (1 : Binary64).blt p.jitter = false := by
          rw [← Bool.not_eq_true, blt_iff hone hfinite, hvalue]
          linarith
        rw [hnot]
        exact hbelow

/-- A jitter of zero leaves no spread, so no draw is asked for. -/
theorem Sound.not_jittered (hp : p.IsMeasurable) (hrises : p.Rises) (hsound : Sound p b) :
    b.isJittered = false := by
  rw [← Bool.not_eq_true]
  intro hjittered
  obtain ⟨hbase, hpos, hspread⟩ := hsound.jittered hp hjittered
  have hchance := hsound.chance hp hjittered
  have hrounds := rounds_mul hbase (share_between p).1 hpos (share_between p).2.1
  rw [share_of_rises hrises, mul_zero, ← hspread] at hrounds
  have hzero : b.spread.Within 0 0 := hrounds.within le_rfl le_rfl (by decide)
  exact absurd hzero.le_hi (not_le.mpr (by exact_mod_cast hchance.spread_pos))

theorem rising_create (hp : p.IsMeasurable) : Rising p (create p) := by
  obtain ⟨hlongest, -, hpos, -⟩ := hp.longest_bounds
  obtain ⟨hinitial, hinitialPos, -⟩ := ofMillis_bounds hp.initial
  have hnot : ofNat p.initial.millis ≠ infinite true := by
    intro hinfinite
    rw [hinfinite] at hinitial
    cases hinitial
  obtain ⟨hfinite, hnonneg⟩ := min_between hlongest hpos (fun _ => hinitialPos) hnot
  exact ⟨sound_create p, hfinite, hnonneg⟩

/-- The base grows by the factor until it is the longest one. -/
theorem base_advance (hp : p.IsMeasurable) (hsound : Sound p b) :
    b.advance.base = (b.base * p.multiplier).min p.longestMillis := by
  have hnumber := isNan_eq_false hp.longest_bounds.1
  have hpolicy := hsound.policy
  simp only [Backoff.advance, base, hpolicy]
  exact min_min_self _ hnumber

/-- The next base is not below this one. -/
theorem Rising.advance (hp : p.IsMeasurable) (hrises : p.Rises) (hrising : Rising p b) :
    Rising p b.advance ∧ b.base.value ≤ b.advance.base.value := by
  have hlongest := hp.longest_bounds.1
  have hbelow := (ble_iff hrising.finite hlongest).mp (hrising.sound.base_le hp).2
  obtain ⟨hnot, hgrows⟩ :=
    le_mul hrising.finite hrising.sound.base_fits hrising.nonneg hrises.multiplier
  obtain ⟨hfinite, hvalue⟩ := min_between hlongest hbelow hgrows hnot
  rw [← base_advance hp hrising.sound] at hfinite hvalue
  exact ⟨⟨hrising.sound.advance, hfinite, hrising.nonneg.trans hvalue⟩, hvalue⟩

/-- The bases go on growing after every call; after a reset they grow from the start. -/
theorem Rising.after (hp : p.IsMeasurable) (hrises : p.Rises) (hrising : Rising p b) (call : Call) :
    Rising p (b.after call) := by
  cases call with
  | next draw => exact (hrising.advance hp hrises).1
  | reset =>
      obtain rfl := hrising.sound.policy
      exact rising_create hp

theorem rising_run (hp : p.IsMeasurable) (hrises : p.Rises) (calls : List Call) :
    Rising p (run p calls) :=
  run_keeps (rising_create hp) (fun _ call hrising => hrising.after hp hrises call) calls

/-- Without chance the delay is the base, cut to whole milliseconds. -/
theorem Rising.delay_eq (hp : p.IsMeasurable) (hrises : p.Rises) (hrising : Rising p b)
    (draw : Binary64) : (b.step draw).1 = delayOf b.base := by
  simp only [step, hrising.sound.not_jittered hp hrises, Bool.false_eq_true, if_false]

/-- Without chance no delay is shorter than the one before. -/
theorem Rising.delayOf_base_le (hp : p.IsMeasurable) (hrises : p.Rises) (hrising : Rising p b) :
    delayOf b.base ≤ delayOf b.advance.base := by
  obtain ⟨hnext, hgrows⟩ := hrising.advance hp hrises
  exact delayOf_mono hnext.finite ((ble_iff hrising.finite hnext.finite).mpr hgrows)

/-- The delays that follow lie between that of the base and the longest one. -/
theorem Rising.delays_between (hp : p.IsMeasurable) (hrises : p.Rises) (hrising : Rising p b)
    (hdelay : delay ∈ delays b draws) :
    delayOf b.base ≤ delay ∧ delay ≤ delayOf p.longestMillis := by
  induction draws generalizing b with
  | nil => cases hdelay
  | cons draw draws ih =>
      rcases List.mem_cons.mp hdelay with rfl | hlater
      · rw [hrising.delay_eq hp hrises]
        exact ⟨Nat.le_refl _, delayOf_mono hp.longest_bounds.1 (hrising.sound.base_le hp).2⟩
      · obtain ⟨hfrom, hto⟩ := ih (hrising.advance hp hrises).1 hlater
        exact ⟨Span.le_trans (hrising.delayOf_base_le hp hrises) hfrom, hto⟩

/-- A base whose delay reaches the longest one is the longest one, as far as a delay shows it. -/
theorem Rising.reached (hp : p.IsMeasurable) (hrising : Rising p b)
    (hreaches : p.Reaches (delayOf b.base)) : delayOf p.longestMillis ≤ delayOf b.base := by
  rcases hreaches with hmillis | hdelay
  · obtain ⟨hlongest, -, -, -⟩ := hp.longest_bounds
    rw [delayOf_eq hrising.finite, millis_ofMillis] at hmillis
    have hfloor : (p.longest.millis : ℚ) ≤ Max.max b.base.value 1 :=
      (Nat.cast_le.mpr (hmillis.trans (min_le_right _ _))).trans
        (Nat.floor_le (zero_le_one.trans (le_max_right _ _)))
    -- the base and one are doubles, so rounding the longest delay does not take it past the larger
    -- of them
    have hone : Representable 1 := ⟨1, 0, by decide, by decide, by norm_num⟩
    have hlarger : Representable (Max.max b.base.value 1) := by
      rcases le_total b.base.value 1 with hless | hmore
      · rwa [max_eq_right hless]
      · rw [max_eq_left hmore]
        exact hrising.sound.base_fits.representable hrising.nonneg
    have hvalue := hlarger.value_le (rounds_ofNat _) hfloor hlongest
    rw [delayOf_eq hlongest, delayOf_eq hrising.finite, ofMillis_le_iff]
    exact min_le_min_left _ (Nat.floor_le_floor (max_le hvalue (le_max_right _ _)))
  · exact hdelay

/-- Without a reset the delays do not become shorter, and stay as they are once they reach the
longest one. -/
theorem Rising.pairwise (hp : p.IsMeasurable) (hrises : p.Rises) (hrising : Rising p b)
    (draws : List Binary64) :
    (delays b draws).Pairwise fun delay later =>
      delay ≤ later ∧ (p.Reaches delay → later = delay) := by
  induction draws generalizing b with
  | nil => exact List.Pairwise.nil
  | cons draw draws ih =>
      have hnext := (hrising.advance hp hrises).1
      rw [delays, List.pairwise_cons, hrising.delay_eq hp hrises]
      refine ⟨?_, ih hnext⟩
      intro later hlater
      obtain ⟨hfrom, hto⟩ := hnext.delays_between hp hrises hlater
      have hle := Span.le_trans (hrising.delayOf_base_le hp hrises) hfrom
      refine ⟨hle, ?_⟩
      intro hreaches
      exact Span.eq_of_le_of_le (Span.le_trans hto (hrising.reached hp hreaches)) hle

end Growth

/-- What is known of a call for a delay. -/
structure Contained (p : Policy) (b : Backoff) (draw : Binary64) : Prop where
  base_isNan : b.base.isNan = false
  base_le : b.base.ble p.longestMillis = true
  /-- The number of attempts can be counted. -/
  attempt_lt : (b.step draw).2.attempt < Nat.pow 2 32
  range : b.isJittered = true → IsRange (-b.spread) b.spread
  delay : (b.isJittered = true → b.Admits draw) →
    Span.ofMillis 1 ≤ (b.step draw).1 ∧ (b.step draw).1 ≤ delayOf p.limit

/-- What is known of some calls on the backoff of a policy. -/
structure Bounded (p : Policy) (calls : List Call) : Prop where
  /-- Every base, every range to draw from and every delay has its bounds. -/
  contained : ∀ before draw rest, calls = before ++ .next draw :: rest →
    Contained p (run p before) draw
  /-- Without chance and with a factor of at least one, delays grow between resets, up to the
  longest one. -/
  grows : p.Rises → ∀ before draws rest, calls = before ++ stretch draws ++ rest →
    (delays (run p before) draws).Pairwise fun delay later =>
      delay ≤ later ∧ (p.Reaches delay → later = delay)
  /-- After a reset the bases are the same as at the start, whatever is drawn. -/
  repeats : ∀ before draws rest, calls = before ++ .reset :: stretch draws ++ rest →
    ∀ draws', draws'.length = draws.length →
      (run p (before ++ .reset :: stretch draws)).base = (run p (stretch draws')).base

/-- Backoff is bounded, whatever the durations, the factor and the jitter are, and whatever is drawn
from the ranges. -/
theorem bounded_run {p : Policy} (hp : p.IsMeasurable) {calls : List Call}
    (hfew : calls.length < Nat.pow 2 32) : Bounded p calls := by
  refine ⟨?_, ?_, ?_⟩
  · intro before draw rest hcalls
    have hsound := sound_run p before
    have hattempt := attempt_run p before
    obtain ⟨hnumber, hbelow⟩ := hsound.base_le hp
    refine ⟨hnumber, hbelow, ?_, fun hjittered => (hsound.chance hp hjittered).isRange,
      hsound.delay_bounds hp⟩
    have hlength : before.length + 1 ≤ calls.length := by
      rw [hcalls, List.length_append, List.length_cons]
      omega
    exact (Nat.succ_le_succ hattempt).trans_lt (hlength.trans_lt hfew)
  · intro hrises before draws _ _
    exact (rising_run hp hrises before).pairwise hp hrises draws
  · intro before draws _ _ draws' hlength
    have hreset : (run p before).reset = create p := by
      rw [reset, (sound_run p before).policy]
    calc (run p (before ++ .reset :: stretch draws)).base
        = ((stretch draws).foldl after (run p before).reset).base := by rw [run_append]; rfl
      _ = (Nat.iterate advance draws'.length (create p)).base := by
          rw [hreset, foldl_stretch, hlength]
      _ = (run p (stretch draws')).base := by rw [run, foldl_stretch]

/-- A delay at the start and one after a reset, of the default policy, which leaves a tenth to
chance, and of one that leaves nothing and has the largest factor. -/
theorem bounded_run_twice :
    let steep : Policy := ⟨Span.ofMillis 3, Span.ofMillis 10, infinite false, nan⟩
    let calls : List Call := [.next (zero false), .reset, .next (zero false)]
    ((create .default).isJittered = true ∧ (create .default).Admits (zero false) ∧
      Bounded .default calls) ∧ steep.Rises ∧ Bounded steep calls := by
  refine ⟨⟨by decide +kernel, by decide +kernel, ?_⟩, ⟨by decide, by decide⟩, ?_⟩
  · exact bounded_run ⟨by decide, by decide⟩ (by decide)
  · exact bounded_run ⟨by decide, by decide⟩ (by decide)

/-- A jitter of `nan` stays `nan` when it is moved into its range, and so does what it would add to
the longest delay: as a bound only the shortest delay would be left. But nothing is left to chance
then, and the base passes that bound. -/
theorem bound_lost_of_nan :
    let p : Policy := ⟨Span.ofMillis 200, Span.ofSeconds 10, 2, nan⟩
    let b := run p []
    p.IsMeasurable ∧ b.isJittered = false ∧ (b.step (zero false)).1 = Span.ofMillis 200 ∧
      ¬ (b.step (zero false)).1 ≤
        delayOf (p.longestMillis + p.longestMillis * p.jitter.clamp (zero false) 1) := by
  refine ⟨⟨by decide, by decide⟩, ?_⟩
  decide +kernel

end Backoff
end Rollcall
