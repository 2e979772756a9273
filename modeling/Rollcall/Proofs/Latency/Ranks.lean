import Mathlib.Data.List.Sort
import Mathlib.Order.Bounds.Basic
import Rollcall.Latency.Window
import Rollcall.Proofs.Binary64.Monotone

/-!
Percentiles as ranks.

A percentile is the sample at a place of the ascending order that is computed in double precision.
The place stays in the window, grows with the percentile (`percentileIndex_mono`) and reaches both
ends exactly as long as the window is not larger than double precision can tell apart. So the
percentiles of a window are ordered as they should be, and depend on its samples alone
(`Window.percentile_ranks`).
-/

namespace Rollcall

namespace Binary64

theorem within_zero : (0 : Binary64).Within 0 0 := ofNat_within (by decide)

theorem within_hundred : (100 : Binary64).Within 100 100 := ofNat_within (by decide)

end Binary64

namespace Latency

open Binary64

/-- A percentile moved into `[0, 100]`, `nan` to zero. -/
def percent (p : Binary64) : Binary64 :=
  if p.isNan then zero false else p.clamp (zero false) 100

theorem percentileIndex_eq (count : Nat) (p : Binary64) :
    percentileIndex count p = min (ofNat count * percent p / 100).toUnsigned (count - 1) := rfl

/-- The place is always one of a sample, rounding or not. -/
theorem percentileIndex_lt {count : Nat} (hsome : 0 < count) (p : Binary64) :
    percentileIndex count p < count := by
  rw [percentileIndex_eq]
  omega

theorem percent_within (p : Binary64) : (percent p).Within 0 100 := by
  have hzero : (zero false).Within 0 100 := zero_within false 100
  have hhundred := within_hundred
  have hwide : (100 : Binary64).Within 0 100 :=
    ⟨hhundred.finite, le_trans (by norm_num) hhundred.lo_le, hhundred.le_hi⟩
  unfold percent clamp
  cases p with
  | nan => exact hzero
  | infinite s =>
      cases s with
      | true => exact hzero
      | false => exact hwide
  | finite s m e =>
      have hfinite : (finite s m e).isFinite = true := rfl
      have hmoved := blt_iff hfinite hzero.finite
      have hcapped := blt_iff hhundred.finite hfinite
      rw [value_zero] at hmoved
      simp only [isNan, Bool.false_eq_true, if_false]
      split
      case isTrue => exact hzero
      case isFalse hlow =>
        split
        case isTrue => exact hwide
        case isFalse hhigh =>
          refine ⟨hfinite, ?_, ?_⟩
          · rw [hmoved, not_lt] at hlow
            exact_mod_cast hlow
          · rw [hcapped, not_lt] at hhigh
            exact hhigh.trans hhundred.le_hi

theorem percent_eq {p : Binary64} (hwithin : p.Within 0 100) : percent p = p := by
  have hzero : (zero false).Within 0 100 := zero_within false 100
  have hmoved : p.blt (zero false) = false := by
    rw [← Bool.not_eq_true, blt_iff hwithin.finite hzero.finite, value_zero, not_lt]
    exact_mod_cast hwithin.lo_le
  have hcapped : (100 : Binary64).blt p = false := by
    rw [← Bool.not_eq_true, blt_iff within_hundred.finite hwithin.finite, not_lt]
    exact hwithin.le_hi.trans within_hundred.lo_le
  simp [percent, clamp, isNan_eq_false hwithin.finite, hmoved, hcapped]

section Place

variable {count : Nat} (hfew : count < Nat.pow 2 46) {p q : Binary64} {lo hi : Nat}

theorem value_hundred : (100 : Binary64).value = 100 :=
  le_antisymm within_hundred.le_hi within_hundred.lo_le

theorem percent_nonneg (p : Binary64) : 0 ≤ (percent p).value :=
  mod_cast (percent_within p).lo_le

include hfew

theorem value_count : (ofNat count).value = count := by
  have hwithin : (ofNat count).Within count count := ofNat_within (hfew.trans (by decide))
  exact le_antisymm hwithin.le_hi hwithin.lo_le

/-- The product is rounded from what it stands for, and is exact at both ends. -/
theorem rounds_product (p : Binary64) :
    (ofNat count * percent p).Rounds (count * (percent p).value) := by
  have hcount : (ofNat count).Within count count := ofNat_within (hfew.trans (by decide))
  have hrounds := rounds_mul hcount.finite (percent_within p).finite
    (by rw [value_count hfew]; positivity) (percent_nonneg p)
  rwa [value_count hfew] at hrounds

/-- Up to a whole window the product is between the whole numbers that the percentile lies
between. -/
theorem product_within (hp : (percent p).Within (100 * lo) (100 * hi)) (hhi : hi ≤ 1) :
    (ofNat count * percent p).Within (count * (100 * lo)) (count * (100 * hi)) := by
  have hcount : (0 : ℚ) ≤ count := by positivity
  have hlow : ((count * (100 * lo) : Nat) : ℚ) ≤ count * (percent p).value := by
    rw [Nat.cast_mul]
    exact mul_le_mul_of_nonneg_left hp.lo_le hcount
  have hhigh : count * (percent p).value ≤ ((count * (100 * hi) : Nat) : ℚ) := by
    rw [Nat.cast_mul]
    exact mul_le_mul_of_nonneg_left hp.le_hi hcount
  refine (rounds_product hfew p).within hlow hhigh ?_
  calc count * (100 * hi) ≤ count * 100 := Nat.mul_le_mul_left _ (by omega)
    _ < Nat.pow 2 53 := by
      have hbound : Nat.pow 2 46 * 100 < Nat.pow 2 53 := by decide
      omega

theorem product_finite (p : Binary64) :
    (ofNat count * percent p).isFinite = true ∧ 0 ≤ (ofNat count * percent p).value := by
  have hpercent : (percent p).Within (100 * 0) (100 * 1) := percent_within p
  have hwithin := product_within hfew hpercent le_rfl
  exact ⟨hwithin.finite, by simpa using hwithin.lo_le⟩

theorem rounds_quotient (p : Binary64) :
    (ofNat count * percent p / 100).Rounds ((ofNat count * percent p).value / 100) := by
  obtain ⟨hfinite, hpos⟩ := product_finite hfew p
  have hrounds := rounds_div hfinite within_hundred.finite hpos (by rw [value_hundred]; norm_num)
  rwa [value_hundred] at hrounds

theorem quotient_within (hp : (percent p).Within (100 * lo) (100 * hi)) (hhi : hi ≤ 1) :
    (ofNat count * percent p / 100).Within (count * lo) (count * hi) := by
  have hproduct := product_within hfew hp hhi
  have hlow := hproduct.lo_le
  have hhigh := hproduct.le_hi
  push_cast at hlow hhigh
  refine (rounds_quotient hfew p).within ?_ ?_ ?_
  · push_cast
    linarith
  · push_cast
    linarith
  · calc count * hi ≤ count * 1 := Nat.mul_le_mul_left _ hhi
      _ < Nat.pow 2 53 := by
        have hbound : Nat.pow 2 46 < Nat.pow 2 53 := by decide
        omega

/-- Before it is cut, the place lies between the first sample and the one behind the last. -/
theorem quotient_bounds (p : Binary64) : (ofNat count * percent p / 100).Within 0 count := by
  have hpercent : (percent p).Within (100 * 0) (100 * 1) := percent_within p
  simpa using quotient_within hfew hpercent le_rfl

/-- A larger percentile does not stand at an earlier place. -/
theorem percentileIndex_mono (hle : (percent p).ble (percent q) = true) :
    percentileIndex count p ≤ percentileIndex count q := by
  have hpercent : (percent p).value ≤ (percent q).value :=
    (ble_iff (percent_within p).finite (percent_within q).finite).mp hle
  obtain ⟨hfinite, -⟩ := product_finite hfew p
  obtain ⟨hfinite', -⟩ := product_finite hfew q
  have hproduct : (ofNat count * percent p).value ≤ (ofNat count * percent q).value := by
    refine (rounds_product hfew p).value_le (rounds_product hfew q) ?_ hfinite hfinite'
    gcongr
  have hwithin := quotient_bounds hfew p
  have hwithin' := quotient_bounds hfew q
  have hquotient : (ofNat count * percent p / 100).value ≤
      (ofNat count * percent q / 100).value := by
    refine (rounds_quotient hfew p).value_le (rounds_quotient hfew q) ?_ hwithin.finite
      hwithin'.finite
    gcongr
  have hwhole :=
    toUnsigned_mono hwithin.finite hwithin'.finite (by simpa using hwithin.lo_le) hquotient
  rw [percentileIndex_eq, percentileIndex_eq]
  omega

theorem percentileIndex_zero : percentileIndex count 0 = 0 := by
  have hpercent : (percent 0).Within (100 * 0) (100 * 0) := by
    have hwithin := within_zero
    rwa [percent_eq ⟨hwithin.finite, hwithin.lo_le, hwithin.le_hi.trans (by norm_num)⟩]
  have hplace := (quotient_within hfew hpercent (by omega)).toUnsigned_mem (by simp)
  rw [percentileIndex_eq]
  omega

/-- The last percentile is the last place. -/
theorem percentileIndex_hundred : percentileIndex count 100 = count - 1 := by
  have hpercent : (percent 100).Within (100 * 1) (100 * 1) := by
    have hwithin := within_hundred
    rwa [percent_eq ⟨hwithin.finite, le_trans (by norm_num) hwithin.lo_le, hwithin.le_hi⟩]
  have hplace := (quotient_within hfew hpercent le_rfl).toUnsigned_mem (by
    have hbound : Nat.pow 2 46 < Nat.pow 2 64 := by decide
    omega)
  rw [percentileIndex_eq]
  omega

end Place

section Order

variable {ds : List Span} {i : Nat} {d : Span}

/-- The sample at a place of the ascending order: no more are smaller than stand before it, and no
more are larger than stand behind it. -/
structure Ranks (ds : List Span) (i : Nat) (d : Span) : Prop where
  inside : i < ds.length
  placed : ∃ order : List Span, order.Perm ds ∧ order.Pairwise (· ≤ ·) ∧ order[i]? = some d
  below : ds.countP (· < d) ≤ i
  above : ds.countP (d < ·) ≤ ds.length - 1 - i

/-- Only samples on one side of a place can be smaller, and only those on the other side larger. -/
theorem ranks_of_pairwise (hascending : ds.Pairwise (· ≤ ·)) (hplace : ds[i]? = some d) :
    Ranks ds i d := by
  obtain ⟨before, behind, rfl, rfl⟩ :
      ∃ before behind, ds = before ++ d :: behind ∧ before.length = i := by
    obtain ⟨hi, rfl⟩ := List.getElem?_eq_some_iff.mp hplace
    refine ⟨ds.take i, ds.drop (i + 1), ?_, List.length_take_of_le hi.le⟩
    rw [List.cons_getElem_drop_succ, List.take_append_drop]
  obtain ⟨-, hbehind, hacross⟩ := List.pairwise_append.mp hascending
  have hself : ¬ d < d := Nat.lt_irrefl _
  have hlater : behind.countP (· < d) = 0 := by
    refine List.countP_eq_zero.mpr fun a ha hless => ?_
    have hle : d ≤ a := (List.pairwise_cons.mp hbehind).1 a ha
    exact Nat.not_lt_of_le hle (of_decide_eq_true hless)
  have hearlier : before.countP (d < ·) = 0 := by
    refine List.countP_eq_zero.mpr fun a ha hmore => ?_
    have hle : a ≤ d := hacross a ha _ List.mem_cons_self
    exact Nat.not_lt_of_le hle (of_decide_eq_true hmore)
  have hsmaller : before.countP (· < d) ≤ before.length := List.countP_le_length
  have hlarger : behind.countP (d < ·) ≤ behind.length := List.countP_le_length
  refine ⟨by simp, ⟨_, .refl _, hascending, hplace⟩, ?_, ?_⟩
  · rw [List.countP_append, List.countP_cons, hlater, decide_eq_false hself]
    simpa using hsmaller
  · rw [List.countP_append, List.countP_cons, hearlier, decide_eq_false hself, List.length_append,
      List.length_cons]
    simp only [Bool.false_eq_true, if_false]
    omega

theorem Ranks.perm {order : List Span} (hranks : Ranks order i d) (hperm : order.Perm ds) :
    Ranks ds i d where
  inside := hperm.length_eq ▸ hranks.inside
  placed := by
    obtain ⟨ascending, hsame, hpairwise, hplace⟩ := hranks.placed
    exact ⟨ascending, hsame.trans hperm, hpairwise, hplace⟩
  below := hperm.countP_eq _ ▸ hranks.below
  above := by
    rw [← hperm.countP_eq, ← hperm.length_eq]
    exact hranks.above

end Order

namespace Window

variable (w : Window)

theorem perm_sorted : w.sorted.Perm w.samples := List.mergeSort_perm _ _

theorem pairwise_sorted : w.sorted.Pairwise (· ≤ ·) := by
  have htrans (a b c : Span) (hab : decide (a.nanos ≤ b.nanos) = true)
      (hbc : decide (b.nanos ≤ c.nanos) = true) : decide (a.nanos ≤ c.nanos) = true :=
    decide_eq_true (Nat.le_trans (of_decide_eq_true hab) (of_decide_eq_true hbc))
  have htotal (a b : Span) : (decide (a.nanos ≤ b.nanos) || decide (b.nanos ≤ a.nanos)) = true := by
    simpa using Nat.le_total a.nanos b.nanos
  have hsorted := List.pairwise_mergeSort htrans htotal w.samples
  exact hsorted.imp of_decide_eq_true

theorem length_sorted : w.sorted.length = w.samples.length := w.perm_sorted.length_eq

/-- The ascending order depends on nothing but which samples there are. -/
theorem sorted_eq_of_perm {v w : Window} (hperm : v.samples.Perm w.samples) : v.sorted = w.sorted :=
  List.Perm.eq_of_pairwise (fun _ _ _ _ => Span.eq_of_le_of_le) v.pairwise_sorted w.pairwise_sorted
    ((v.perm_sorted.trans hperm).trans w.perm_sorted.symm)

/-- A window with samples has each percentile at its place. -/
theorem sorted_getElem? (hsome : w.samples ≠ []) (p : Binary64) :
    w.sorted[percentileIndex w.samples.length p]? = some (w.percentile p) := by
  have hlength := w.length_sorted
  have hinside : percentileIndex w.sorted.length p < w.sorted.length :=
    percentileIndex_lt (hlength ▸ List.length_pos_iff.mpr hsome) p
  rw [percentile, nearestRank, ← hlength, List.getElem?_eq_getElem hinside, Option.getD_some]

/-- A percentile is the sample at its place in the ascending order. -/
theorem ranks_percentile (hsome : w.samples ≠ []) (p : Binary64) :
    Ranks w.samples (percentileIndex w.samples.length p) (w.percentile p) :=
  (ranks_of_pairwise w.pairwise_sorted (w.sorted_getElem? hsome p)).perm w.perm_sorted

/-- A percentile is one of the samples. -/
theorem percentile_mem (hsome : w.samples ≠ []) (p : Binary64) : w.percentile p ∈ w.samples :=
  w.perm_sorted.mem_iff.mp (List.mem_of_getElem? (w.sorted_getElem? hsome p))

/-- Samples at places of the ascending order are ordered as their places. -/
theorem le_of_places {i j : Nat} {a b : Span} (ha : w.sorted[i]? = some a)
    (hb : w.sorted[j]? = some b) (hij : i ≤ j) : a ≤ b := by
  obtain ⟨hi, rfl⟩ := List.getElem?_eq_some_iff.mp ha
  obtain ⟨hj, rfl⟩ := List.getElem?_eq_some_iff.mp hb
  obtain rfl | hless := Nat.eq_or_lt_of_le hij
  · exact Nat.le_refl _
  · exact List.pairwise_iff_getElem.mp w.pairwise_sorted i j hi hj hless

/-- Every sample has a place in the ascending order. -/
theorem exists_place {d : Span} (hd : d ∈ w.samples) :
    ∃ i < w.samples.length, w.sorted[i]? = some d := by
  obtain ⟨i, hi, hplace⟩ := List.getElem_of_mem (w.perm_sorted.mem_iff.mpr hd)
  exact ⟨i, w.length_sorted ▸ hi, List.getElem?_eq_some_iff.mpr ⟨hi, hplace⟩⟩

/-- The percentiles of a window whose samples double precision can count are ordered as the numbers
they are asked by, from the smallest sample to the largest. Each is the sample at its place of the
ascending order, and all are the same for every order of arrival. -/
theorem percentile_ranks (hsome : w.samples ≠ []) (hfew : w.samples.length < Nat.pow 2 46) :
    (∀ p q, (percent p).ble (percent q) = true → w.percentile p ≤ w.percentile q) ∧
      IsLeast {d | d ∈ w.samples} (w.percentile 0) ∧
      IsGreatest {d | d ∈ w.samples} (w.percentile 100) ∧
      (∀ p, Ranks w.samples (percentileIndex w.samples.length p) (w.percentile p)) ∧
      ∀ v : Window, v.samples.Perm w.samples → ∀ p, v.percentile p = w.percentile p := by
  have hplace := w.sorted_getElem? hsome
  refine ⟨fun p q hle => ?_, ⟨w.percentile_mem hsome 0, fun d hd => ?_⟩,
    ⟨w.percentile_mem hsome 100, fun d hd => ?_⟩, w.ranks_percentile hsome, fun v hperm p => ?_⟩
  · exact w.le_of_places (hplace p) (hplace q) (percentileIndex_mono hfew hle)
  · obtain ⟨i, -, hi⟩ := w.exists_place hd
    refine w.le_of_places (hplace 0) hi ?_
    rw [percentileIndex_zero hfew]
    exact Nat.zero_le i
  · obtain ⟨i, hinside, hi⟩ := w.exists_place hd
    refine w.le_of_places hi (hplace 100) ?_
    rw [percentileIndex_hundred hfew]
    omega
  · rw [percentile, percentile, sorted_eq_of_perm hperm]

/-- Five samples that did not arrive in order. -/
def shuffledFive : Window := (empty 5).recordAll [⟨50⟩, ⟨10⟩, ⟨40⟩, ⟨20⟩, ⟨30⟩]

/-- Among five samples the middle one is the median, and the others are ranked around it. -/
theorem percentile_ranks_five :
    shuffledFive.samples ≠ [] ∧ shuffledFive.samples.length < Nat.pow 2 46 ∧
      (percent 50).ble (percent 95) = true ∧
      shuffledFive.percentile 50 ≤ shuffledFive.percentile 95 ∧
      shuffledFive.percentile 0 ≤ ⟨10⟩ ∧ ⟨50⟩ ≤ shuffledFive.percentile 100 ∧
      percentileIndex 5 50 = 2 ∧
        shuffledFive.samples.countP (· < shuffledFive.percentile 50) ≤ 2 := by
  have hsome : shuffledFive.samples ≠ [] := by decide
  have hfew : shuffledFive.samples.length < Nat.pow 2 46 := by decide
  have hordered : (percent 50).ble (percent 95) = true := by decide +kernel
  have hmiddle : percentileIndex 5 50 = 2 := by decide +kernel
  obtain ⟨hmono, hleast, hgreatest, hranks, -⟩ := percentile_ranks shuffledFive hsome hfew
  have hbelow := (hranks 50).below
  refine ⟨hsome, hfew, hordered, hmono 50 95 hordered, hleast.2 ?_, hgreatest.2 ?_, hmiddle,
    hbelow.trans_eq hmiddle⟩
  · change (⟨10⟩ : Span) ∈ shuffledFive.samples
    decide
  · change (⟨50⟩ : Span) ∈ shuffledFive.samples
    decide

end Window
end Latency
end Rollcall
