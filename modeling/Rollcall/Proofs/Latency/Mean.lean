import Mathlib.Algebra.Group.Action.Defs
import Mathlib.Algebra.Order.BigOperators.Group.List
import Mathlib.Algebra.Order.Floor.Semifield
import Mathlib.Data.Rat.Floor
import Mathlib.Data.Set.Finite.Lemmas
import Rollcall.Latency.Window

/-!
The mean, to the nanosecond.

The nanoseconds of a window are added up in 128 bits, and the mean is kept in 64. The sums grow from
sample to sample, so all of them fit if the last one does (`sum?_eq`), and that one fits for any
window that is not absurdly long. Then the mean is exact but for its fraction, and for the cap at 64
bits (`Window.average_exact`).
-/

namespace Rollcall.Latency

/-- The number, if so many bits are enough for it. -/
def fitting? (bits n : Nat) : Option Nat := if n < Nat.pow 2 bits then some n else none

/-- The sum of all nanoseconds, nothing as soon as 128 bits are not enough. -/
def sum? (ds : List Span) : Option Nat := ds.foldlM (fun sum d => fitting? 128 (sum + d.nanos)) 0

/-- The whole part of a quotient, nothing if the divisor is zero. -/
def quotient? (n d : Nat) : Option Nat := if d = 0 then none else some (n / d)

/-- The mean as it is worked out in registers. Without durations nothing is divided, and a mean for
which 64 bits are not enough becomes the largest number that they hold. -/
def mean? (ds : List Span) : Option Span :=
  if ds.isEmpty then some Span.zero
  else do
    let sum ← sum? ds
    let mean ← quotient? sum ds.length
    return ⟨(fitting? 64 mean).getD (Nat.pow 2 64 - 1)⟩

/-- A number for which the bits are not enough is replaced by the largest that they hold. -/
theorem fitting?_getD (bits n : Nat) :
    (fitting? bits n).getD (Nat.pow 2 bits - 1) = min n (Nat.pow 2 bits - 1) := by
  unfold fitting?
  split
  case isTrue hfits =>
    rw [Option.getD_some]
    omega
  case isFalse hlarge =>
    rw [Option.getD_none]
    omega

def totalNanos (ds : List Span) : Nat := (ds.map Span.nanos).sum

section Sum

variable {ds es : List Span} {n bound : Nat}

theorem totalNanos_cons (d : Span) (ds : List Span) :
    totalNanos (d :: ds) = d.nanos + totalNanos ds := rfl

theorem foldl_eq_totalNanos (ds : List Span) (n : Nat) :
    ds.foldl (fun sum d => sum + d.nanos) n = n + totalNanos ds := by
  induction ds generalizing n with
  | nil => rfl
  | cons d rest ih => rw [List.foldl_cons, ih, totalNanos_cons, Nat.add_assoc]

/-- No sum on the way is larger than the last. -/
theorem foldlM_eq_fitting (hfits : n < Nat.pow 2 128) :
    ds.foldlM (fun sum d => fitting? 128 (sum + d.nanos)) n = fitting? 128 (n + totalNanos ds) := by
  induction ds generalizing n with
  | nil => exact (if_pos hfits).symm
  | cons d rest ih =>
      rw [List.foldlM_cons, totalNanos_cons, ← Nat.add_assoc]
      by_cases hnext : n + d.nanos < Nat.pow 2 128
      · have hstep : fitting? 128 (n + d.nanos) = some (n + d.nanos) := if_pos hnext
        rw [hstep]
        exact ih hnext
      · have hstep : fitting? 128 (n + d.nanos) = none := if_neg hnext
        have hlast : fitting? 128 (n + d.nanos + totalNanos rest) = none := by
          apply if_neg
          omega
        rw [hstep, hlast]
        rfl

/-- No partial sum is larger than the whole one, so the sum runs over only where that does. -/
theorem sum?_eq (ds : List Span) : sum? ds = fitting? 128 (totalNanos ds) := by
  have hsum : sum? ds = fitting? 128 (0 + totalNanos ds) :=
    foldlM_eq_fitting (Nat.pow_pos (by decide))
  rwa [Nat.zero_add] at hsum

theorem totalNanos_le (hall : ∀ d ∈ ds, d.nanos ≤ bound) : totalNanos ds ≤ ds.length * bound := by
  have hsum := List.sum_le_card_nsmul (ds.map Span.nanos) bound (by simpa using hall)
  rwa [List.length_map, smul_eq_mul] at hsum

theorem le_totalNanos (hall : ∀ d ∈ ds, bound ≤ d.nanos) : ds.length * bound ≤ totalNanos ds := by
  have hsum := List.card_nsmul_le_sum (ds.map Span.nanos) bound (by simpa using hall)
  rwa [List.length_map, smul_eq_mul] at hsum

theorem totalNanos_perm (hperm : ds.Perm es) : totalNanos ds = totalNanos es :=
  (hperm.map Span.nanos).sum_eq

/-- So many durations, however long, can be added up in 128 bits. -/
theorem totalNanos_fits (hfew : ds.length ≤ Nat.pow 2 34) (hall : ∀ d ∈ ds, d ≤ Span.longest) :
    totalNanos ds < Nat.pow 2 128 := by
  have hspan : Nat.pow 2 34 * Span.longest.nanos < Nat.pow 2 128 := by decide
  exact ((totalNanos_le hall).trans (Nat.mul_le_mul_right _ hfew)).trans_lt hspan

end Sum

namespace Window

variable {ds es : List Span} {lo hi : Span}

theorem nanos_mean (ds : List Span) :
    (mean ds).nanos = min (totalNanos ds / ds.length) (Nat.pow 2 64 - 1) := by
  unfold mean
  rw [foldl_eq_totalNanos, Nat.zero_add]

theorem mean_nil : mean [] = Span.zero := by
  rw [mean]
  rfl

/-- Where the sum fits, the mean in registers is the mean. -/
theorem mean?_eq (hfits : totalNanos ds < Nat.pow 2 128) : mean? ds = some (mean ds) := by
  cases ds with
  | nil => exact congrArg some mean_nil.symm
  | cons d rest =>
      have hsum : sum? (d :: rest) = some (totalNanos (d :: rest)) :=
        (sum?_eq _).trans (if_pos hfits)
      have hdivides : quotient? (totalNanos (d :: rest)) (d :: rest).length =
          some (totalNanos (d :: rest) / (d :: rest).length) := if_neg (Nat.succ_ne_zero _)
      have hmean := nanos_mean (d :: rest)
      rw [← fitting?_getD] at hmean
      simp only [mean?, List.isEmpty_cons, Bool.false_eq_true, if_false, hsum, hdivides,
        Option.bind_eq_bind, Option.bind_some, ← hmean]
      rfl

/-- The order in which durations came does not matter to their mean. -/
theorem mean_perm (hperm : ds.Perm es) : mean ds = mean es := by
  have hsame := nanos_mean ds
  rw [totalNanos_perm hperm, hperm.length_eq, ← nanos_mean es] at hsame
  exact congrArg Span.mk hsame

theorem mean_le (hall : ∀ d ∈ ds, d ≤ hi) : mean ds ≤ hi := by
  have hquotient : totalNanos ds / ds.length ≤ hi.nanos := Nat.div_le_of_le_mul (totalNanos_le hall)
  change (mean ds).nanos ≤ hi.nanos
  rw [nanos_mean]
  exact (min_le_left _ _).trans hquotient

/-- A mean is not below the smallest duration, as long as that is below the cap. -/
theorem le_mean (hsome : ds ≠ []) (hall : ∀ d ∈ ds, lo ≤ d) (hshort : lo.nanos < Nat.pow 2 64) :
    lo ≤ mean ds := by
  have hlength := List.length_pos_iff.mpr hsome
  have hquotient : lo.nanos ≤ totalNanos ds / ds.length := by
    rw [Nat.le_div_iff_mul_le hlength, Nat.mul_comm]
    exact le_totalNanos hall
  change lo.nanos ≤ (mean ds).nanos
  rw [nanos_mean]
  exact le_min hquotient (Nat.le_sub_one_of_lt hshort)

/-- A window with samples has a smallest and a largest one. -/
theorem exists_extremes (w : Window) (hsome : w.samples ≠ []) :
    ∃ lo hi, IsLeast {d | d ∈ w.samples} lo ∧ IsGreatest {d | d ∈ w.samples} hi := by
  have hfinite : {d | d ∈ w.samples}.Finite := List.finite_toSet w.samples
  have hnonempty : {d | d ∈ w.samples}.Nonempty := List.exists_mem_of_ne_nil w.samples hsome
  obtain ⟨lo, hlo, hleast⟩ := Set.exists_min_image _ Span.nanos hfinite hnonempty
  obtain ⟨hi, hhi, hgreatest⟩ := Set.exists_max_image _ Span.nanos hfinite hnonempty
  exact ⟨lo, hi, ⟨hlo, hleast⟩, hhi, hgreatest⟩

/-- The mean of a window of up to `2 ^ 34` samples of any length is worked out in registers without
an overflow and without a division by zero. It is the exact mean but for its fraction and the cap;
where no sample is above the cap it lies between the smallest and the largest, and the order of
arrival does not matter. -/
theorem average_exact (w : Window) (hfew : w.samples.length ≤ Nat.pow 2 34)
    (hspans : ∀ d ∈ w.samples, d ≤ Span.longest) :
    mean? w.samples = some w.average ∧
      (w.samples = [] → w.average = Span.zero) ∧
      (w.samples ≠ [] → w.average.nanos =
        min ⌊(totalNanos w.samples : ℚ) / w.samples.length⌋₊ (Nat.pow 2 64 - 1)) ∧
      (w.samples ≠ [] → (∀ d ∈ w.samples, d.nanos ≤ Nat.pow 2 64 - 1) →
        ∃ lo hi, IsLeast {d | d ∈ w.samples} lo ∧ IsGreatest {d | d ∈ w.samples} hi ∧
          lo ≤ w.average ∧ w.average ≤ hi) ∧
      ∀ v : Window, v.samples.Perm w.samples → v.average = w.average := by
  refine ⟨mean?_eq (totalNanos_fits hfew hspans), ?_, ?_, ?_, ?_⟩
  · intro hnone
    rw [average, hnone, mean_nil]
  · intro _
    rw [Nat.floor_div_eq_div]
    exact nanos_mean w.samples
  · intro hsome hshort
    obtain ⟨lo, hi, hleast, hgreatest⟩ := w.exists_extremes hsome
    have hcap : lo.nanos < Nat.pow 2 64 :=
      (hshort lo hleast.1).trans_lt (Nat.sub_one_lt (Nat.pow_pos (by decide)).ne')
    exact ⟨lo, hi, hleast, hgreatest, le_mean hsome hleast.2 hcap, mean_le hgreatest.2⟩
  · intro v hperm
    exact mean_perm hperm

/-- Three samples at the cap and just below it. -/
def nearCap : Window :=
  (empty 3).recordAll [⟨Nat.pow 2 64 - 1⟩, ⟨Nat.pow 2 64 - 2⟩, ⟨Nat.pow 2 64 - 1⟩]

/-- The mean of samples around the cap loses its fraction. -/
theorem average_exact_nearCap :
    nearCap.samples.length ≤ Nat.pow 2 34 ∧ (∀ d ∈ nearCap.samples, d ≤ Span.longest) ∧
      nearCap.samples ≠ [] ∧ (∀ d ∈ nearCap.samples, d.nanos ≤ Nat.pow 2 64 - 1) ∧
      mean? nearCap.samples = some ⟨Nat.pow 2 64 - 2⟩ ∧
      (∃ lo hi, IsLeast {d | d ∈ nearCap.samples} lo ∧ IsGreatest {d | d ∈ nearCap.samples} hi ∧
        lo ≤ nearCap.average ∧ nearCap.average ≤ hi) := by
  have hfew : nearCap.samples.length ≤ Nat.pow 2 34 := by decide
  have hspans : ∀ d ∈ nearCap.samples, d ≤ Span.longest := by decide
  have hsome : nearCap.samples ≠ [] := by decide
  have hshort : ∀ d ∈ nearCap.samples, d.nanos ≤ Nat.pow 2 64 - 1 := by decide
  have haverage : nearCap.average = ⟨Nat.pow 2 64 - 2⟩ := by decide
  obtain ⟨hmean, -, -, hbetween, -⟩ := average_exact nearCap hfew hspans
  exact ⟨hfew, hspans, hsome, hshort, haverage ▸ hmean, hbetween hsome hshort⟩

end Window
end Rollcall.Latency
