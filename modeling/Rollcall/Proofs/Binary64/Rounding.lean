import Mathlib.Algebra.Order.Field.Power
import Mathlib.Data.Rat.Cast.Order
import Mathlib.Tactic.FieldSimp
import Mathlib.Tactic.Linarith
import Mathlib.Tactic.Positivity
import Mathlib.Tactic.Ring
import Rollcall.Binary64

/-!
Rounding does not cross a whole number.

A ratio and the number it is rounded to lie on the same side of every whole number of at most 53
binary digits (`ofRatio_within`): below such a number the last digit that is kept stands for a
fraction that divides one.
-/

namespace Rollcall.Binary64

def value : Binary64 → ℚ
  | .finite s m e => signed s m * 2 ^ e
  | _ => 0

variable {x y : Binary64} {lo hi : Nat}

/-- A finite number between two whole ones. -/
structure Within (x : Binary64) (lo hi : Nat) : Prop where
  finite : x.isFinite = true
  lo_le : (lo : ℚ) ≤ x.value
  le_hi : x.value ≤ hi

theorem ratio_pos (m : Nat) (e : Int) : 0 < (ratio m e).2 := Nat.pow_pos (by decide)

section Rounding

variable {num den n k : Nat} {e : Int}

/-- A whole number that is not above a ratio is not above what it is rounded to. -/
theorem le_nearest (hden : 0 < den)
    (hle : k * (den * Nat.pow 2 e.toNat) ≤ num * Nat.pow 2 (-e).toNat) : k ≤ nearest num den e := by
  have hpos : 0 < den * Nat.pow 2 e.toNat := Nat.mul_pos hden (Nat.pow_pos (by decide))
  have hquotient : k ≤ num * Nat.pow 2 (-e).toNat / (den * Nat.pow 2 e.toNat) :=
    (Nat.le_div_iff_mul_le hpos).mpr hle
  unfold nearest
  simp only
  split
  · exact hquotient
  · split
    · omega
    · omega

/-- A whole number that is not below a ratio is not below what it is rounded to. -/
theorem nearest_le (hden : 0 < den)
    (hle : num * Nat.pow 2 (-e).toNat ≤ k * (den * Nat.pow 2 e.toNat)) : nearest num den e ≤ k := by
  have hpos : 0 < den * Nat.pow 2 e.toNat := Nat.mul_pos hden (Nat.pow_pos (by decide))
  unfold nearest
  simp only
  generalize num * Nat.pow 2 (-e).toNat = n at hle
  generalize den * Nat.pow 2 e.toNat = d at hle hpos
  have hquotient : n / d ≤ k := Nat.div_le_of_le_mul (by rwa [Nat.mul_comm d k])
  obtain hbelow | hexact := Nat.lt_or_eq_of_le hquotient
  · split
    · omega
    · split <;> omega
  · have hrest : n % d = 0 := by
      have hdivision := Nat.div_add_mod n d
      rw [hexact, Nat.mul_comm d k] at hdivision
      omega
    rw [hrest, if_pos (by omega)]
    exact hquotient

/-- A ratio below `2 ^ 53` keeps its whole part. -/
theorem exponentFor_nonpos (hsmall : num < Nat.pow 2 53 * den) : exponentFor num den ≤ 0 := by
  have hlog : Nat.log2 num ≤ Nat.log2 den + 53 := by
    obtain rfl | hnum := Nat.eq_zero_or_pos num
    · simp
    · refine Nat.lt_succ_iff.mp ((Nat.log2_lt hnum.ne').mpr (hsmall.trans ?_))
      have hden : den < 2 ^ (Nat.log2 den + 1) := Nat.lt_log2_self
      calc Nat.pow 2 53 * den < 2 ^ 53 * 2 ^ (Nat.log2 den + 1) :=
            (Nat.mul_lt_mul_left (by decide)).mpr hden
        _ = 2 ^ (Nat.log2 den + 53 + 1) := by rw [← Nat.pow_add]; congr 1; omega
  unfold exponentFor
  simp only
  refine max_le ?_ (by decide)
  split
  case isTrue hmore =>
    by_contra hpositive
    have hlast : (Nat.log2 num : Int) - Nat.log2 den - 53 = 0 := by omega
    rw [hlast] at hmore
    simp only [Int.toNat_zero, Int.neg_zero, Nat.pow_eq, pow_zero, mul_one] at hmore hsmall
    linarith
  case isFalse => omega

/-- The rounding of a ratio, with the carry into a further digit told apart. -/
theorem ofRatio_eq (s : Bool) (hnum : num ≠ 0) (hden : den ≠ 0) :
    ofRatio s num den =
      match (if nearest num den (exponentFor num den) = Nat.pow 2 53 then
          (Nat.pow 2 52, exponentFor num den + 1)
        else (nearest num den (exponentFor num den), exponentFor num den)) with
      | (m, e) => if maxExponent < e then infinite s else finite s m e :=
  if_neg (by simp [hnum, hden])

end Rounding

section Value

theorem ratio_eq (m : Nat) (e : Int) : ((ratio m e).1 : ℚ) / (ratio m e).2 = m * 2 ^ e := by
  obtain ⟨k, rfl | rfl⟩ := e.eq_nat_or_neg
  · simp [ratio]
  · simp [ratio, div_eq_mul_inv]

theorem value_eq (s : Bool) (m : Nat) (e : Int) :
    (finite s m e).value = signed s (ratio m e).1 / (ratio m e).2 := by
  cases s <;> simp [value, signed, neg_div, ratio_eq]

theorem value_neg (x : Binary64) : (-x).value = -x.value := by
  change x.neg.value = -x.value
  cases x with
  | nan => simp [neg, value]
  | infinite => simp [neg, value]
  | finite s m e => cases s <;> simp [neg, value, signed]

/-- Half as many digits that stand for twice as much. -/
theorem value_succ (m : Nat) (e : Int) :
    (finite false m (e + 1)).value = (finite false (2 * m) e).value := by
  simp only [value, signed, Bool.false_eq_true, if_false, zpow_add_one₀ (two_ne_zero : (2 : ℚ) ≠ 0)]
  push_cast
  ring

end Value

theorem zero_within (s : Bool) (hi : Nat) : (zero s).Within 0 hi := by
  refine ⟨rfl, ?_, ?_⟩ <;> cases s <;> simp [zero, value, signed]

section Whole

variable {num den : Nat} {e : Int} (hden : 0 < den) (hlo : lo * den ≤ num) (hhi : num ≤ hi * den)

include hden hlo hhi

theorem nearest_within (hexponent : e ≤ 0) : (finite false (nearest num den e) e).Within lo hi := by
  obtain ⟨k, rfl⟩ : ∃ k : Nat, e = -(k : Int) := ⟨(-e).toNat, by omega⟩
  have hvalue : (finite false (nearest num den (-k)) (-k)).value =
      (nearest num den (-k) : ℚ) / (Nat.pow 2 k : Nat) := by
    simp [value, signed, div_eq_mul_inv]
  have hscale : (0 : ℚ) < (Nat.pow 2 k : Nat) := by exact_mod_cast Nat.pow_pos (by decide)
  have hpoint : (-(k : Int)).toNat = 0 := by omega
  refine ⟨rfl, ?_, ?_⟩
  · rw [hvalue, le_div_iff₀ hscale]
    refine mod_cast le_nearest hden ?_
    rw [hpoint, Int.neg_neg, Int.toNat_natCast]
    calc lo * Nat.pow 2 k * (den * Nat.pow 2 0) = lo * den * Nat.pow 2 k := by simp; ring
      _ ≤ num * Nat.pow 2 k := Nat.mul_le_mul_right _ hlo
  · rw [hvalue, div_le_iff₀ hscale]
    refine mod_cast nearest_le hden ?_
    rw [hpoint, Int.neg_neg, Int.toNat_natCast]
    calc num * Nat.pow 2 k ≤ hi * den * Nat.pow 2 k := Nat.mul_le_mul_right _ hhi
      _ = hi * Nat.pow 2 k * (den * Nat.pow 2 0) := by simp; ring

/-- What rounding makes of a ratio between two whole numbers. -/
theorem ofRatio_within (hfits : hi < Nat.pow 2 53) : (ofRatio false num den).Within lo hi := by
  by_cases hnum : num = 0
  · obtain rfl | hnone := Nat.eq_zero_or_pos lo
    · have hrounded : ofRatio false num den = zero false := if_pos (.inl hnum)
      rw [hrounded]
      exact zero_within false hi
    · exact absurd hlo (Nat.not_le.mpr (hnum ▸ Nat.mul_pos hnone hden))
  · have hexponent : exponentFor num den ≤ 0 :=
      exponentFor_nonpos (hhi.trans_lt ((Nat.mul_lt_mul_right hden).mpr hfits))
    have hnearest := nearest_within hden hlo hhi hexponent
    rw [ofRatio_eq false hnum hden.ne']
    generalize exponentFor num den = e at hexponent hnearest
    generalize nearest num den e = m at hnearest
    by_cases hfull : m = Nat.pow 2 53
    · -- one digit more than fits: the last one is zero
      have hsame : (finite false (Nat.pow 2 52) (e + 1)).value = (finite false m e).value := by
        rw [value_succ, hfull, (by decide : 2 * Nat.pow 2 52 = Nat.pow 2 53)]
      rw [if_pos hfull]
      dsimp only
      rw [if_neg (by simp only [maxExponent]; omega)]
      exact ⟨rfl, hnearest.lo_le.trans_eq hsame.symm, hsame.trans_le hnearest.le_hi⟩
    · rw [if_neg hfull]
      dsimp only
      rw [if_neg (by simp only [maxExponent]; omega)]
      exact hnearest

end Whole

theorem eq_finite (hfinite : x.isFinite = true) : ∃ s m e, x = finite s m e := by
  cases x with
  | finite s m e => exact ⟨s, m, e, rfl⟩
  | _ => simp [isFinite] at hfinite

theorem isNan_eq_false (hfinite : x.isFinite = true) : x.isNan = false := by
  obtain ⟨s, m, e, rfl⟩ := eq_finite hfinite
  rfl

/-- For finite numbers the comparison is that of what they stand for. -/
theorem blt_iff (hx : x.isFinite = true) (hy : y.isFinite = true) :
    x.blt y = true ↔ x.value < y.value := by
  obtain ⟨s, m, e, rfl⟩ := eq_finite hx
  obtain ⟨t, n, f, rfl⟩ := eq_finite hy
  have hx : (0 : ℚ) < (ratio m e).2 := mod_cast ratio_pos m e
  have hy : (0 : ℚ) < (ratio n f).2 := mod_cast ratio_pos n f
  rw [value_eq, value_eq, div_lt_div_iff₀ hx hy, blt, decide_eq_true_iff]
  exact_mod_cast Iff.rfl

theorem ble_iff (hx : x.isFinite = true) (hy : y.isFinite = true) :
    x.ble y = true ↔ x.value ≤ y.value := by
  rw [← not_lt, ← blt_iff hy hx]
  simp [ble, isNan_eq_false hx, isNan_eq_false hy]

/-- What lies between finite numbers, the upper one left out, is finite. -/
theorem isFinite_of_between {low high : Binary64} (hlow : low.isFinite = true)
    (hhigh : high.isFinite = true) (hle : low.ble x = true) (hlt : x.blt high = true) :
    x.isFinite = true := by
  obtain ⟨s, m, e, rfl⟩ := eq_finite hlow
  obtain ⟨t, n, f, rfl⟩ := eq_finite hhigh
  cases x with
  | finite => rfl
  | nan => simp [blt] at hlt
  | infinite s => cases s <;> simp [blt, ble, isNan] at hle hlt

theorem isFinite_neg (hfinite : x.isFinite = true) : (-x).isFinite = true := by
  obtain ⟨s, m, e, rfl⟩ := eq_finite hfinite
  rfl

theorem ofNat_within {n : Nat} (hfits : n < Nat.pow 2 53) : (ofNat n).Within n n :=
  ofRatio_within Nat.one_pos (Nat.mul_one n).le (Nat.mul_one n).ge hfits

/-- Cutting a fraction off does not cross a whole number that is not negative. -/
theorem signed_div_mem {s : Bool} {a b : Nat} (hb : 0 < b) (hlo : (lo : Int) * b ≤ signed s a)
    (hhi : signed s a ≤ (hi : Int) * b) :
    (lo : Int) ≤ signed s (a / b) ∧ signed s (a / b) ≤ hi := by
  cases s with
  | false =>
      simp only [signed, Bool.false_eq_true, if_false] at hlo hhi ⊢
      have hfloor : lo ≤ a / b := (Nat.le_div_iff_mul_le hb).mpr (mod_cast hlo)
      have hceil : a / b ≤ hi := Nat.div_le_of_le_mul (by rw [Nat.mul_comm]; exact_mod_cast hhi)
      exact ⟨mod_cast hfloor, mod_cast hceil⟩
  | true =>
      simp only [signed, if_true] at hlo ⊢
      have hlow : (0 : Int) ≤ lo * b := by positivity
      obtain rfl : a = 0 := by omega
      have hzero : lo * b = 0 := by
        zify
        omega
      obtain rfl : lo = 0 := (Nat.mul_eq_zero.mp hzero).resolve_right hb.ne'
      simp

namespace Within

variable (hwithin : x.Within lo hi)

include hwithin

theorem max_one (hlo : 1 ≤ lo) : x.max 1 = x := by
  have hone : (ofNat 1).Within 1 1 := ofNat_within (by decide)
  have habove : x.blt (ofNat 1) = false := by
    rw [← Bool.not_eq_true, blt_iff hwithin.finite hone.finite, not_lt]
    exact hone.le_hi.trans (le_trans (mod_cast hlo) hwithin.lo_le)
  change x.max (ofNat 1) = x
  simp [max, isNan_eq_false hwithin.finite, isNan_eq_false hone.finite, habove]

theorem toUnsigned_mem (hfits : hi < Nat.pow 2 64) : lo ≤ x.toUnsigned ∧ x.toUnsigned ≤ hi := by
  obtain ⟨s, m, e, rfl⟩ := eq_finite hwithin.finite
  obtain ⟨-, hlo, hhi⟩ := hwithin
  have hb := ratio_pos m e
  have hpos : (0 : ℚ) < (ratio m e).2 := mod_cast hb
  rw [value_eq, le_div_iff₀ hpos] at hlo
  rw [value_eq, div_le_iff₀ hpos] at hhi
  simp only [toUnsigned, saturate, truncate]
  generalize (ratio m e).1 = a at *
  generalize (ratio m e).2 = b at *
  have hlo : (lo : Int) * b ≤ signed s a := mod_cast hlo
  have hhi : signed s a ≤ (hi : Int) * b := mod_cast hhi
  have hread := signed_div_mem hb hlo hhi
  generalize signed s (a / b) = whole at hread
  generalize Nat.pow 2 64 = bound at hfits ⊢
  omega

end Within

end Rollcall.Binary64
