import Rollcall.Proofs.Binary64.Comparison
import Rollcall.Proofs.Binary64.Monotone

/-!
What rounding leaves alone.

A number of at most 53 binary digits is rounded to itself (`rounded_ratio`), and whatever comes out
of rounding is such a number (`fits_ofRatio`). Since rounding keeps the order, it crosses none of
them (`Representable.le_value`, `Representable.value_le`).
-/

namespace Rollcall.Binary64

/-- The number has no more binary digits than a double, and none that stands for less than the last
one of a subnormal double. -/
def Representable (q : ℚ) : Prop :=
  ∃ (m : Nat) (e : Int), m < Nat.pow 2 53 ∧ minExponent ≤ e ∧ q = m * 2 ^ e

/-- What the last digits of a ratio stand for once it is rounded, however large it is. -/
def rounded (num den : Nat) : ℚ := nearest num den (exponentFor num den) * 2 ^ exponentFor num den

section Digits

variable {num den m : Nat} {e f : Int} {q r : ℚ} {x y : Binary64}

theorem representable_zero : Representable 0 :=
  ⟨0, minExponent, Nat.pow_pos (by decide), le_rfl, by simp⟩

/-- A ratio of few digits is rounded at an exponent at which it has a last digit of its own. -/
theorem exponentFor_ratio_le (hsome : m ≠ 0) (hm : m < Nat.pow 2 53) (he : minExponent ≤ e) :
    exponentFor (ratio m e).1 (ratio m e).2 ≤ e := by
  have hnum : (ratio m e).1 ≠ 0 := Nat.mul_ne_zero hsome (Nat.pow_pos (by decide)).ne'
  have hfills := (exponentFor_spec hnum (ratio_pos m e).ne').2
  rw [ratio_eq] at hfills
  generalize exponentFor (ratio m e).1 (ratio m e).2 = f at hfills ⊢
  by_contra hmore
  have hm : (m : ℚ) < 2 ^ 53 := mod_cast hm
  have hpower : (2 : ℚ) ^ (e + 1) ≤ 2 ^ f := zpow_le_zpow_right₀ one_le_two (by omega)
  refine absurd (hfills (by omega)) (not_le.mpr ?_)
  calc (m : ℚ) * 2 ^ e < 2 ^ 53 * 2 ^ e := by gcongr
    _ = 2 ^ 52 * 2 ^ (e + 1) := by rw [zpow_add_one₀ two_ne_zero]; ring
    _ ≤ 2 ^ 52 * 2 ^ f := by gcongr

/-- At an exponent that is not larger, nothing is cut off. -/
theorem nearest_ratio (hle : f ≤ e) :
    nearest (ratio m e).1 (ratio m e).2 f = m * Nat.pow 2 (e - f).toNat := by
  have hexponents : e.toNat + (-f).toNat = (e - f).toNat + ((-e).toNat + f.toNat) := by omega
  have hexact : (ratio m e).1 * Nat.pow 2 (-f).toNat =
      m * Nat.pow 2 (e - f).toNat * ((ratio m e).2 * Nat.pow 2 f.toNat) := by
    simp only [ratio, Nat.pow_eq]
    rw [mul_assoc, ← pow_add, hexponents, pow_add, pow_add, mul_assoc]
  refine le_antisymm (nearest_le (ratio_pos m e) hexact.le) (le_nearest (ratio_pos m e) hexact.ge)

/-- A number that fits is its own rounding. -/
theorem rounded_ratio (hsome : m ≠ 0) (hm : m < Nat.pow 2 53) (he : minExponent ≤ e) :
    rounded (ratio m e).1 (ratio m e).2 = m * 2 ^ e := by
  have hle := exponentFor_ratio_le hsome hm he
  unfold rounded
  rw [nearest_ratio hle]
  generalize exponentFor (ratio m e).1 (ratio m e).2 = f at hle ⊢
  have hshift : (2 : ℚ) ^ e = 2 ^ (e - f).toNat * 2 ^ f := by
    rw [← zpow_natCast, ← zpow_add₀ two_ne_zero, Int.toNat_of_nonneg (by omega)]
    congr 1
    omega
  rw [hshift, Nat.cast_mul, mul_assoc]
  norm_cast

/-- A finite number has no more digits than fit. -/
def Fits : Binary64 → Prop
  | .finite _ m e => m < Nat.pow 2 53 ∧ minExponent ≤ e
  | _ => True

theorem fits_zero (s : Bool) : (zero s).Fits := ⟨Nat.pow_pos (by decide), le_rfl⟩

/-- What comes out of rounding: an infinity, if the last digit stands for too much, or a number that
fits. -/
theorem ofRatio_cases (s : Bool) (num den : Nat) :
    (num ≠ 0 ∧ den ≠ 0 ∧ maxExponent ≤ exponentFor num den ∧ ofRatio s num den = infinite s) ∨
      ∃ m e, ofRatio s num den = finite s m e ∧ (finite s m e).Fits := by
  by_cases hzero : num = 0 ∨ den = 0
  · exact .inr ⟨0, minExponent, if_pos hzero, fits_zero s⟩
  · obtain ⟨hnum, hden⟩ := not_or.mp hzero
    have hmost := nearest_le_full hnum hden
    have hlow := minExponent_le_exponentFor num den
    rw [ofRatio_eq s hnum hden]
    generalize exponentFor num den = e at hmost hlow ⊢
    generalize nearest num den e = m at hmost ⊢
    by_cases hfull : m = Nat.pow 2 53
    · rw [if_pos hfull]
      dsimp only
      split
      case isTrue hover => exact .inl ⟨hnum, hden, Int.lt_add_one_iff.mp hover, rfl⟩
      case isFalse => exact .inr ⟨_, _, rfl, by decide, by omega⟩
    · rw [if_neg hfull]
      dsimp only
      split
      case isTrue hover => exact .inl ⟨hnum, hden, hover.le, rfl⟩
      case isFalse => exact .inr ⟨_, _, rfl, Nat.lt_of_le_of_ne hmost hfull, hlow⟩

theorem fits_ofRatio (s : Bool) (num den : Nat) : (ofRatio s num den).Fits := by
  rcases ofRatio_cases s num den with ⟨_, _, _, hinfinite⟩ | ⟨m, e, hfinite, hfits⟩
  · rw [hinfinite]
    trivial
  · rw [hfinite]
    exact hfits

theorem Fits.representable (hfits : x.Fits) (hpos : 0 ≤ x.value) : Representable x.value := by
  cases x with
  | nan => exact representable_zero
  | infinite s => exact representable_zero
  | finite s m e =>
      rw [value_eq_ratio hpos, ratio_eq]
      exact ⟨m, e, hfits.1, hfits.2, rfl⟩

/-- Results of arithmetic fit, for they come out of a rounding. -/
theorem Fits.mul (x y : Binary64) : (x * y).Fits := by
  change (x.mul y).Fits
  unfold Binary64.mul
  split
  case h_6 s m e t n f => exact fits_ofRatio _ _ _
  case h_4 s t m e => split <;> trivial
  case h_5 s m e t => split <;> trivial
  all_goals trivial

theorem Fits.min (hx : x.Fits) (hy : y.Fits) : (x.min y).Fits := by
  unfold Binary64.min
  split
  · exact hy
  · split
    · exact hx
    · split
      · exact hy
      · exact hx

/-- A ratio that is not too large is not rounded to an infinity. -/
theorem isFinite_ofRatio (s : Bool) (hle : (num : ℚ) / den ≤ 2 ^ 200) :
    (ofRatio s num den).isFinite = true := by
  rcases ofRatio_cases s num den with ⟨hnum, hden, hover, _⟩ | ⟨m, e, hfinite, _⟩
  · have hfills := (exponentFor_spec hnum hden).2 (lt_of_lt_of_le (by decide) hover)
    have hpower : (2 : ℚ) ^ maxExponent ≤ 2 ^ exponentFor num den :=
      zpow_le_zpow_right₀ one_le_two hover
    refine absurd (hfills.trans hle) (not_le.mpr ?_)
    calc (2 : ℚ) ^ 200 < 2 ^ 52 * 2 ^ maxExponent := by
          rw [maxExponent, ← zpow_natCast, ← zpow_natCast, ← zpow_add₀ two_ne_zero]
          exact zpow_lt_zpow_right₀ one_lt_two (by norm_num)
      _ ≤ 2 ^ 52 * 2 ^ exponentFor num den := by gcongr
  · rw [hfinite]
    rfl

end Digits

section Rounds

variable {x y : Binary64} {q r : ℚ}

theorem Rounds.isFinite (hrounds : x.Rounds q) (hle : q ≤ 2 ^ 200) : x.isFinite = true := by
  obtain ⟨s, num, den, _, _, rfl, rfl⟩ := hrounds
  exact isFinite_ofRatio s hle

/-- What is not negative is rounded to a finite number or to the positive infinity. -/
theorem Rounds.finite_or_infinite (hrounds : x.Rounds q) :
    x.isFinite = true ∨ x = infinite false := by
  obtain ⟨s, num, den, _, hsign, _, rfl⟩ := hrounds
  rcases ofRatio_cases s num den with ⟨hnum, _, _, hinfinite⟩ | ⟨m, e, hfinite, _⟩
  · have hs : s = false := by
      cases s with
      | false => rfl
      | true => exact absurd (hsign rfl) hnum
    rw [hinfinite, hs]
    exact .inr rfl
  · rw [hfinite]
    exact .inl rfl

/-- What the digits of a rounded number stand for. -/
theorem Rounds.value_eq (hrounds : x.Rounds q) (hfinite : x.isFinite = true) :
    q = 0 ∧ x.value = 0 ∨
      ∃ num den : Nat, num ≠ 0 ∧ den ≠ 0 ∧ (num : ℚ) / den = q ∧ x.value = rounded num den := by
  obtain ⟨num, den, hden, rfl, hvalue, hfin⟩ := hrounds.unsigned
  obtain rfl | hnum := eq_or_ne num 0
  · rw [ofRatio_zero, value_zero] at hvalue
    exact .inl ⟨by simp, hvalue⟩
  · exact .inr
      ⟨num, den, hnum, hden.ne', rfl, hvalue.trans (value_ofRatio hnum hden.ne' (hfin ▸ hfinite))⟩

theorem Rounds.nonneg (hrounds : x.Rounds q) (hfinite : x.isFinite = true) : 0 ≤ x.value := by
  rcases hrounds.value_eq hfinite with ⟨_, hvalue⟩ | ⟨num, den, _, _, _, hvalue⟩
  · rw [hvalue]
  · rw [hvalue, rounded]
    positivity

/-- A number that has few digits is not crossed from above. -/
theorem Representable.le_value (hq : Representable q) (hrounds : x.Rounds r) (hle : q ≤ r)
    (hfinite : x.isFinite = true) : q ≤ x.value := by
  obtain ⟨m, e, hm, he, rfl⟩ := hq
  obtain rfl | hsome := eq_or_ne m 0
  · simpa using hrounds.nonneg hfinite
  rcases hrounds.value_eq hfinite with ⟨rfl, _⟩ | ⟨num, den, hnum, hden, rfl, hvalue⟩
  · have hpos : (0 : ℚ) < m := mod_cast Nat.pos_of_ne_zero hsome
    exact absurd hle (not_le.mpr (by positivity))
  · have hmnum : (ratio m e).1 ≠ 0 := Nat.mul_ne_zero hsome (Nat.pow_pos (by decide)).ne'
    have hmden := ratio_pos m e
    rw [hvalue, ← rounded_ratio hsome hm he]
    refine nearest_mul_le hmnum hmden.ne' hnum hden ?_
    rw [← ratio_eq, div_le_div_iff₀ (mod_cast hmden) (mod_cast Nat.pos_of_ne_zero hden)] at hle
    exact_mod_cast hle

/-- A number that has few digits is not crossed from below. -/
theorem Representable.value_le (hq : Representable q) (hrounds : x.Rounds r) (hle : r ≤ q)
    (hfinite : x.isFinite = true) : x.value ≤ q := by
  obtain ⟨m, e, hm, he, rfl⟩ := hq
  rcases hrounds.value_eq hfinite with ⟨_, hvalue⟩ | ⟨num, den, hnum, hden, rfl, hvalue⟩
  · rw [hvalue]
    positivity
  · have hratio : (0 : ℚ) < num / den := by
      have hnum : (0 : ℚ) < num := mod_cast Nat.pos_of_ne_zero hnum
      have hden : (0 : ℚ) < den := mod_cast Nat.pos_of_ne_zero hden
      positivity
    have hsome : m ≠ 0 := by
      rintro rfl
      rw [Nat.cast_zero, zero_mul] at hle
      exact absurd hle (not_le.mpr hratio)
    have hmnum : (ratio m e).1 ≠ 0 := Nat.mul_ne_zero hsome (Nat.pow_pos (by decide)).ne'
    have hmden := ratio_pos m e
    rw [hvalue, ← rounded_ratio hsome hm he]
    refine nearest_mul_le hnum hden hmnum hmden.ne' ?_
    rw [← ratio_eq, div_le_div_iff₀ (mod_cast Nat.pos_of_ne_zero hden) (mod_cast hmden)] at hle
    exact_mod_cast hle

theorem rounds_ofNat (n : Nat) : (ofNat n).Rounds n :=
  ⟨false, n, 1, Nat.one_pos, by simp, by simp, rfl⟩

end Rounds

section Sign

variable {x y : Binary64}

/-- Rounding does not change a sign. -/
theorem ofRatio_not_pos {s : Bool} {num : Nat} (hsign : s = true ∨ num = 0) (den : Nat) :
    (zero false).blt (ofRatio s num den) = false := by
  obtain rfl | rfl := hsign
  · rcases ofRatio_cases true num den with ⟨_, _, _, hinfinite⟩ | ⟨m, e, hfinite, _⟩
    · rw [hinfinite]
      rfl
    · have hvalue : (finite true m e).value ≤ 0 := by
        simp only [value, signed, if_true, Int.cast_neg, Int.cast_natCast, neg_mul,
          Left.neg_nonpos_iff]
        positivity
      rw [hfinite, ← Bool.not_eq_true, blt_iff rfl rfl, value_zero]
      exact not_lt.mpr hvalue
  · rw [ofRatio_zero, ← Bool.not_eq_true, blt_iff rfl rfl, value_zero, value_zero]
    exact lt_irrefl 0

/-- A product of a number that is not positive and one that is not negative is not positive. -/
theorem mul_not_pos (hx : x.isFinite = true) (hy : y.isFinite = true) (hxle : x.value ≤ 0)
    (hyle : 0 ≤ y.value) : (zero false).blt (x * y) = false := by
  obtain ⟨s, m, e, rfl⟩ := eq_finite hx
  obtain ⟨t, n, f, rfl⟩ := eq_finite hy
  have hleft : s = true ∨ m = 0 := by
    cases s with
    | true => exact .inl rfl
    | false =>
        have hopposite : 0 ≤ (finite true m e).value := by simpa [value, signed] using hxle
        exact .inr (significand_eq_zero hopposite rfl)
  have hright : t = false ∨ n = 0 := by
    cases t with
    | false => exact .inl rfl
    | true => exact .inr (significand_eq_zero hyle rfl)
  change (zero false).blt (ofRatio (s ^^ t) ((ratio m e).1 * (ratio n f).1) _) = false
  apply ofRatio_not_pos
  rcases hleft with rfl | rfl
  · rcases hright with rfl | rfl
    · exact .inl rfl
    · exact .inr (by simp [ratio])
  · exact .inr (by simp [ratio])

/-- Negative infinity by a number that is not negative never passes for a positive number. -/
theorem infinite_mul_not_pos (hy : y.isFinite = true) (hyle : 0 ≤ y.value) :
    (zero false).blt (infinite true * y) = false := by
  obtain ⟨t, n, f, rfl⟩ := eq_finite hy
  change (zero false).blt (if n = 0 then nan else infinite (true ^^ t)) = false
  split
  case isTrue => rfl
  case isFalse hsome =>
    have ht : t = false := by
      cases t with
      | false => rfl
      | true => exact absurd (significand_eq_zero hyle rfl) hsome
    rw [ht]
    rfl

/-- A factor of at least one does not make a number smaller. The product may be no number, as that
of zero and an infinity is. -/
theorem le_mul (hx : x.isFinite = true) (hfits : x.Fits) (hpos : 0 ≤ x.value)
    (hy : (1 : Binary64).ble y = true) :
    x * y ≠ infinite true ∧ ((x * y).isFinite = true → x.value ≤ (x * y).value) := by
  obtain ⟨hone, hvalue⟩ := value_one
  cases y with
  | nan => simp [ble, isNan] at hy
  | infinite t =>
      obtain ⟨s, m, e, rfl⟩ := eq_finite hx
      have ht : t = false := by
        cases t with
        | false => rfl
        | true => cases hy
      subst ht
      have hproduct : finite s m e * infinite false = if m = 0 then nan else infinite s := by
        change (if m = 0 then nan else infinite (s ^^ false)) = _
        rw [Bool.xor_false]
      rw [hproduct]
      split
      case isTrue => exact ⟨by simp, by simp [isFinite]⟩
      case isFalse hsome =>
        have hs : s ≠ true := fun hs => hsome (significand_eq_zero hpos hs)
        exact ⟨by simp [hs], by simp [isFinite]⟩
  | finite t n f =>
      have hfactor := (ble_iff hone rfl).mp hy
      rw [hvalue] at hfactor
      have hrounds := rounds_mul hx rfl hpos (zero_le_one.trans hfactor)
      refine ⟨?_, (hfits.representable hpos).le_value hrounds (le_mul_of_one_le_right hpos hfactor)⟩
      rcases hrounds.finite_or_infinite with hfinite | hinfinite
      · rintro hproduct
        rw [hproduct] at hfinite
        cases hfinite
      · rw [hinfinite]
        simp

end Sign

end Rollcall.Binary64
