import Mathlib.Algebra.Order.Floor.Semifield
import Mathlib.Data.Rat.Floor
import Mathlib.Tactic.SplitIfs
import Rollcall.Proofs.Binary64.Rounding

/-!
Rounding keeps the order.

A ratio that is not negative is rounded at an exponent that depends on its size alone
(`exponentFor_spec`). A larger ratio is rounded at the same exponent or at a larger one, and never
to a smaller number (`Rounds.value_le`); products, quotients and sums are such roundings. Cutting
the fraction off keeps the order too (`toUnsigned_mono`).
-/

namespace Rollcall.Binary64

section Digits

variable {num den num' den' : Nat} {e : Int}

/-- A ratio compared with a whole number of last digits. -/
theorem le_ratio_iff (num k : Nat) (e : Int) (hden : den ≠ 0) :
    (k : ℚ) * 2 ^ e ≤ num / den ↔ k * (den * Nat.pow 2 e.toNat) ≤ num * Nat.pow 2 (-e).toNat := by
  have hpos : (0 : ℚ) < den := mod_cast Nat.pos_of_ne_zero hden
  rw [le_div_iff₀ hpos]
  obtain ⟨n, rfl | rfl⟩ := e.eq_nat_or_neg
  · simp only [Int.toNat_natCast, Int.toNat_neg_natCast, Nat.pow_eq, pow_zero, mul_one,
      zpow_natCast]
    rw [mul_assoc, mul_comm ((2 : ℚ) ^ n)]
    exact_mod_cast Iff.rfl
  · have hscale : (0 : ℚ) < 2 ^ n := by positivity
    simp only [neg_neg, Int.toNat_natCast, Int.toNat_neg_natCast, Nat.pow_eq, pow_zero, mul_one,
      zpow_neg, zpow_natCast]
    rw [mul_right_comm, ← div_eq_mul_inv, div_le_iff₀ hscale]
    exact_mod_cast Iff.rfl

/-- At one exponent a larger ratio does not get fewer last digits. -/
theorem nearest_mono (hden : 0 < den) (hden' : 0 < den') (hle : num * den' ≤ num' * den) :
    nearest num den e ≤ nearest num' den' e := by
  have hpos : 0 < den * Nat.pow 2 e.toNat := Nat.mul_pos hden (Nat.pow_pos (by decide))
  have hpos' : 0 < den' * Nat.pow 2 e.toNat := Nat.mul_pos hden' (Nat.pow_pos (by decide))
  have hscaled : num * Nat.pow 2 (-e).toNat * (den' * Nat.pow 2 e.toNat) ≤
      num' * Nat.pow 2 (-e).toNat * (den * Nat.pow 2 e.toNat) := by
    calc num * Nat.pow 2 (-e).toNat * (den' * Nat.pow 2 e.toNat)
        = num * den' * (Nat.pow 2 (-e).toNat * Nat.pow 2 e.toNat) := by ring
      _ ≤ num' * den * (Nat.pow 2 (-e).toNat * Nat.pow 2 e.toNat) := Nat.mul_le_mul_right _ hle
      _ = num' * Nat.pow 2 (-e).toNat * (den * Nat.pow 2 e.toNat) := by ring
  unfold nearest
  simp only
  generalize num * Nat.pow 2 (-e).toNat = n at hscaled ⊢
  generalize num' * Nat.pow 2 (-e).toNat = n' at hscaled ⊢
  generalize den * Nat.pow 2 e.toNat = d at hpos hscaled ⊢
  generalize den' * Nat.pow 2 e.toNat = d' at hpos' hscaled ⊢
  have hwhole : n / d ≤ n' / d' := by
    rw [Nat.le_div_iff_mul_le hpos']
    refine Nat.le_of_mul_le_mul_right ?_ hpos
    calc n / d * d' * d = n / d * d * d' := by ring
      _ ≤ n * d' := Nat.mul_le_mul_right _ (Nat.div_mul_le_self n d)
      _ ≤ n' * d := hscaled
  obtain hbelow | hsame := Nat.lt_or_eq_of_le hwhole
  · split_ifs <;> omega
  · -- the whole parts are the same, so the order is that of the rests
    have hrest : n % d * d' ≤ n' % d' * d := by
      rw [← Nat.div_add_mod n d, ← Nat.div_add_mod n' d', hsame] at hscaled
      linarith
    have hhalf : d ≤ 2 * (n % d) → d' ≤ 2 * (n' % d') := by
      intro hmore
      refine Nat.le_of_mul_le_mul_right ?_ hpos
      calc d' * d ≤ 2 * (n % d * d') := by linarith [Nat.mul_le_mul_left d' hmore]
        _ ≤ 2 * (n' % d') * d := by linarith
    have hover : d < 2 * (n % d) → d' < 2 * (n' % d') := by
      intro hmore
      refine Nat.lt_of_mul_lt_mul_right (a := d) ?_
      calc d' * d < 2 * (n % d * d') := by linarith [(Nat.mul_lt_mul_left hpos').mpr hmore]
        _ ≤ 2 * (n' % d') * d := by linarith
    rw [hsame]
    split_ifs <;> omega

/-- A ratio lies within a factor of two around the quotient of the leading digits. -/
theorem log_bounds (hnum : num ≠ 0) (hden : den ≠ 0) :
    (2 : ℚ) ^ 52 * 2 ^ ((Nat.log2 num : Int) - Nat.log2 den - 53) ≤ num / den ∧
      (num : ℚ) / den < 2 ^ 54 * 2 ^ ((Nat.log2 num : Int) - Nat.log2 den - 53) := by
  have hpos : (0 : ℚ) < den := mod_cast Nat.pos_of_ne_zero hden
  have hnumlo : ((2 : ℚ) ^ (Nat.log2 num : Int)) ≤ num := by
    exact_mod_cast Nat.log2_self_le hnum
  have hnumhi : (num : ℚ) < 2 ^ ((Nat.log2 num : Int) + 1) := by
    exact_mod_cast Nat.lt_log2_self (n := num)
  have hdenlo : ((2 : ℚ) ^ (Nat.log2 den : Int)) ≤ den := by
    exact_mod_cast Nat.log2_self_le hden
  have hdenhi : (den : ℚ) < 2 ^ ((Nat.log2 den : Int) + 1) := by
    exact_mod_cast Nat.lt_log2_self (n := den)
  generalize (Nat.log2 num : Int) = a at *
  generalize (Nat.log2 den : Int) = b at *
  have hshift (k : Nat) : (2 : ℚ) ^ k * 2 ^ (a - b - 53) = 2 ^ (a + (k - 53)) / 2 ^ b := by
    rw [← zpow_natCast, ← zpow_add₀ two_ne_zero, ← zpow_sub₀ two_ne_zero]
    congr 1
    ring
  rw [hshift, hshift]
  constructor
  · calc (2 : ℚ) ^ (a + ((52 : Nat) - 53)) / 2 ^ b = 2 ^ a / 2 ^ (b + 1) := by
          rw [← zpow_sub₀ two_ne_zero, ← zpow_sub₀ two_ne_zero]
          congr 1
          push_cast
          ring
      _ ≤ num / den := by gcongr
  · calc (num : ℚ) / den < 2 ^ (a + 1) / den := by gcongr
      _ ≤ 2 ^ (a + ((54 : Nat) - 53)) / 2 ^ b := by
          gcongr <;> norm_num

/-- A ratio has at most 53 digits before the point at its exponent, and exactly as many unless it is
subnormal. -/
theorem exponentFor_spec (hnum : num ≠ 0) (hden : den ≠ 0) :
    (num : ℚ) / den < 2 ^ 53 * 2 ^ exponentFor num den ∧
      (minExponent < exponentFor num den → 2 ^ 52 * 2 ^ exponentFor num den ≤ (num : ℚ) / den) := by
  obtain ⟨hlo, hhi⟩ := log_bounds hnum hden
  unfold exponentFor
  simp only
  generalize (Nat.log2 num : Int) - Nat.log2 den - 53 = l at hlo hhi ⊢
  have hfull : den * Nat.pow 2 l.toNat * Nat.pow 2 53 ≤ num * Nat.pow 2 (-l).toNat ↔
      (2 : ℚ) ^ 53 * 2 ^ l ≤ num / den := by
    have hcompared := le_ratio_iff num (Nat.pow 2 53) l hden
    rw [Nat.mul_comm, ← hcompared]
    exact_mod_cast Iff.rfl
  generalize hexponent : (if den * Nat.pow 2 l.toNat * Nat.pow 2 53 ≤ num * Nat.pow 2 (-l).toNat
    then l + 1 else l) = e
  have hbounds : (num : ℚ) / den < 2 ^ 53 * 2 ^ e ∧ (2 : ℚ) ^ 52 * 2 ^ e ≤ num / den := by
    by_cases hmore : (2 : ℚ) ^ 53 * 2 ^ l ≤ num / den
    · rw [if_pos (hfull.mpr hmore)] at hexponent
      subst hexponent
      rw [zpow_add_one₀ two_ne_zero]
      constructor <;> linarith
    · rw [if_neg (mt hfull.mp hmore)] at hexponent
      subst hexponent
      exact ⟨not_le.mp hmore, hlo⟩
  constructor
  · refine hbounds.1.trans_le ?_
    gcongr
    · norm_num
    · exact le_max_left _ _
  · intro hnormal
    rw [max_eq_left (by omega)]
    exact hbounds.2

/-- Rounding up may add a digit, and rounding down takes none away. -/
theorem nearest_le_full (hnum : num ≠ 0) (hden : den ≠ 0) :
    nearest num den (exponentFor num den) ≤ Nat.pow 2 53 := by
  have hfits := (exponentFor_spec hnum hden).1
  have hcompared := le_ratio_iff num (Nat.pow 2 53) (exponentFor num den) hden
  refine nearest_le (Nat.pos_of_ne_zero hden) (Nat.le_of_lt (not_le.mp fun hmore => ?_))
  exact absurd (hcompared.mpr hmore) (not_le.mpr (mod_cast hfits))

/-- Above the subnormal numbers the last digits fill all 53 places. -/
theorem normal_le_nearest (hnum : num ≠ 0) (hden : den ≠ 0)
    (hnormal : minExponent < exponentFor num den) :
    Nat.pow 2 52 ≤ nearest num den (exponentFor num den) := by
  have hfills := (exponentFor_spec hnum hden).2 hnormal
  have hcompared := le_ratio_iff num (Nat.pow 2 52) (exponentFor num den) hden
  exact le_nearest (Nat.pos_of_ne_zero hden) (hcompared.mp (mod_cast hfills))

theorem minExponent_le_exponentFor (num den : Nat) : minExponent ≤ exponentFor num den :=
  le_max_right _ _

/-- What the last digits of a larger ratio stand for is not less. Where its exponent is larger, a
power of two lies between the two. -/
theorem nearest_mul_le (hnum : num ≠ 0) (hden : den ≠ 0) (hnum' : num' ≠ 0) (hden' : den' ≠ 0)
    (hle : num * den' ≤ num' * den) :
    (nearest num den (exponentFor num den) : ℚ) * 2 ^ exponentFor num den ≤
      nearest num' den' (exponentFor num' den') * 2 ^ exponentFor num' den' := by
  have hdigits (e : Int) : nearest num den e ≤ nearest num' den' e :=
    nearest_mono (Nat.pos_of_ne_zero hden) (Nat.pos_of_ne_zero hden') hle
  have hratio : (num : ℚ) / den ≤ num' / den' := by
    rw [div_le_div_iff₀ (mod_cast Nat.pos_of_ne_zero hden) (mod_cast Nat.pos_of_ne_zero hden')]
    exact_mod_cast hle
  have hfull := nearest_le_full hnum hden
  have hnormal := normal_le_nearest hnum' hden'
  have hlow := minExponent_le_exponentFor num den
  have hlow' := minExponent_le_exponentFor num' den'
  have hsmall := (exponentFor_spec hnum' hden').1
  have hlarge := (exponentFor_spec hnum hden).2
  generalize exponentFor num den = e at *
  generalize exponentFor num' den' = e' at *
  obtain hbelow | rfl | habove := lt_trichotomy e e'
  · have hdigits : (nearest num den e : ℚ) ≤ 2 ^ 53 := mod_cast hfull
    have hdigits' : (2 : ℚ) ^ 52 ≤ nearest num' den' e' := mod_cast hnormal (by omega)
    have hpower : (2 : ℚ) ^ (e + 1) ≤ 2 ^ e' := zpow_le_zpow_right₀ one_le_two (by omega)
    calc (nearest num den e : ℚ) * 2 ^ e ≤ 2 ^ 53 * 2 ^ e := by gcongr
      _ = 2 ^ 52 * 2 ^ (e + 1) := by rw [zpow_add_one₀ two_ne_zero]; ring
      _ ≤ 2 ^ 52 * 2 ^ e' := by gcongr
      _ ≤ nearest num' den' e' * 2 ^ e' := by gcongr
  · have hdigits : (nearest num den e : ℚ) ≤ nearest num' den' e := mod_cast hdigits e
    gcongr
  · -- the larger ratio would be below a power of two that the smaller one reaches
    have hpower : (2 : ℚ) ^ (e' + 1) ≤ 2 ^ e := zpow_le_zpow_right₀ one_le_two (by omega)
    refine absurd (hsmall.trans_le ?_) (not_lt.mpr hratio)
    calc (2 : ℚ) ^ 53 * 2 ^ e' = 2 ^ 52 * 2 ^ (e' + 1) := by
          rw [zpow_add_one₀ two_ne_zero]; ring
      _ ≤ 2 ^ 52 * 2 ^ e := by gcongr
      _ ≤ num / den := hlarge (by omega)

/-- A ratio that is not rounded to an infinity is rounded to what its last digits stand for. -/
theorem value_ofRatio (hnum : num ≠ 0) (hden : den ≠ 0)
    (hfinite : (ofRatio false num den).isFinite = true) :
    (ofRatio false num den).value =
      nearest num den (exponentFor num den) * 2 ^ exponentFor num den := by
  rw [ofRatio_eq false hnum hden] at hfinite ⊢
  generalize exponentFor num den = e at hfinite ⊢
  generalize nearest num den e = m at hfinite ⊢
  have hvalue : (finite false m e).value = m * 2 ^ e := by simp [value, signed]
  by_cases hfull : m = Nat.pow 2 53
  · have hcarried : (finite false (Nat.pow 2 52) (e + 1)).value = m * 2 ^ e := by
      rw [value_succ, ← hvalue, hfull, (by decide : 2 * Nat.pow 2 52 = Nat.pow 2 53)]
    rw [if_pos hfull] at hfinite ⊢
    dsimp only at hfinite ⊢
    split at hfinite
    case isTrue => cases hfinite
    case isFalse hfits => rw [if_neg hfits, hcarried]
  · rw [if_neg hfull] at hfinite ⊢
    dsimp only at hfinite ⊢
    split at hfinite
    case isTrue => cases hfinite
    case isFalse hfits => rw [if_neg hfits, hvalue]

theorem ofRatio_zero (s : Bool) (den : Nat) : ofRatio s 0 den = zero s := if_pos (.inl rfl)

theorem value_zero (s : Bool) : (zero s).value = 0 := by cases s <;> simp [zero, value, signed]

/-- Rounding keeps the order of ratios. -/
theorem value_ofRatio_mono (hden : 0 < den) (hden' : 0 < den') (hle : num * den' ≤ num' * den)
    (hfinite : (ofRatio false num den).isFinite = true)
    (hfinite' : (ofRatio false num' den').isFinite = true) :
    (ofRatio false num den).value ≤ (ofRatio false num' den').value := by
  obtain rfl | hnum := eq_or_ne num 0
  · rw [ofRatio_zero, value_zero]
    obtain rfl | hnum' := eq_or_ne num' 0
    · rw [ofRatio_zero, value_zero]
    · rw [value_ofRatio hnum' hden'.ne' hfinite']
      positivity
  · have hnum' : num' ≠ 0 := by
      rintro rfl
      have hpos : 0 < num * den' := Nat.mul_pos (Nat.pos_of_ne_zero hnum) hden'
      omega
    rw [value_ofRatio hnum hden.ne' hfinite, value_ofRatio hnum' hden'.ne' hfinite']
    exact nearest_mul_le hnum hden.ne' hnum' hden'.ne' hle

end Digits

/-- The number is what a ratio that is not negative is rounded to. Only zero may come with a
sign. -/
def Rounds (x : Binary64) (q : ℚ) : Prop :=
  ∃ (s : Bool) (num den : Nat), 0 < den ∧ (s = true → num = 0) ∧ (num : ℚ) / den = q ∧
    x = ofRatio s num den

section Rounds

variable {x y : Binary64} {q r : ℚ} {lo hi : Nat}

/-- Without its sign, which only a zero has, the number has the same value. -/
theorem Rounds.unsigned (hrounds : x.Rounds q) :
    ∃ num den : Nat, 0 < den ∧ (num : ℚ) / den = q ∧ x.value = (ofRatio false num den).value ∧
      x.isFinite = (ofRatio false num den).isFinite := by
  obtain ⟨s, num, den, hden, hsign, hratio, rfl⟩ := hrounds
  refine ⟨num, den, hden, hratio, ?_⟩
  cases s with
  | false => exact ⟨rfl, rfl⟩
  | true =>
      obtain rfl := hsign rfl
      rw [ofRatio_zero, ofRatio_zero, value_zero, value_zero]
      exact ⟨rfl, rfl⟩

/-- A larger ratio is not rounded to a smaller number. -/
theorem Rounds.value_le (hx : x.Rounds q) (hy : y.Rounds r) (hle : q ≤ r)
    (hfinite : x.isFinite = true) (hfinite' : y.isFinite = true) : x.value ≤ y.value := by
  obtain ⟨num, den, hden, rfl, hvalue, hfin⟩ := hx.unsigned
  obtain ⟨num', den', hden', rfl, hvalue', hfin'⟩ := hy.unsigned
  rw [div_le_div_iff₀ (mod_cast hden) (mod_cast hden')] at hle
  rw [hvalue, hvalue']
  exact value_ofRatio_mono hden hden' (mod_cast hle) (hfin ▸ hfinite) (hfin' ▸ hfinite')

/-- Rounding does not cross a whole number. -/
theorem Rounds.within (hrounds : x.Rounds q) (hlo : (lo : ℚ) ≤ q) (hhi : q ≤ hi)
    (hfits : hi < Nat.pow 2 53) : x.Within lo hi := by
  obtain ⟨num, den, hden, rfl, hvalue, hfinite⟩ := hrounds.unsigned
  have hpos : (0 : ℚ) < den := mod_cast hden
  rw [le_div_iff₀ hpos] at hlo
  rw [div_le_iff₀ hpos] at hhi
  have hwithin : (ofRatio false num den).Within lo hi :=
    ofRatio_within hden (mod_cast hlo) (mod_cast hhi) hfits
  exact ⟨hfinite.trans hwithin.finite, hvalue ▸ hwithin.lo_le, hvalue ▸ hwithin.le_hi⟩

/-- A number that is not negative has no sign, unless it is zero. -/
theorem significand_eq_zero {s : Bool} {m : Nat} {e : Int} (hvalue : 0 ≤ (finite s m e).value)
    (hsign : s = true) : m = 0 := by
  subst hsign
  have hpower : (0 : ℚ) < 2 ^ e := by positivity
  simp only [value, signed, if_true, Int.cast_neg, Int.cast_natCast, neg_mul, Left.nonneg_neg_iff]
    at hvalue
  by_contra hsome
  have hpos : (0 : ℚ) < m := mod_cast Nat.pos_of_ne_zero hsome
  exact absurd hvalue (not_le.mpr (mul_pos hpos hpower))

theorem value_eq_ratio {s : Bool} {m : Nat} {e : Int} (hvalue : 0 ≤ (finite s m e).value) :
    (finite s m e).value = (ratio m e).1 / (ratio m e).2 := by
  rw [ratio_eq]
  cases s with
  | false => simp [value, signed]
  | true => simp [value, signed, significand_eq_zero hvalue rfl]

/-- A product is the rounded product of what its factors stand for. -/
theorem rounds_mul (hx : x.isFinite = true) (hy : y.isFinite = true) (hxpos : 0 ≤ x.value)
    (hypos : 0 ≤ y.value) : (x * y).Rounds (x.value * y.value) := by
  obtain ⟨s, m, e, rfl⟩ := eq_finite hx
  obtain ⟨t, n, f, rfl⟩ := eq_finite hy
  refine ⟨s ^^ t, (ratio m e).1 * (ratio n f).1, (ratio m e).2 * (ratio n f).2,
    Nat.mul_pos (ratio_pos m e) (ratio_pos n f), ?_, ?_, rfl⟩
  · intro hsign
    cases s with
    | true => simp [ratio, significand_eq_zero hxpos rfl]
    | false =>
        have ht : t = true := by simpa using hsign
        simp [ratio, significand_eq_zero hypos ht]
  · rw [value_eq_ratio hxpos, value_eq_ratio hypos, Nat.cast_mul, Nat.cast_mul, mul_div_mul_comm]

theorem rounds_div (hx : x.isFinite = true) (hy : y.isFinite = true) (hxpos : 0 ≤ x.value)
    (hypos : 0 < y.value) : (x / y).Rounds (x.value / y.value) := by
  obtain ⟨s, m, e, rfl⟩ := eq_finite hx
  obtain ⟨t, n, f, rfl⟩ := eq_finite hy
  have hn : n ≠ 0 := by
    rintro rfl
    cases t <;> simp [value, signed] at hypos
  have ht : t = false := by
    cases t with
    | false => rfl
    | true => exact absurd (significand_eq_zero hypos.le rfl) hn
  have hquotient : finite s m e / finite t n f =
      ofRatio (s ^^ t) ((ratio m e).1 * (ratio n f).2) ((ratio m e).2 * (ratio n f).1) := if_neg hn
  refine ⟨s ^^ t, (ratio m e).1 * (ratio n f).2, (ratio m e).2 * (ratio n f).1,
    Nat.mul_pos (ratio_pos m e) (Nat.mul_pos (Nat.pos_of_ne_zero hn) (Nat.pow_pos (by decide))),
    ?_, ?_, hquotient⟩
  · intro hsign
    have hs : s = true := by simpa [ht] using hsign
    simp [ratio, significand_eq_zero hxpos hs]
  · rw [value_eq_ratio hxpos, value_eq_ratio hypos.le, Nat.cast_mul, Nat.cast_mul, div_div_div_eq]

/-- The sum is rounded from what it stands for. -/
theorem rounds_add (hx : x.isFinite = true) (hy : y.isFinite = true)
    (hpos : 0 ≤ x.value + y.value) : (x + y).Rounds (x.value + y.value) := by
  change (x.add y).Rounds (x.value + y.value)
  obtain ⟨s, m, e, rfl⟩ := eq_finite hx
  obtain ⟨t, n, f, rfl⟩ := eq_finite hy
  have hb := ratio_pos m e
  have hd := ratio_pos n f
  rw [Binary64.value_eq, Binary64.value_eq] at hpos ⊢
  simp only [add]
  generalize (ratio m e).1 = a at *
  generalize (ratio m e).2 = b at *
  generalize (ratio n f).1 = c at *
  generalize (ratio n f).2 = d at *
  have hscale : (0 : ℚ) < b * d := by positivity
  have hsum : (signed s a : ℚ) / b + signed t c / d =
      (signed s a * d + signed t c * b) / (b * d) := by
    field_simp
  rw [hsum] at hpos ⊢
  have hpos : (0 : ℚ) ≤ signed s a * d + signed t c * b := by
    have hproduct := mul_nonneg hpos hscale.le
    rwa [div_mul_cancel₀ _ hscale.ne'] at hproduct
  obtain ⟨k, hk⟩ := Int.eq_ofNat_of_zero_le (mod_cast hpos : 0 ≤ signed s a * d + signed t c * b)
  have hcast : (signed s a * d + signed t c * b : ℚ) = k := by
    exact_mod_cast congrArg (Int.cast (R := ℚ)) hk
  rw [hk, hcast]
  by_cases hzero : k = 0
  · subst hzero
    rw [if_pos Int.natCast_zero]
    exact ⟨s && t, 0, 1, Nat.one_pos, fun _ => rfl, by simp, (ofRatio_zero _ _).symm⟩
  · rw [if_neg (mod_cast hzero), decide_eq_false (by omega), Int.natAbs_natCast]
    exact ⟨false, k, b * d, Nat.mul_pos hb hd, by simp, by push_cast; rfl, rfl⟩

/-- A sum is as exact as the whole numbers around it. -/
theorem add_within (hx : x.isFinite = true) (hy : y.isFinite = true)
    (hlo : (lo : ℚ) ≤ x.value + y.value) (hhi : x.value + y.value ≤ hi)
    (hfits : hi < Nat.pow 2 53) :
    (x + y).Within lo hi := by
  have hpos : 0 ≤ x.value + y.value := (Nat.cast_nonneg lo).trans hlo
  exact (rounds_add hx hy hpos).within hlo hhi hfits

end Rounds

/-- Cutting the fraction off gives the whole number below, as far as it fits. -/
theorem toUnsigned_eq {x : Binary64} (hfinite : x.isFinite = true) (hpos : 0 ≤ x.value) :
    x.toUnsigned = Min.min (Nat.pow 2 64 - 1) ⌊x.value⌋₊ := by
  obtain ⟨s, m, e, rfl⟩ := eq_finite hfinite
  have hfloor : (finite s m e).truncate = ⌊(finite s m e).value⌋₊ := by
    rw [value_eq_ratio hpos, Nat.floor_div_eq_div]
    cases s with
    | false => rfl
    | true => simp [truncate, signed, ratio, significand_eq_zero hpos rfl]
  simp only [toUnsigned, saturate, hfloor]
  generalize ⌊(finite s m e).value⌋₊ = n
  generalize hbound : Nat.pow 2 64 = bound
  have hsome : 0 < bound := hbound ▸ Nat.pow_pos (by decide)
  omega

/-- Cutting to a whole number keeps the order. -/
theorem toUnsigned_mono {x y : Binary64} (hx : x.isFinite = true) (hy : y.isFinite = true)
    (hxpos : 0 ≤ x.value) (hle : x.value ≤ y.value) : x.toUnsigned ≤ y.toUnsigned := by
  have hfloor := Nat.floor_le_floor hle
  rw [toUnsigned_eq hx hxpos, toUnsigned_eq hy (hxpos.trans hle)]
  exact min_le_min_left _ hfloor

end Rollcall.Binary64
