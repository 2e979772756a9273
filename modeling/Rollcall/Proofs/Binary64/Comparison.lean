import Rollcall.Proofs.Binary64.Rounding

/-!
Comparisons with every number.

The smaller one of two numbers is not above a number on the right, and is no `nan` unless that one
is (`min_ble`); what is not above a finite number is finite or infinitely far below it
(`eq_or_le_of_ble`); and moving a number that is not `nan` into a range makes it finite
(`clamp_between`).
-/

namespace Rollcall.Binary64

variable {x y low high : Binary64}

theorem blt_self (x : Binary64) : x.blt x = false := by
  cases x with
  | nan => rfl
  | infinite s => cases s <;> rfl
  | finite s m e => exact decide_eq_false (lt_irrefl _)

theorem isNan_min (hy : y.isNan = false) : (x.min y).isNan = false := by
  unfold min
  split
  · exact hy
  case isFalse hx =>
    split
    · exact Bool.eq_false_iff.mpr hx
    · split
      · exact hy
      · exact Bool.eq_false_iff.mpr hx

/-- The smaller one is not above the number on the right. -/
theorem min_ble (hy : y.isNan = false) : (x.min y).ble y = true := by
  have hself : y.ble y = true := by simp [ble, hy, blt_self]
  unfold min
  split
  · exact hself
  case isFalse hx =>
    rw [if_neg (by simp [hy])]
    split
    · exact hself
    case isFalse habove => simp [ble, hx, hy, habove]

/-- Cutting twice at the same number is cutting once. -/
theorem min_min_self (x : Binary64) (hy : y.isNan = false) : (x.min y).min y = x.min y := by
  have hbelow := min_ble (x := x) hy
  have hnot : y.blt (x.min y) = false := by
    simp only [ble, Bool.and_eq_true, Bool.not_eq_true'] at hbelow
    exact hbelow.2
  rw [min, isNan_min hy, hy, hnot]
  rfl

/-- Below a finite number there are the finite ones that are at most as large, and negative
infinity. -/
theorem eq_or_le_of_ble (hy : y.isFinite = true) (hle : x.ble y = true) :
    x = infinite true ∨ x.isFinite = true ∧ x.value ≤ y.value := by
  cases x with
  | nan => simp [ble, isNan] at hle
  | finite s m e => exact .inr ⟨rfl, (ble_iff rfl hy).mp hle⟩
  | infinite s =>
      cases s with
      | true => exact .inl rfl
      | false =>
          obtain ⟨t, n, f, rfl⟩ := eq_finite hy
          simp [ble, blt, isNan] at hle

/-- Between two finite numbers there is no infinity and no `nan`. -/
theorem isFinite_of_ble (hlow : low.isFinite = true) (hhigh : high.isFinite = true)
    (hle : low.ble x = true) (hle' : x.ble high = true) : x.isFinite = true := by
  rcases eq_or_le_of_ble hhigh hle' with rfl | ⟨hfinite, _⟩
  · obtain ⟨s, m, e, rfl⟩ := eq_finite hlow
    simp [ble, blt, isNan] at hle
  · exact hfinite

/-- A number that is compared with a finite one from below, and no `nan`, keeps to its bound. -/
theorem min_between {lo : ℚ} (hy : y.isFinite = true) (hlo : lo ≤ y.value)
    (hx : x.isFinite = true → lo ≤ x.value) (habove : x ≠ infinite true) :
    (x.min y).isFinite = true ∧ lo ≤ (x.min y).value := by
  have hbelow := min_ble (x := x) (isNan_eq_false hy)
  have heither : x.min y = x ∨ x.min y = y := by
    unfold min
    split
    · exact .inr rfl
    · split
      · exact .inl rfl
      · split
        · exact .inr rfl
        · exact .inl rfl
  rcases heither with hmin | hmin
  · rw [hmin] at hbelow ⊢
    rcases eq_or_le_of_ble hy hbelow with hinfinite | ⟨hfinite, _⟩
    · exact absurd hinfinite habove
    · exact ⟨hfinite, hx hfinite⟩
  · rw [hmin]
    exact ⟨hy, hlo⟩

theorem isNan_clamp (hx : x.isNan = true) (low high : Binary64) :
    (x.clamp low high).isNan = true := by
  cases x with
  | nan => cases high <;> rfl
  | _ => cases hx

theorem blt_nan (hy : y.isNan = true) (x : Binary64) : x.blt y = false := by
  cases y with
  | nan => cases x <;> rfl
  | _ => cases hy

theorem isNan_mul (hy : y.isNan = true) (x : Binary64) : (x * y).isNan = true := by
  cases y with
  | nan => cases x <;> rfl
  | _ => cases hy

theorem value_one : (1 : Binary64).isFinite = true ∧ (1 : Binary64).value = 1 := by
  have hone : (ofNat 1).Within 1 1 := ofNat_within (by decide)
  refine ⟨hone.finite, le_antisymm ?_ ?_⟩
  · exact_mod_cast hone.le_hi
  · exact_mod_cast hone.lo_le

theorem max_one (hx : x.isFinite = true) :
    (x.max 1).isFinite = true ∧ (x.max 1).value = Max.max x.value 1 := by
  obtain ⟨hfinite, hvalue⟩ := value_one
  have hless := blt_iff hx hfinite
  rw [hvalue] at hless
  simp only [Binary64.max, isNan_eq_false hx, isNan_eq_false hfinite, Bool.false_eq_true, if_false]
  split
  case isTrue hbelow => exact ⟨hfinite, by rw [hvalue, max_eq_right (hless.mp hbelow).le]⟩
  case isFalse habove => exact ⟨hx, (max_eq_left (not_lt.mp (mt hless.mpr habove))).symm⟩

/-- A number that is moved into a range lies there. -/
theorem clamp_between (hx : x.isNan = false) (hlow : low.isFinite = true)
    (hhigh : high.isFinite = true) (hle : low.value ≤ high.value) :
    (x.clamp low high).isFinite = true ∧ low.value ≤ (x.clamp low high).value ∧
      (x.clamp low high).value ≤ high.value := by
  unfold clamp
  split
  case isTrue => exact ⟨hlow, le_rfl, hle⟩
  case isFalse hnotlow =>
    split
    case isTrue => exact ⟨hhigh, hle, le_rfl⟩
    case isFalse hnothigh =>
      have hfrom : low.ble x = true := by simp [ble, hx, isNan_eq_false hlow, hnotlow]
      have hto : x.ble high = true := by simp [ble, hx, isNan_eq_false hhigh, hnothigh]
      have hfinite := isFinite_of_ble hlow hhigh hfrom hto
      exact ⟨hfinite, (ble_iff hlow hfinite).mp hfrom, (ble_iff hfinite hhigh).mp hto⟩

end Rollcall.Binary64
