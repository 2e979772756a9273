import Rollcall.Backoff
import Rollcall.Proofs.Binary64.Monotone

/-!
The delays of the default backoff.

The bases double up to ten seconds and stay there. Chance moves a base by about a tenth of it: the
policy's tenth and the sums with it are rounded, but an eighth is never passed
(`Backoff.delay_later`).
-/

namespace Rollcall.Backoff

/-- The default backoff after so many delays. -/
def later : Nat → Backoff
  | 0 => create .default
  | k + 1 => (later k).advance

/-- A draw that the generator may give for the next delay. -/
def Fair (b : Backoff) (draw : Binary64) : Prop :=
  (-b.spread).ble draw = true ∧ draw.blt b.spread = true

instance (b : Backoff) (draw : Binary64) : Decidable (b.Fair draw) :=
  inferInstanceAs (Decidable (_ ∧ _))

/-- The base of the delay after so many others, in milliseconds. -/
def baseMillis : Nat → Nat
  | 0 => 200
  | k + 1 => Nat.min (2 * baseMillis k) 10000

def bases : List Nat := [200, 400, 800, 1600, 3200, 6400, 10000]

theorem baseMillis_mem (k : Nat) : baseMillis k ∈ bases := by
  have hnext : ∀ ms ∈ bases, Nat.min (2 * ms) 10000 ∈ bases := by decide
  induction k with
  | zero => decide
  | succ k ih => exact hnext _ ih

theorem baseMillis_longest (k : Nat) : baseMillis (k + 6) = 10000 := by
  induction k with
  | zero => rfl
  | succ k ih =>
      have hstays : baseMillis (k + 6 + 1) = Nat.min (2 * baseMillis (k + 6)) 10000 := rfl
      rw [Nat.add_right_comm, hstays, ih]
      rfl

/-- How many milliseconds the delay after so many others may take. -/
def Delayed (k ms : Nat) : Prop :=
  baseMillis k - baseMillis k / 8 ≤ ms ∧ ms ≤ baseMillis k + baseMillis k / 8

/-- From the seventh delay on each takes ten seconds, up to an eighth. -/
theorem delayed_longest {k ms : Nat} (hdelay : Delayed k ms) (hk : 6 ≤ k) :
    8750 ≤ ms ∧ ms ≤ 11250 := by
  have hbase := baseMillis_longest (k - 6)
  rw [Nat.sub_add_cancel hk] at hbase
  rw [Delayed, hbase] at hdelay
  omega

/-- The backoff after so many delays, in closed form. -/
theorem later_eq (k : Nat) : later k = ⟨.default, Binary64.ofNat (baseMillis k), k⟩ := by
  have hnext : ∀ ms ∈ bases,
      (((Binary64.ofNat ms).min Policy.default.longestMillis) * Policy.default.multiplier).min
        Policy.default.longestMillis = Binary64.ofNat (Nat.min (2 * ms) 10000) := by decide
  induction k with
  | zero => rfl
  | succ k ih =>
      rw [later, ih]
      simp only [advance, base, hnext _ (baseMillis_mem k), baseMillis]

theorem attempt_later (k : Nat) : (later k).attempt = k := by rw [later_eq]

/-- What the next delay is made of. -/
structure Jittered (b : Backoff) (ms : Nat) : Prop where
  base : b.base = Binary64.ofNat ms
  isJittered : b.isJittered = true
  finite : b.spread.isFinite = true
  spread_le : b.spread.ble (Binary64.ofNat (ms / 8)) = true

theorem jittered_later (k : Nat) : (later k).Jittered (baseMillis k) := by
  have hbase : ∀ ms ∈ bases,
      (⟨.default, Binary64.ofNat ms, 0⟩ : Backoff).base = Binary64.ofNat ms := by decide
  have hjittered : ∀ ms ∈ bases,
      (⟨.default, Binary64.ofNat ms, 0⟩ : Backoff).isJittered = true := by decide +kernel
  have hfinite : ∀ ms ∈ bases,
      (⟨.default, Binary64.ofNat ms, 0⟩ : Backoff).spread.isFinite = true := by decide +kernel
  have hspread : ∀ ms ∈ bases,
      (⟨.default, Binary64.ofNat ms, 0⟩ : Backoff).spread.ble (Binary64.ofNat (ms / 8)) = true := by
    decide +kernel
  have hmem := baseMillis_mem k
  rw [later_eq]
  exact ⟨hbase _ hmem, hjittered _ hmem, hfinite _ hmem, hspread _ hmem⟩

open Binary64 in
/-- Whatever is drawn, the delay has its base up to an eighth, and the next backoff follows. -/
theorem delay_later {k : Nat} {draw : Binary64} (hfair : (later k).Fair draw) :
    ∃ ms, (later k).step draw = (Span.ofMillis ms, later (k + 1)) ∧ Delayed k ms := by
  obtain ⟨hbase, hjittered, hspread, hbelow⟩ := jittered_later k
  have hsizes : ∀ ms ∈ bases, 8 ≤ ms ∧ ms ≤ 10000 := by decide
  obtain ⟨hlow, hhigh⟩ := hsizes _ (baseMillis_mem k)
  unfold Delayed
  generalize baseMillis k = ms at *
  obtain ⟨hfrom, hto⟩ := hfair
  have hopposite := isFinite_neg hspread
  have hdraw := isFinite_of_between hopposite hspread hfrom hto
  have hfits {n : Nat} (hn : n ≤ 20000) : n < Nat.pow 2 53 := hn.trans_lt (by decide)
  have hms : (ofNat ms).Within ms ms := ofNat_within (hfits (by omega))
  have heighth : (ofNat (ms / 8)).Within (ms / 8) (ms / 8) := ofNat_within (hfits (by omega))
  rw [ble_iff hspread heighth.finite] at hbelow
  rw [ble_iff hopposite hdraw, value_neg] at hfrom
  rw [blt_iff hdraw hspread] at hto
  have hsum : (ofNat ms + draw).Within (ms - ms / 8) (ms + ms / 8) := by
    refine add_within hms.finite hdraw ?_ ?_ (hfits (by omega))
    · rw [Nat.cast_sub (Nat.div_le_self ms 8)]
      linarith [hms.lo_le, heighth.le_hi]
    · push_cast
      linarith [hms.le_hi, heighth.le_hi]
  refine ⟨(ofNat ms + draw).toUnsigned, ?_,
    hsum.toUnsigned_mem ((hfits (by omega)).trans (by decide))⟩
  simp only [step, hjittered, if_true, hbase, delayOf, hsum.max_one (by omega), later]

/-- Chance may leave every base as it is. -/
theorem fair_zero (k : Nat) : (later k).Fair (Binary64.zero false) := by
  have heach : ∀ ms ∈ bases,
      (⟨.default, Binary64.ofNat ms, 0⟩ : Backoff).Fair (Binary64.zero false) := by decide +kernel
  rw [later_eq]
  exact heach _ (baseMillis_mem k)

/-- What chance takes from the generator, draw by draw. -/
structure Draws where
  draw : Nat → Binary64
  fair : ∀ k, (later k).Fair (draw k)

instance : Inhabited Draws := ⟨⟨fun _ => Binary64.zero false, fair_zero⟩⟩

end Rollcall.Backoff
