import Mathlib.Data.Int.Log
import Mathlib.Data.Rat.Floor
import Mathlib.Tactic.Linarith

/-!
# Rounding to double precision

A number that is not negative is rounded to 53 binary digits, to the nearest and of two nearest ones
to the even one.  The exponent has no bound.
-/

namespace MuduoChat

/-- The nearest integer, and of two nearest ones the even one. -/
def nearestEven (q : ℚ) : ℤ :=
  if 2 * Int.fract q < 1 ∨ 2 * Int.fract q = 1 ∧ Even ⌊q⌋ then ⌊q⌋ else ⌊q⌋ + 1

/-- The distance between the doubles around a number. -/
def spacing (q : ℚ) : ℚ := 2 ^ (Int.log 2 q - 52)

def double (q : ℚ) : ℚ := nearestEven (q / spacing q) * spacing q

lemma nearestEven_intCast (n : ℤ) : nearestEven n = n := by simp [nearestEven]

lemma nearestEven_mono {p q : ℚ} (hpq : p ≤ q) : nearestEven p ≤ nearestEven q := by
  obtain hlt | heq := (Int.floor_le_floor hpq).lt_or_eq
  · unfold nearestEven
    split_ifs <;> omega
  · have hfract : Int.fract p ≤ Int.fract q := by
      unfold Int.fract
      rw [heq]
      linarith
    unfold nearestEven
    rw [heq]
    split_ifs with hp hq hq
    · rfl
    · omega
    · refine absurd ?_ hp
      obtain hlow | ⟨hhalf, heven⟩ := hq
      · exact .inl (by linarith)
      · exact (lt_or_eq_of_le (by linarith)).imp_right fun h => ⟨h, heven⟩
    · rfl

lemma spacing_pos (q : ℚ) : 0 < spacing q := zpow_pos two_pos _

lemma double_nonneg {q : ℚ} (hq : 0 ≤ q) : 0 ≤ double q := by
  have h : nearestEven (0 : ℤ) ≤ nearestEven (q / spacing q) :=
    nearestEven_mono (by simpa using div_nonneg hq (spacing_pos q).le)
  rw [nearestEven_intCast] at h
  exact mul_nonneg (by exact_mod_cast h) (spacing_pos q).le

/-- The powers of two around a number are doubles. -/
lemma double_bounds {q : ℚ} (hq : 0 < q) :
    2 ^ Int.log 2 q ≤ double q ∧ double q ≤ 2 ^ (Int.log 2 q + 1) := by
  have hpos := spacing_pos q
  have hlow : (2 : ℚ) ^ Int.log 2 q ≤ q := Int.zpow_log_le_self one_lt_two hq
  have hhigh : q ≤ (2 : ℚ) ^ (Int.log 2 q + 1) := (Int.lt_zpow_succ_log_self one_lt_two q).le
  have h52 : (2 : ℚ) ^ Int.log 2 q = ((2 ^ 52 : ℤ) : ℚ) * spacing q := by
    rw [spacing, zpow_sub₀ two_ne_zero]
    norm_num
    ring
  have h53 : (2 : ℚ) ^ (Int.log 2 q + 1) = ((2 ^ 53 : ℤ) : ℚ) * spacing q := by
    rw [zpow_add_one₀ two_ne_zero, h52]
    push_cast
    ring
  rw [h52] at hlow ⊢
  rw [h53] at hhigh ⊢
  refine ⟨mul_le_mul_of_nonneg_right (Int.cast_le.2 ?_) hpos.le,
    mul_le_mul_of_nonneg_right (Int.cast_le.2 ?_) hpos.le⟩
  · rw [← nearestEven_intCast (2 ^ 52)]
    exact nearestEven_mono ((le_div_iff₀ hpos).2 hlow)
  · rw [← nearestEven_intCast (2 ^ 53)]
    exact nearestEven_mono ((div_le_iff₀ hpos).2 hhigh)

/-- Rounding keeps the order. -/
lemma double_mono {p q : ℚ} (hp : 0 ≤ p) (hpq : p ≤ q) : double p ≤ double q := by
  obtain rfl | hp := hp.eq_or_lt
  · simpa [double, nearestEven] using double_nonneg hpq
  · have hq := hp.trans_le hpq
    obtain hlt | heq := (Int.log_mono_right (b := 2) hp hpq).lt_or_eq
    -- a power of two lies between numbers of different size
    · calc double p ≤ 2 ^ (Int.log 2 p + 1) := (double_bounds hp).2
        _ ≤ 2 ^ Int.log 2 q := zpow_le_zpow_right₀ one_le_two hlt
        _ ≤ double q := (double_bounds hq).1
    · have hspacing : spacing p = spacing q := by rw [spacing, heq, spacing]
      have hpos := spacing_pos q
      unfold double
      rw [hspacing]
      exact mul_le_mul_of_nonneg_right
        (Int.cast_le.2 (nearestEven_mono (div_le_div_of_nonneg_right hpq hpos.le))) hpos.le

end MuduoChat
