import FoundryLite.ScalarValues
import Mathlib.Tactic.Positivity

/-!
# Elapsed time as a floating-point number

`total_seconds` gives a duration in seconds as a floating-point number, and the schedulers count the
intervals in it. Rounding to a double keeps the place of a number among the multiples of a power of
two, so whole seconds stay where they are. A duration is rounded up to a whole second only if it is a
microsecond away and longer than half a millennium.

## Main results

* `floor_totalSeconds_div`: the intervals before a duration, or one more where it ends at a grid point.
* `floor_totalSeconds_of_lt`: the whole seconds of a duration, below 2 ^ 34 of them.
-/

namespace FoundryLite.Schedules

open ScalarValues

/-- `total_seconds`, which is a floating-point number. -/
def totalSeconds (microseconds : ℤ) : ℚ :=
  (nearestDouble ((microseconds : ℚ) / 1000000)).getD 0

theorem le_roundEven {m : ℤ} {x : ℚ} (h : (m : ℚ) ≤ x) : m ≤ roundEven x := by
  have hfloor : m ≤ ⌊x⌋ := Int.le_floor.mpr h
  simp only [roundEven]
  split_ifs <;> omega

theorem roundEven_le {m : ℤ} {x : ℚ} (h : x ≤ m) : roundEven x ≤ m := by
  have hfloor : ⌊x⌋ ≤ m := by exact_mod_cast (Int.floor_le x).trans h
  rcases hfloor.eq_or_lt with heq | hlt
  · have hx : x - m < 1 / 2 := by linarith
    simp only [roundEven, heq, if_pos hx, le_refl]
  · simp only [roundEven]
    split_ifs <;> omega

theorem roundEven_le_add_half (x : ℚ) : (roundEven x : ℚ) ≤ x + 1 / 2 := by
  have hfloor := Int.floor_le x
  simp only [roundEven]
  split_ifs with hlow hhigh
  · linarith
  · push_cast
    linarith
  · linarith
  · push_cast
    linarith

/-- **The nearest double keeps its place among the multiples of a power of two.** -/
theorem exists_nearestDouble {q : ℚ} {j : ℕ} (hpos : 0 < q) (hj : j ≤ 53) (hlt : q < 2 ^ j) :
    ∃ (r : ℚ) (k : ℕ), nearestDouble q = some r ∧ 53 ≤ j + k ∧ r * 2 ^ k ≤ q * 2 ^ k + 1 / 2 ∧
      ∀ m : ℤ, ((m : ℚ) ≤ q * 2 ^ k → (m : ℚ) ≤ r * 2 ^ k) ∧ (q * 2 ^ k ≤ m → r * 2 ^ k ≤ m) := by
  have hlog : Int.log 2 |q| < j := by
    rw [abs_of_pos hpos]
    exact (@Int.lt_zpow_iff_log_lt ℚ _ _ _ _ 2 (by decide) j q hpos).mp (by exact_mod_cast hlt)
  obtain ⟨k, hk, hjk⟩ : ∃ k : ℕ, max (Int.log 2 |q| - 52) (-1074) = -(k : ℤ) ∧ 53 ≤ j + k := by
    obtain ⟨k, hk⟩ := Int.eq_ofNat_of_zero_le
      (show 0 ≤ -max (Int.log 2 |q| - 52) (-1074) by omega)
    exact ⟨k, by omega, by omega⟩
  have hpow : (0 : ℚ) < 2 ^ k := by positivity
  have hscale : (2 : ℚ) ^ (-(k : ℤ)) = 1 / 2 ^ k := by
    rw [zpow_neg, zpow_natCast, one_div]
  have hround : ∀ m : ℤ, ((m : ℚ) ≤ q * 2 ^ k →
      (m : ℚ) ≤ roundEven (q / (1 / 2 ^ k)) * (1 / 2 ^ k) * 2 ^ k) ∧
        (q * 2 ^ k ≤ m → roundEven (q / (1 / 2 ^ k)) * (1 / 2 ^ k) * 2 ^ k ≤ (m : ℚ)) := by
    intro m
    rw [div_div_eq_mul_div, div_one, mul_one_div, div_mul_cancel₀ _ hpow.ne']
    exact ⟨fun h => by exact_mod_cast le_roundEven h, fun h => by exact_mod_cast roundEven_le h⟩
  have hhalf : (roundEven (q / (1 / 2 ^ k)) * (1 / 2 ^ k) * 2 ^ k : ℚ) ≤ q * 2 ^ k + 1 / 2 := by
    rw [div_div_eq_mul_div, div_one, mul_one_div, div_mul_cancel₀ _ hpow.ne']
    exact roundEven_le_add_half _
  refine ⟨_, k, ?_, hjk, hhalf, hround⟩
  have hlow := (hround 0).1 (by simpa using (mul_pos hpos hpow).le)
  have hhigh := (hround (2 ^ (j + k))).2 (by
    push_cast
    rw [pow_add]
    exact mul_le_mul_of_nonneg_right hlt.le hpow.le)
  simp only [nearestDouble, hpos.ne', if_false, hk, hscale]
  have hnonneg : (0 : ℚ) ≤ roundEven (q / (1 / 2 ^ k)) * (1 / 2 ^ k) :=
    nonneg_of_mul_nonneg_left (by simpa using hlow) hpow
  rw [if_pos]
  rw [abs_of_nonneg hnonneg]
  have hle : (roundEven (q / (1 / 2 ^ k)) * (1 / 2 ^ k) : ℚ) ≤ 2 ^ j := by
    push_cast at hhigh
    rw [pow_add] at hhigh
    exact le_of_mul_le_mul_right hhigh hpow
  exact hle.trans_lt (pow_lt_pow_right₀ (by norm_num) (by omega))

/-- **The number of intervals that the floating-point division finds** is that of the intervals before
the end of the duration, or one more where it ends at a point of the grid as far as it can tell. -/
theorem floor_totalSeconds_div {elapsed seconds : ℤ} {n : ℕ} (hpos : 0 < elapsed)
    (hlt : elapsed < 2 ^ 53 * 1000000) (hseconds : 0 < seconds)
    (hbefore : (n : ℤ) * (seconds * 1000000) < elapsed)
    (hafter : elapsed ≤ (n + 1 : ℕ) * (seconds * 1000000)) :
    ⌊totalSeconds elapsed / seconds⌋ = n ∨ ⌊totalSeconds elapsed / seconds⌋ = n + 1 := by
  have hsmall : (elapsed : ℚ) / 1000000 < 2 ^ 53 := by
    rw [div_lt_iff₀ (by norm_num)]
    exact_mod_cast hlt
  obtain ⟨r, k, hr, -, -, hbounds⟩ := exists_nearestDouble
    (show (0 : ℚ) < (elapsed : ℚ) / 1000000 by positivity) le_rfl hsmall
  have hpow : (0 : ℚ) < 2 ^ k := by positivity
  have hsecondsQ : (0 : ℚ) < seconds := by exact_mod_cast hseconds
  have hlow : (n * seconds : ℚ) ≤ r := by
    have h := (hbounds (n * seconds * 2 ^ k)).1 (by
      push_cast
      refine mul_le_mul_of_nonneg_right ?_ hpow.le
      rw [le_div_iff₀ (by norm_num)]
      have hcast : (n * (seconds * 1000000) : ℚ) < elapsed := by exact_mod_cast hbefore
      linarith)
    push_cast at h
    exact le_of_mul_le_mul_right h hpow
  have hhigh : r ≤ ((n + 1) * seconds : ℚ) := by
    have h := (hbounds ((n + 1) * seconds * 2 ^ k)).2 (by
      push_cast
      refine mul_le_mul_of_nonneg_right ?_ hpow.le
      rw [div_le_iff₀ (by norm_num)]
      have hcast : (elapsed : ℚ) ≤ (n + 1 : ℕ) * (seconds * 1000000) := by exact_mod_cast hafter
      push_cast at hcast
      linarith)
    push_cast at h
    exact le_of_mul_le_mul_right h hpow
  have hfloorLow : (n : ℤ) ≤ ⌊r / seconds⌋ := by
    rw [Int.le_floor, le_div_iff₀ hsecondsQ]
    exact_mod_cast hlow
  have hfloorHigh : ⌊r / seconds⌋ ≤ n + 1 := by
    have hle : r / seconds ≤ ((n + 1 : ℤ) : ℚ) := by
      rw [div_le_iff₀ hsecondsQ]
      exact_mod_cast hhigh
    exact_mod_cast (Int.floor_le (r / seconds)).trans hle
  rw [totalSeconds, hr, Option.getD_some]
  omega

/-- **The whole seconds of a duration**, below 2 ^ 34 of them: it takes more than a microsecond to
round up. -/
theorem floor_totalSeconds_of_lt {elapsed : ℤ} (hnonneg : 0 ≤ elapsed)
    (hlt : elapsed < 2 ^ 34 * 1000000) : ⌊totalSeconds elapsed⌋ = elapsed / 1000000 := by
  rcases hnonneg.eq_or_lt with rfl | hpos
  · simp [totalSeconds, nearestDouble]
  · have hsmall : (elapsed : ℚ) / 1000000 < 2 ^ 34 := by
      rw [div_lt_iff₀ (by norm_num)]
      exact_mod_cast hlt
    obtain ⟨r, k, hr, hk, hhalf, hbounds⟩ := exists_nearestDouble
      (show (0 : ℚ) < (elapsed : ℚ) / 1000000 by positivity) (by decide) hsmall
    have hpow : (0 : ℚ) < 2 ^ k := by positivity
    have hfine : (500000 : ℚ) < 2 ^ k := by
      calc (500000 : ℚ) < 2 ^ 19 := by norm_num
        _ ≤ 2 ^ k := pow_le_pow_right₀ (by norm_num) (by omega)
    have hdiv := Int.ediv_mul_le elapsed (show (1000000 : ℤ) ≠ 0 by decide)
    have hnext : elapsed + 1 ≤ (elapsed / 1000000 + 1) * 1000000 :=
      Int.lt_ediv_add_one_mul_self elapsed (by decide)
    have hlow : ((elapsed / 1000000 : ℤ) : ℚ) ≤ r := by
      have h := (hbounds (elapsed / 1000000 * 2 ^ k)).1 (by
        push_cast
        refine mul_le_mul_of_nonneg_right ?_ hpow.le
        rw [le_div_iff₀ (by norm_num)]
        exact_mod_cast hdiv)
      push_cast at h
      exact le_of_mul_le_mul_right h hpow
    have hhigh : r < ((elapsed / 1000000 + 1 : ℤ) : ℚ) := by
      have hcast : ((elapsed : ℚ) + 1) ≤ ((elapsed / 1000000 : ℤ) + 1) * 1000000 := by
        exact_mod_cast hnext
      -- A microsecond is more than half a step.
      have hstep : (elapsed : ℚ) / 1000000 * 2 ^ k + 1 / 2 <
          ((elapsed / 1000000 : ℤ) + 1) * 2 ^ k := by
        have hmicro : (elapsed : ℚ) / 1000000 ≤ ((elapsed / 1000000 : ℤ) + 1) - 1 / 1000000 := by
          rw [div_le_iff₀ (by norm_num)]
          linarith
        have hmul := mul_le_mul_of_nonneg_right hmicro hpow.le
        rw [sub_mul] at hmul
        linarith
      push_cast
      exact lt_of_mul_lt_mul_right (hhalf.trans_lt hstep) hpow.le
    rw [totalSeconds, hr, Option.getD_some, Int.floor_eq_iff]
    push_cast at hhigh
    exact ⟨hlow, hhigh⟩

/-- From there on a duration can be rounded up to the next second. -/
theorem floor_totalSeconds_roundsUp :
    ⌊totalSeconds ((2 ^ 34 + 1) * 1000000 - 1)⌋ = 2 ^ 34 + 1 := by
  have hvalue : (((2 ^ 34 + 1) * 1000000 - 1 : ℤ) : ℚ) / 1000000 = 17179869184999999 / 1000000 := by
    norm_num
  have hlog : Int.log 2 |(17179869184999999 / 1000000 : ℚ)| = 34 := by
    refine le_antisymm (Int.lt_add_one_iff.mp ?_) ?_
    · rw [← Int.lt_zpow_iff_log_lt (by decide) (by norm_num)]
      norm_num
    · rw [← Int.zpow_le_iff_le_log (by decide) (by norm_num)]
      norm_num
  have hround : roundEven (17179869184999999 / 1000000 / 2 ^ (-18 : ℤ)) = 4503599627632640 := by
    norm_num [roundEven]
  have hfinite : |(17179869185 : ℚ)| < 2 ^ 1024 := by
    calc |(17179869185 : ℚ)| < 2 ^ 64 := by norm_num
      _ ≤ 2 ^ 1024 := pow_le_pow_right₀ (by norm_num) (by norm_num)
  have hresult : ((4503599627632640 : ℤ) : ℚ) * 2 ^ (-18 : ℤ) = 17179869185 := by norm_num
  have hnonzero : (17179869184999999 / 1000000 : ℚ) ≠ 0 := by norm_num
  have hexponent : max ((34 : ℤ) - 52) (-1074) = -18 := rfl
  simp only [totalSeconds, nearestDouble, hvalue, if_neg hnonzero, hlog, hexponent, hround, hresult,
    if_pos hfinite, Option.getD_some]
  norm_num

end FoundryLite.Schedules
