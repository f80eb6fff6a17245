import Mathlib.Data.Nat.Digits.Defs
import Mathlib.Algebra.Order.Field.Power

/-!
# Decimals and their normal form

A decimal is a sign, a coefficient and a power of ten, as it was written. Its normal form moves the zeros
at the end of the coefficient into the exponent. A number that is not zero has one decimal in normal form,
so two decimals are the same number exactly if their normal forms are the same (`form_eq_iff`).
-/

structure Decimal where
  isNegative : Bool
  coefficient : ℕ
  exponent : ℤ
  deriving DecidableEq

namespace Decimal

/-- The number that a decimal is. -/
def value (d : Decimal) : ℚ := (if d.isNegative then -1 else 1) * (d.coefficient * (10 : ℚ) ^ d.exponent)

/-- Take zeros off the end of a coefficient, whose last digit comes first, but for its only digit. -/
def dropZeros : List ℕ → ℤ → List ℕ × ℤ
  | 0 :: digit :: digits, exponent => dropZeros (digit :: digits) (exponent + 1)
  | digits, exponent => (digits, exponent)

/-- The digits of a coefficient, the last one first. -/
def digitsOf (n : ℕ) : List ℕ := if n = 0 then [0] else Nat.digits 10 n

theorem dropZeros_of_ne {digit : ℕ} (h : digit ≠ 0) (digits : List ℕ) (exponent : ℤ) :
    dropZeros (digit :: digits) exponent = (digit :: digits, exponent) := by
  cases digit with
  | zero => exact absurd rfl h
  | succ digit => rfl

theorem digitsOf_mul_ten {n : ℕ} (h : n ≠ 0) : digitsOf (10 * n) = 0 :: digitsOf n := by
  rw [digitsOf, digitsOf, if_neg (Nat.mul_ne_zero (by decide) h), if_neg h,
    Nat.digits_def' (by decide) (Nat.mul_pos (by decide) (Nat.pos_of_ne_zero h)), Nat.mul_mod_right,
    Nat.mul_div_cancel_left _ (by decide)]

theorem digitsOf_of_not_dvd {n : ℕ} (h : ¬ 10 ∣ n) :
    digitsOf n = n % 10 :: Nat.digits 10 (n / 10) := by
  have hn : n ≠ 0 := fun hn => h (hn ▸ dvd_zero 10)
  rw [digitsOf, if_neg hn, Nat.digits_def' (by decide) (Nat.pos_of_ne_zero hn)]

/-- The digits that are left, and the exponent with them, are those of a coefficient that does not end
in zero. -/
theorem exists_dropZeros (n : ℕ) (hn : n ≠ 0) (exponent : ℤ) : ∃ m k : ℕ, ¬ 10 ∣ m ∧ n = m * 10 ^ k ∧
    dropZeros (digitsOf n) exponent = (digitsOf m, exponent + k) := by
  induction n using Nat.strong_induction_on generalizing exponent with
  | _ n ih =>
    by_cases hdvd : 10 ∣ n
    · obtain ⟨rest, rfl⟩ := hdvd
      have hrest : rest ≠ 0 := fun h => hn (by rw [h])
      obtain ⟨m, k, hm, hvalue, hdrop⟩ := ih rest (by omega) hrest (exponent + 1)
      have hne : digitsOf rest ≠ [] := by
        rw [digitsOf, if_neg hrest]
        exact Nat.digits_ne_nil_iff_ne_zero.mpr hrest
      obtain ⟨digit, digits, hdigits⟩ := List.exists_cons_of_ne_nil hne
      refine ⟨m, k + 1, hm, by rw [hvalue]; ring, ?_⟩
      rw [digitsOf_mul_ten hrest, hdigits, dropZeros, ← hdigits, hdrop]
      push_cast
      ring_nf
    · refine ⟨n, 0, hdvd, by simp, ?_⟩
      rw [digitsOf_of_not_dvd hdvd, dropZeros_of_ne fun h => hdvd (Nat.dvd_of_mod_eq_zero h)]
      simp

/-! ### One normal form -/

/-- Of two powers of ten over coefficients that do not end in zero, neither is the greater. -/
theorem exponent_le {m n : ℕ} (hm : ¬ 10 ∣ m) {a b : ℤ}
    (h : (m : ℚ) * 10 ^ a = n * 10 ^ b) : b ≤ a := by
  by_contra hlt
  obtain ⟨k, hk⟩ : ∃ k : ℕ, b = a + (k + 1 : ℕ) := ⟨(b - a - 1).toNat, by omega⟩
  have hten : (10 : ℚ) ^ a ≠ 0 := zpow_ne_zero _ (by norm_num)
  have hcoefficient : (m : ℚ) = n * 10 ^ (k + 1) := by
    rw [hk, zpow_add₀ (by norm_num), zpow_natCast] at h
    exact mul_right_cancel₀ hten (by rw [h]; ring)
  have hnat : m = n * 10 ^ (k + 1) := by exact_mod_cast hcoefficient
  exact hm (hnat ▸ Dvd.intro (n * 10 ^ k) (by rw [pow_succ]; ring))

theorem form_unique {m n : ℕ} (hm : ¬ 10 ∣ m) (hn : ¬ 10 ∣ n) {a b : ℤ}
    (h : (m : ℚ) * 10 ^ a = n * 10 ^ b) : m = n ∧ a = b := by
  have hab : a = b := le_antisymm (exponent_le hn h.symm) (exponent_le hm h)
  subst hab
  have hten : (10 : ℚ) ^ a ≠ 0 := zpow_ne_zero _ (by norm_num)
  exact ⟨by exact_mod_cast mul_right_cancel₀ hten h, rfl⟩

/-- A decimal in normal form: nothing for zero. -/
def form (d : Decimal) : Option (Bool × List ℕ × ℤ) :=
  if d.coefficient = 0 then none else some (d.isNegative, dropZeros (digitsOf d.coefficient) d.exponent)

theorem value_eq_zero_iff (d : Decimal) : d.value = 0 ↔ d.coefficient = 0 := by
  have hten : (10 : ℚ) ^ d.exponent ≠ 0 := zpow_ne_zero _ (by norm_num)
  rw [value]
  split_ifs <;> simp [hten]

theorem digitsOf_injective {m n : ℕ} (h : digitsOf m = digitsOf n) : m = n := by
  have hread : ∀ k, Nat.ofDigits 10 (digitsOf k) = k := fun k => by
    rw [digitsOf]
    split_ifs with hk
    · simp [hk]
    · exact Nat.ofDigits_digits 10 k
  rw [← hread m, h, hread]

/-- **Two decimals are the same number exactly if their normal forms are the same.** -/
theorem form_eq_iff (d e : Decimal) : d.form = e.form ↔ d.value = e.value := by
  by_cases hd : d.coefficient = 0
  · rw [form, if_pos hd, (value_eq_zero_iff d).mpr hd, form, eq_comm (a := (0 : ℚ)), value_eq_zero_iff]
    split_ifs with he <;> simp [he]
  by_cases he : e.coefficient = 0
  · rw [form, if_neg hd, form, if_pos he, (value_eq_zero_iff e).mpr he, value_eq_zero_iff]
    simp [hd]
  obtain ⟨m, k, hm, hmd, hdropd⟩ := exists_dropZeros d.coefficient hd d.exponent
  obtain ⟨n, l, hn, hne, hdrope⟩ := exists_dropZeros e.coefficient he e.exponent
  have hten : (10 : ℚ) ≠ 0 := by norm_num
  have hvalued : (d.coefficient : ℚ) * 10 ^ d.exponent = m * 10 ^ (d.exponent + k) := by
    rw [hmd, zpow_add₀ hten, zpow_natCast]
    push_cast
    ring
  have hvaluee : (e.coefficient : ℚ) * 10 ^ e.exponent = n * 10 ^ (e.exponent + l) := by
    rw [hne, zpow_add₀ hten, zpow_natCast]
    push_cast
    ring
  have hpositive : ∀ {m : ℕ} (a : ℤ), ¬ 10 ∣ m → 0 < (m : ℚ) * 10 ^ a := by
    intro m a hm
    have hne : m ≠ 0 := fun h => hm (h ▸ dvd_zero 10)
    have hpos : (0 : ℚ) < m := by exact_mod_cast Nat.pos_of_ne_zero hne
    positivity
  rw [form, if_neg hd, form, if_neg he, hdropd, hdrope, value, value, hvalued, hvaluee, Option.some.injEq,
    Prod.mk.injEq, Prod.mk.injEq]
  constructor
  · rintro ⟨hsign, hdigits, hexponent⟩
    rw [hsign, digitsOf_injective hdigits, hexponent]
  · intro h
    have hposd := hpositive (d.exponent + k) hm
    have hpose := hpositive (e.exponent + l) hn
    have hsign : d.isNegative = e.isNegative := by
      cases hd' : d.isNegative <;> cases he' : e.isNegative <;> simp [hd', he'] at h ⊢ <;> linarith
    rw [hsign] at h
    have hsame : (m : ℚ) * 10 ^ (d.exponent + k) = n * 10 ^ (e.exponent + l) := by
      cases he' : e.isNegative <;> simpa [he'] using h
    obtain ⟨hmn, hexponent⟩ := form_unique hm hn hsame
    exact ⟨hsign, by rw [hmn], hexponent⟩

end Decimal
