import FoundryLite.Library.Calendar
import FoundryLite.Library.Text
import Mathlib

/-!
# Moments and their ISO texts

A moment in UTC, counted in microseconds, and the text `isoformat` writes for it. The text has digits
of fixed widths from the year down to the second, so that texts compare as moments do up to the
second. The microsecond stands behind it, and is left out when it is zero.

Comparisons are three-valued throughout (`cmp`): the comparison of two texts, and that of two
numbers, is taken apart block by block into the same chain.

## Main results

* `cmp_append`, `cmp_add_of_block`: a comparison of texts, or of numbers, block by block.
* `cmp_clock`: texts up to the second compare as the seconds do.
-/

/-! ### Comparisons block by block -/

section Blocks

theorem cmp_nil_nil {α : Type*} [LinearOrder α] : cmp ([] : List α) [] = .eq := by
  simp [cmp, cmpUsing]

theorem cmp_cons_cons {α : Type*} [LinearOrder α] (a b : α) (s t : List α) :
    cmp (a :: s) (b :: t) = (cmp a b).then (cmp s t) := by
  simp only [cmp, cmpUsing, List.cons_lt_cons_iff]
  rcases lt_trichotomy a b with hlt | rfl | hgt
  · simp [hlt]
  · simp
  · simp [hgt, hgt.not_gt, hgt.ne']

/-- **Lists whose first blocks are of one length compare block by block.** -/
theorem cmp_append {α : Type*} [LinearOrder α] {l₁ l₂ r₁ r₂ : List α} (h : l₁.length = l₂.length) :
    cmp (l₁ ++ r₁) (l₂ ++ r₂) = (cmp l₁ l₂).then (cmp r₁ r₂) := by
  induction l₁ generalizing l₂ with
  | nil =>
    obtain rfl := List.eq_nil_of_length_eq_zero h.symm
    rw [cmp_nil_nil]
    rfl
  | cons a l₁ ih =>
    cases l₂ with
    | nil => simp at h
    | cons b l₂ =>
      rw [List.cons_append, List.cons_append, cmp_cons_cons, cmp_cons_cons, ih (Nat.succ.inj h),
        Ordering.then_assoc]

/-- **Numbers that lie in consecutive blocks compare by the block, and then within it.** -/
theorem cmp_add_of_block {start size : ℕ → ℕ} {m n r s lo : ℕ}
    (hstart : ∀ k, start (k + 1) = start k + size k) (hr : lo ≤ r ∧ r < lo + size m)
    (hs : lo ≤ s ∧ s < lo + size n) :
    cmp (start m + r) (start n + s) = (cmp m n).then (cmp r s) := by
  have hmono : Monotone start := monotone_nat_of_le_succ fun k => by
    rw [hstart]
    exact Nat.le_add_right _ _
  rcases lt_trichotomy m n with hlt | rfl | hgt
  · have hle : start m + size m ≤ start n := hstart m ▸ hmono hlt
    rw [(cmp_eq_lt_iff m n).mpr hlt]
    exact (cmp_eq_lt_iff _ _).mpr (by omega)
  · rw [cmp_self_eq_eq]
    rcases lt_trichotomy r s with hrs | rfl | hrs
    · rw [(cmp_eq_lt_iff r s).mpr hrs]
      exact (cmp_eq_lt_iff _ _).mpr (by omega)
    · simp
    · rw [(cmp_eq_gt_iff r s).mpr hrs]
      exact (cmp_eq_gt_iff _ _).mpr (by omega)
  · have hle : start n + size n ≤ start m := hstart n ▸ hmono hgt
    rw [(cmp_eq_gt_iff m n).mpr hgt]
    exact (cmp_eq_gt_iff _ _).mpr (by omega)

/-- Numbers compare by the quotient, and then by the remainder. -/
theorem cmp_mul_add {k m n r s : ℕ} (hr : r < k) (hs : s < k) :
    cmp (m * k + r) (n * k + s) = (cmp m n).then (cmp r s) := by
  have hstart : ∀ j, (j + 1) * k = j * k + k := fun j => Nat.succ_mul j k
  exact @cmp_add_of_block (· * k) (fun _ => k) _ _ _ _ 0 hstart ⟨Nat.zero_le _, by omega⟩
    ⟨Nat.zero_le _, by omega⟩

end Blocks

namespace Calendar

/-! ### Digits of a fixed width -/

/-- `f"{n:0{width}d}"`, for a number of at most that many digits. -/
def padded : ℕ → ℕ → List Char
  | 0, _ => []
  | width + 1, n => padded width (n / 10) ++ [Nat.digitChar (n % 10)]

@[simp]
theorem length_padded (width n : ℕ) : (padded width n).length = width := by
  induction width generalizing n with
  | zero => rfl
  | succ width ih => rw [padded, List.length_append, ih, List.length_singleton]

theorem digitChar_ne_plus : ∀ n < 10, Nat.digitChar n ≠ '+' := by decide

theorem plus_notMem_padded (width n : ℕ) : '+' ∉ padded width n := by
  induction width generalizing n with
  | zero => exact List.not_mem_nil
  | succ width ih =>
    rw [padded, List.mem_append, List.mem_singleton, not_or]
    exact ⟨ih _, (digitChar_ne_plus _ (Nat.mod_lt _ (by decide))).symm⟩

theorem cmp_digitChar : ∀ m < 10, ∀ n < 10,
    cmp [Nat.digitChar m] [Nat.digitChar n] = cmp m n := by decide

/-- **Digits of a fixed width compare as the numbers do.** -/
theorem cmp_padded {width m n : ℕ} (hm : m < 10 ^ width) (hn : n < 10 ^ width) :
    cmp (padded width m) (padded width n) = cmp m n := by
  induction width generalizing m n with
  | zero =>
    obtain rfl : m = 0 := by simpa using hm
    obtain rfl : n = 0 := by simpa using hn
    rfl
  | succ width ih =>
    have hmlt : m / 10 < 10 ^ width := Nat.div_lt_of_lt_mul (by rwa [← Nat.pow_succ'])
    have hnlt : n / 10 < 10 ^ width := Nat.div_lt_of_lt_mul (by rwa [← Nat.pow_succ'])
    rw [padded, padded, cmp_append (by simp), ih hmlt hnlt,
      cmp_digitChar _ (Nat.mod_lt _ (by decide)) _ (Nat.mod_lt _ (by decide)),
      ← cmp_mul_add (Nat.mod_lt m (by decide)) (Nat.mod_lt n (by decide)), Nat.div_add_mod',
      Nat.div_add_mod']

/-! ### Moments -/

/-- A moment in UTC, to the microsecond. -/
structure Instant extends Minute where
  second : ℕ
  microsecond : ℕ
  second_lt : second < 60
  microsecond_lt : microsecond < 1000000

namespace Instant

theorem microsecond0 : 0 < 1000000 := by decide

/-- The seconds that have gone by. -/
def seconds (t : Instant) : ℕ := ((t.toordinal * 24 + t.hour) * 60 + t.minute) * 60 + t.second

/-- The microseconds that have gone by: the order of moments is the order of these. -/
def elapsed (t : Instant) : ℕ := t.seconds * 1000000 + t.microsecond

/-- The text up to the second. -/
def clock (t : Instant) : List Char :=
  padded 4 t.year ++ '-' :: padded 2 t.month ++ '-' :: padded 2 t.day ++ 'T' :: padded 2 t.hour ++
    ':' :: padded 2 t.minute ++ ':' :: padded 2 t.second

/-- `isoformat()`: a fraction is written where there is one. -/
def isoformat (t : Instant) : List Char :=
  t.clock ++ (if t.microsecond = 0 then [] else '.' :: padded 6 t.microsecond) ++ "+00:00".toList

/-- `isoformat(timespec="microseconds")`. -/
def isoformatMicroseconds (t : Instant) : List Char :=
  t.clock ++ '.' :: padded 6 t.microsecond ++ "+00:00".toList

end Instant

/-! ### The order of moments -/

theorem daysBeforeMonth_succ {year month : ℕ} (h : 1 ≤ month) :
    daysBeforeMonth year (month + 1) = daysBeforeMonth year month + daysInMonth year month := by
  obtain ⟨m, rfl⟩ := Nat.exists_eq_add_of_le' h
  rw [daysBeforeMonth, daysBeforeMonth, Nat.add_sub_cancel, Nat.add_sub_cancel, List.range_succ]
  simp

/-- The days of the months before a given one, counted from month 0. -/
theorem cmp_dayOfYear {year m n d e : ℕ} (hm : 1 ≤ m) (hn : 1 ≤ n)
    (hd : 1 ≤ d ∧ d ≤ daysInMonth year m) (he : 1 ≤ e ∧ e ≤ daysInMonth year n) :
    cmp (daysBeforeMonth year m + d) (daysBeforeMonth year n + e) = (cmp m n).then (cmp d e) := by
  obtain ⟨i, rfl⟩ := Nat.exists_eq_add_of_le' hm
  obtain ⟨j, rfl⟩ := Nat.exists_eq_add_of_le' hn
  have hshift : cmp (i + 1) (j + 1) = cmp i j := by
    simp [cmp, cmpUsing]
  rw [hshift]
  exact @cmp_add_of_block (fun k => daysBeforeMonth year (k + 1)) (fun k => daysInMonth year (k + 1))
    i j d e 1 (fun k => daysBeforeMonth_succ (Nat.le_add_left 1 k)) (by omega) (by omega)

/-- The length of a year. -/
def daysInYear (year : ℕ) : ℕ := if isLeap year then 366 else 365

/-- The quotient grows by one where the divisor divides. -/
theorem succ_div_eq (k y : ℕ) :
    (y + 1) / k = y / k + if (y + 1) % k = 0 then 1 else 0 := by
  rw [Nat.succ_div]
  simp only [Nat.dvd_iff_mod_eq_zero]

theorem daysBeforeYear_succ {year : ℕ} (h : 1 ≤ year) :
    daysBeforeYear (year + 1) = daysBeforeYear year + daysInYear year := by
  obtain ⟨y, rfl⟩ := Nat.exists_eq_add_of_le' h
  have hle : y / 100 ≤ y / 4 := Nat.div_le_div_left (by decide) (by decide)
  have h100 : (y + 1) % 100 = 0 → (y + 1) % 4 = 0 := by omega
  have h400 : (y + 1) % 400 = 0 → (y + 1) % 100 = 0 := by omega
  simp only [daysBeforeYear, daysInYear, Nat.add_sub_cancel]
  rw [succ_div_eq 4, succ_div_eq 100, succ_div_eq 400]
  by_cases hfour : (y + 1) % 4 = 0
  · by_cases hhundred : (y + 1) % 100 = 0
    · by_cases hfourHundred : (y + 1) % 400 = 0 <;>
        simp [isLeap, hfour, hhundred, hfourHundred] <;> omega
    · have hnot : (y + 1) % 400 ≠ 0 := mt h400 hhundred
      simp [isLeap, hfour, hhundred, hnot]
      omega
  · have hnot : (y + 1) % 100 ≠ 0 := mt h100 hfour
    have hnot' : (y + 1) % 400 ≠ 0 := fun h => hnot (h400 h)
    simp [isLeap, hfour, hnot, hnot']
    omega

/-- The days of a year up to the end of a month, by whether it is a leap year. -/
theorem daysBeforeMonth_le (year : ℕ) : ∀ month < 13, 1 ≤ month →
    daysBeforeMonth year month + daysInMonth year month ≤ daysInYear year := by
  simp only [daysBeforeMonth, daysInMonth, daysInYear]
  cases isLeap year <;> decide

theorem dayOfYear_le (t : Minute) :
    daysBeforeMonth t.year t.month + t.day ≤ daysInYear t.year := by
  have hlength := daysBeforeMonth_le t.year t.month (Nat.lt_succ_of_le t.month_bounds.2)
    t.month_bounds.1
  have hday := t.day_bounds.2
  omega

theorem cmp_toordinal (s t : Minute) : cmp s.toordinal t.toordinal
    = (cmp s.year t.year).then ((cmp s.month t.month).then (cmp s.day t.day)) := by
  obtain ⟨i, hi⟩ := Nat.exists_eq_add_of_le' s.year_bounds.1
  obtain ⟨j, hj⟩ := Nat.exists_eq_add_of_le' t.year_bounds.1
  have hs := dayOfYear_le s
  have ht := dayOfYear_le t
  have hshift : cmp s.year t.year = cmp i j := by
    rw [hi, hj]
    simp [cmp, cmpUsing]
  have hyears : cmp s.toordinal t.toordinal = (cmp i j).then
      (cmp (daysBeforeMonth s.year s.month + s.day) (daysBeforeMonth t.year t.month + t.day)) := by
    have hstart : ∀ k, daysBeforeYear (k + 1 + 1) = daysBeforeYear (k + 1) + daysInYear (k + 1) :=
      fun k => daysBeforeYear_succ (Nat.le_add_left 1 k)
    rw [hi] at hs
    rw [hj] at ht
    have hblock := @cmp_add_of_block (fun k => daysBeforeYear (k + 1)) (fun k => daysInYear (k + 1))
      i j (daysBeforeMonth (i + 1) s.month + s.day) (daysBeforeMonth (j + 1) t.month + t.day) 1 hstart
      ⟨s.day_bounds.1.trans (Nat.le_add_left _ _), by omega⟩
      ⟨t.day_bounds.1.trans (Nat.le_add_left _ _), by omega⟩
    rw [Minute.toordinal, Minute.toordinal, hi, hj, Nat.add_assoc, Nat.add_assoc]
    exact hblock
  rw [hyears, hshift]
  rcases lt_trichotomy i j with hlt | rfl | hgt
  · rw [(cmp_eq_lt_iff i j).mpr hlt]
    rfl
  · have hyear : s.year = t.year := hi.trans hj.symm
    rw [hyear, cmp_dayOfYear s.month_bounds.1 t.month_bounds.1 (hyear ▸ s.day_bounds) t.day_bounds]
  · rw [(cmp_eq_gt_iff i j).mpr hgt]
    rfl

namespace Instant

/-- The fields of a moment down to the second, compared one after the other. -/
def cmpFields (s t : Instant) : Ordering :=
  (cmp s.year t.year).then ((cmp s.month t.month).then ((cmp s.day t.day).then
    ((cmp s.hour t.hour).then ((cmp s.minute t.minute).then (cmp s.second t.second)))))

theorem cmp_seconds (s t : Instant) : cmp s.seconds t.seconds = cmpFields s t := by
  rw [seconds, seconds, cmp_mul_add s.second_lt t.second_lt, cmp_mul_add s.minute_lt t.minute_lt,
    cmp_mul_add s.hour_lt t.hour_lt, cmp_toordinal, cmpFields]
  simp only [Ordering.then_assoc]

theorem cmp_elapsed (s t : Instant) :
    cmp s.elapsed t.elapsed = (cmpFields s t).then (cmp s.microsecond t.microsecond) := by
  rw [elapsed, elapsed, cmp_mul_add s.microsecond_lt t.microsecond_lt, cmp_seconds]

theorem length_clock (t : Instant) : t.clock.length = 19 := by simp [clock]

/-- A block of digits in front of a separator and what follows it. -/
theorem cmp_padded_cons {width m n : ℕ} {c : Char} {l₁ l₂ : List Char} (hm : m < 10 ^ width)
    (hn : n < 10 ^ width) : cmp (padded width m ++ c :: l₁) (padded width n ++ c :: l₂)
      = (cmp m n).then (cmp l₁ l₂) := by
  rw [cmp_append (by simp), cmp_padded hm hn, cmp_cons_cons, cmp_self_eq_eq]
  rfl

/-- **Texts up to the second compare as the seconds do.** -/
theorem cmp_clock (s t : Instant) : cmp s.clock t.clock = cmpFields s t := by
  have hday : ∀ u : Instant, u.day < 10 ^ 2 := by
    intro u
    have hle := u.day_bounds.2.trans (daysInMonth_le_longestMonth u.year u.month)
    have hmonth := u.month_bounds
    unfold longestMonth daysInMonth at hle
    split_ifs at hle <;> omega
  have hyear : ∀ u : Instant, u.year < 10 ^ 4 := fun u => Nat.lt_succ_of_le u.year_bounds.2
  have hmonth : ∀ u : Instant, u.month < 10 ^ 2 := fun u => by
    have hbounds := u.month_bounds
    omega
  have hhour : ∀ u : Instant, u.hour < 10 ^ 2 := fun u => by
    have hlt := u.hour_lt
    omega
  have hminute : ∀ u : Instant, u.minute < 10 ^ 2 := fun u => by
    have hlt := u.minute_lt
    omega
  have hsecond : ∀ u : Instant, u.second < 10 ^ 2 := fun u => by
    have hlt := u.second_lt
    omega
  simp only [clock, List.append_assoc, List.cons_append]
  rw [cmp_padded_cons (hyear s) (hyear t), cmp_padded_cons (hmonth s) (hmonth t),
    cmp_padded_cons (hday s) (hday t), cmp_padded_cons (hhour s) (hhour t),
    cmp_padded_cons (hminute s) (hminute t), cmp_padded (hsecond s) (hsecond t), cmpFields]

/-- The text up to the second has no sign in it. -/
theorem plus_notMem_clock (t : Instant) : '+' ∉ t.clock := by
  simp [clock, plus_notMem_padded]

end Instant

end Calendar
