import FoundryLite.Library.Timestamp

/-!
# Days and moments from their numbers

The way back from an ordinal to its date, and from a number of microseconds to its moment: the year
is the last one that begins before the day, and the month the last one of that year. Adding a
duration to a moment goes this way, and fails where it leaves the years of the calendar.

## Main results

* `Calendar.Instant.ofElapsed_eq_some_iff`: the moment of a number is the one that has that number.
* `Calendar.Instant.exists_ofElapsed_iff`: the numbers that have a moment.
-/

/-- The last of the first blocks that begins before a number is the block the number lies in. -/
theorem findGreatest_block {start : ℕ → ℕ} {last n : ℕ} (hfirst : start 0 < n)
    (hlast : n ≤ start (last + 1)) :
    start (Nat.findGreatest (start · < n) last) < n ∧
      n ≤ start (Nat.findGreatest (start · < n) last + 1) := by
  have hle : Nat.findGreatest (start · < n) last ≤ last := Nat.findGreatest_le last
  refine ⟨@Nat.findGreatest_spec 0 (start · < n) _ last (Nat.zero_le _) hfirst, ?_⟩
  rcases hle.eq_or_lt with heq | hlt
  · rw [heq]
    exact hlast
  · exact Nat.le_of_not_lt
      (@Nat.findGreatest_is_greatest _ (start · < n) _ last (Nat.lt_succ_self _) hlt)

namespace Calendar

/-! ### The date of an ordinal -/

/-- The ordinal of the last day of the year 9999. -/
def maxOrdinal : ℕ := 3652059

/-- The last year that begins before the day. -/
def yearOf (ordinal : ℕ) : ℕ :=
  Nat.findGreatest (fun y => daysBeforeYear (y + 1) < ordinal) 9998 + 1

/-- The last month that begins before the day of the year. -/
def monthOf (year dayOfYear : ℕ) : ℕ :=
  Nat.findGreatest (fun m => daysBeforeMonth year (m + 1) < dayOfYear) 11 + 1

theorem yearOf_block {n : ℕ} (h : 1 ≤ n ∧ n ≤ maxOrdinal) :
    (1 ≤ yearOf n ∧ yearOf n ≤ 9999) ∧ daysBeforeYear (yearOf n) < n ∧
      n ≤ daysBeforeYear (yearOf n) + daysInYear (yearOf n) := by
  have hbound : Nat.findGreatest (fun y => daysBeforeYear (y + 1) < n) 9998 ≤ 9998 :=
    Nat.findGreatest_le _
  have hstart : daysBeforeYear (0 + 1) < n := Nat.lt_of_lt_of_le (by decide) h.1
  have hend : n ≤ daysBeforeYear (9998 + 1 + 1) := h.2.trans (by decide)
  obtain ⟨hlow, hhigh⟩ :=
    @findGreatest_block (fun y => daysBeforeYear (y + 1)) 9998 n hstart hend
  refine ⟨⟨Nat.le_add_left _ _, Nat.succ_le_succ hbound⟩, hlow, ?_⟩
  rw [yearOf, ← daysBeforeYear_succ (Nat.le_add_left 1 _)]
  exact hhigh

/-- The months of a year end with the year. -/
theorem daysBeforeMonth_thirteen (year : ℕ) : daysBeforeMonth year 13 = daysInYear year := by
  simp only [daysBeforeMonth, daysInMonth, daysInYear]
  cases isLeap year <;> decide

theorem monthOf_block {year n : ℕ} (h : 1 ≤ n ∧ n ≤ daysInYear year) :
    (1 ≤ monthOf year n ∧ monthOf year n ≤ 12) ∧ daysBeforeMonth year (monthOf year n) < n ∧
      n ≤ daysBeforeMonth year (monthOf year n) + daysInMonth year (monthOf year n) := by
  have hbound : Nat.findGreatest (fun m => daysBeforeMonth year (m + 1) < n) 11 ≤ 11 :=
    Nat.findGreatest_le _
  have hend : n ≤ daysBeforeMonth year (11 + 1 + 1) := (daysBeforeMonth_thirteen year).symm ▸ h.2
  obtain ⟨hlow, hhigh⟩ := @findGreatest_block (fun m => daysBeforeMonth year (m + 1)) 11 n h.1 hend
  refine ⟨⟨Nat.le_add_left _ _, Nat.succ_le_succ hbound⟩, hlow, ?_⟩
  rw [monthOf, ← daysBeforeMonth_succ (Nat.le_add_left 1 _)]
  exact hhigh

/-- `date.fromordinal`, at midnight. -/
def Minute.ofOrdinal (n : ℕ) (h : 1 ≤ n ∧ n ≤ maxOrdinal) : Minute :=
  have hyear := yearOf_block h
  have hmonth := @monthOf_block (yearOf n) (n - daysBeforeYear (yearOf n)) (by omega)
  { year := yearOf n
    month := monthOf (yearOf n) (n - daysBeforeYear (yearOf n))
    day := n - daysBeforeYear (yearOf n) -
      daysBeforeMonth (yearOf n) (monthOf (yearOf n) (n - daysBeforeYear (yearOf n)))
    hour := 0
    minute := 0
    year_bounds := hyear.1
    month_bounds := hmonth.1
    day_bounds := by omega
    hour_lt := by omega
    minute_lt := by omega }

@[simp]
theorem Minute.toordinal_ofOrdinal {n : ℕ} (h : 1 ≤ n ∧ n ≤ maxOrdinal) :
    (Minute.ofOrdinal n h).toordinal = n := by
  have hyear := yearOf_block h
  have hmonth := @monthOf_block (yearOf n) (n - daysBeforeYear (yearOf n)) (by omega)
  simp only [Minute.toordinal, Minute.ofOrdinal]
  omega

theorem Minute.toordinal_bounds (t : Minute) : 1 ≤ t.toordinal ∧ t.toordinal ≤ maxOrdinal := by
  have hday := dayOfYear_le t
  have hpos := t.day_bounds.1
  have hmono : Monotone fun y => daysBeforeYear (y + 1) := monotone_nat_of_le_succ fun y => by
    rw [@daysBeforeYear_succ (y + 1) (Nat.le_add_left _ _)]
    exact Nat.le_add_right _ _
  have hend : daysBeforeYear (t.year + 1) ≤ daysBeforeYear (9999 + 1) := hmono t.year_bounds.2
  rw [daysBeforeYear_succ t.year_bounds.1] at hend
  have hlast : daysBeforeYear (9999 + 1) = maxOrdinal := by decide
  simp only [Minute.toordinal]
  omega

/-! ### The moment of a number -/

namespace Instant

/-- The microseconds of a day. -/
def dayLength : ℕ := 86400000000

/-- The microseconds that have gone by at the first moment, and at the end of the last day. -/
def minElapsed : ℕ := dayLength

def endElapsed : ℕ := (maxOrdinal + 1) * dayLength

theorem ordinal_of_range {e : ℤ} (h : minElapsed ≤ e ∧ e < endElapsed) :
    1 ≤ e.toNat / dayLength ∧ e.toNat / dayLength ≤ maxOrdinal := by
  simp only [minElapsed, endElapsed, maxOrdinal, dayLength] at h ⊢
  omega

/-- The moment at which so many microseconds have gone by, in the years 1 to 9999. -/
def ofElapsed (e : ℤ) : Option Instant :=
  if h : minElapsed ≤ e ∧ e < endElapsed then
    some
      { Minute.ofOrdinal (e.toNat / dayLength) (ordinal_of_range h) with
        hour := e.toNat / 3600000000 % 24
        minute := e.toNat / 60000000 % 60
        hour_lt := Nat.mod_lt _ (by decide)
        minute_lt := Nat.mod_lt _ (by decide)
        second := e.toNat / 1000000 % 60
        microsecond := e.toNat % 1000000
        second_lt := Nat.mod_lt _ (by decide)
        microsecond_lt := Nat.mod_lt _ (by decide) }
  else none

/-- A moment plus a duration in microseconds: none where `datetime` overflows. -/
def plus (t : Instant) (duration : ℤ) : Option Instant := ofElapsed (t.elapsed + duration)

theorem elapsed_bounds (t : Instant) : minElapsed ≤ t.elapsed ∧ t.elapsed < endElapsed := by
  have hday := t.toMinute.toordinal_bounds
  have hhour := t.hour_lt
  have hminute := t.minute_lt
  have hsecond := t.second_lt
  have hmicrosecond := t.microsecond_lt
  simp only [minElapsed, endElapsed, dayLength, elapsed, seconds, maxOrdinal] at hday ⊢
  omega

/-- **A moment is determined by the microseconds that have gone by.** -/
theorem elapsed_injective : Function.Injective elapsed := by
  intro s t h
  have hcmp := cmp_elapsed s t
  rw [h, cmp_self_eq_eq, eq_comm] at hcmp
  have hall : ∀ a b : Ordering, a.then b = .eq ↔ a = .eq ∧ b = .eq := by decide
  simp only [cmpFields, hall, cmp_eq_eq_iff] at hcmp
  rcases s with ⟨⟨⟩, _, _, _, _⟩
  rcases t with ⟨⟨⟩, _, _, _, _⟩
  simp_all

/-- **The moment of a number is the one that has that number.** -/
theorem ofElapsed_eq_some_iff {e : ℤ} {t : Instant} : ofElapsed e = some t ↔ (t.elapsed : ℤ) = e := by
  have hforward : ∀ {u : Instant}, ofElapsed e = some u → (u.elapsed : ℤ) = e := by
    intro u hu
    rw [ofElapsed] at hu
    split at hu
    · rename_i h
      obtain rfl := Option.some.inj hu
      have hordinal := Minute.toordinal_ofOrdinal (ordinal_of_range h)
      have hlow := h.1
      simp only [elapsed, seconds, Minute.toordinal, dayLength, minElapsed] at hordinal hlow ⊢
      omega
    · cases hu
  refine ⟨hforward, ?_⟩
  rintro rfl
  have hsome : ∃ u, ofElapsed (t.elapsed : ℤ) = some u := by
    rw [ofElapsed, dif_pos (by exact_mod_cast t.elapsed_bounds)]
    exact ⟨_, rfl⟩
  obtain ⟨u, hu⟩ := hsome
  rw [hu, elapsed_injective (Int.ofNat_inj.mp (hforward hu))]

/-- The numbers that have a moment. -/
theorem exists_ofElapsed_iff {e : ℤ} :
    (∃ t, ofElapsed e = some t) ↔ minElapsed ≤ e ∧ e < endElapsed := by
  constructor
  · rintro ⟨t, ht⟩
    rw [← ofElapsed_eq_some_iff.mp ht]
    exact_mod_cast t.elapsed_bounds
  · intro h
    rw [ofElapsed, dif_pos h]
    exact ⟨_, rfl⟩

theorem plus_eq_some_iff {t u : Instant} {duration : ℤ} :
    t.plus duration = some u ↔ (u.elapsed : ℤ) = t.elapsed + duration :=
  ofElapsed_eq_some_iff

end Instant

end Calendar
