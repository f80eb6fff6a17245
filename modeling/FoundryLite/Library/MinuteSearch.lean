import FoundryLite.Library.Ordinals

/-!
# Searching moments at a fixed stride

A search that visits one moment after the other, a fixed stride apart, until one of them decides. It
ends when a number of moments has been visited, or at the end of the calendar. The moments of the
calendar leave no gap, so a search that gets somewhere could take every stride on the way.

## Main results

* `Calendar.Instant.scan_eq_ok_iff`: a search returns what the first moment that decides says.
-/

namespace Calendar.Instant

/-! ### Whole seconds and minutes -/

/-- The microseconds of a minute. -/
def minuteLength : ℕ := 60000000

theorem minuteLength_pos : 0 < minuteLength := by
  rw [minuteLength]
  exact Nat.succ_pos _

theorem add_minutes_lt_iff {start i j : ℕ} :
    start + i * minuteLength < start + j * minuteLength ↔ i < j := by
  rw [Nat.add_lt_add_iff_left]
  exact Nat.mul_lt_mul_right minuteLength_pos

/-- `replace(second=0, microsecond=0)`. -/
def minuteFloor (t : Instant) : Instant :=
  { t with second := 0, microsecond := 0, second_lt := by decide, microsecond_lt := by decide }

/-- `replace(microsecond=0)`. -/
def secondFloor (t : Instant) : Instant :=
  { t with microsecond := 0, microsecond_lt := by decide }

@[simp]
theorem microsecond_secondFloor (t : Instant) : t.secondFloor.microsecond = 0 := rfl

theorem secondFloor_of_microsecond {t : Instant} (h : t.microsecond = 0) : t.secondFloor = t := by
  apply elapsed_injective
  simp only [elapsed, seconds, secondFloor, h]

theorem elapsed_minuteFloor (t : Instant) :
    t.minuteFloor.elapsed = t.elapsed / minuteLength * minuteLength := by
  have hsecond := t.second_lt
  have hmicrosecond := t.microsecond_lt
  simp only [elapsed, seconds, minuteFloor, minuteLength]
  omega

theorem minuteFloor_le (t : Instant) : t.minuteFloor.elapsed ≤ t.elapsed := by
  rw [elapsed_minuteFloor]
  exact Nat.div_mul_le_self _ _

/-- At the beginning of a minute. -/
def IsWholeMinute (t : Instant) : Prop := minuteLength ∣ t.elapsed

instance instDecidableIsWholeMinute (t : Instant) : Decidable t.IsWholeMinute :=
  inferInstanceAs (Decidable (_ ∣ _))

theorem isWholeMinute_minuteFloor (t : Instant) : t.minuteFloor.IsWholeMinute := by
  rw [IsWholeMinute, elapsed_minuteFloor]
  exact Nat.dvd_mul_left _ _

theorem minuteFloor_eq_self_iff {t : Instant} : t.minuteFloor = t ↔ t.IsWholeMinute := by
  refine ⟨fun h => h ▸ t.isWholeMinute_minuteFloor, fun h => elapsed_injective ?_⟩
  rw [elapsed_minuteFloor, Nat.div_mul_cancel h]

theorem IsWholeMinute.microsecond {t : Instant} (h : t.IsWholeMinute) : t.microsecond = 0 := by
  rw [← minuteFloor_eq_self_iff.mpr h]
  rfl

/-- Whole minutes lie whole minutes apart. -/
theorem IsWholeMinute.exists_add {s t : Instant} (hs : s.IsWholeMinute) (ht : t.IsWholeMinute)
    (hle : s.elapsed ≤ t.elapsed) : ∃ i, t.elapsed = s.elapsed + i * minuteLength := by
  obtain ⟨m, hm⟩ := hs
  obtain ⟨n, hn⟩ := ht
  rw [hm, hn] at hle
  have hmn : m ≤ n := Nat.le_of_mul_le_mul_left hle minuteLength_pos
  refine ⟨n - m, ?_⟩
  rw [hm, hn, Nat.mul_comm (n - m), ← Nat.mul_add, Nat.add_sub_cancel' hmn]

theorem IsWholeMinute.of_add {s t : Instant} {i : ℕ} (hs : s.IsWholeMinute)
    (h : t.elapsed = s.elapsed + i * minuteLength) : t.IsWholeMinute := by
  rw [IsWholeMinute, h]
  exact Nat.dvd_add hs (Nat.dvd_mul_left _ _)

/-- The beginning of a day at midnight. -/
def midnight (year month day : ℕ) (hyear : 1 ≤ year ∧ year ≤ 9999) (hmonth : 1 ≤ month ∧ month ≤ 12)
    (hday : 1 ≤ day ∧ day ≤ daysInMonth year month) : Instant where
  year := year
  month := month
  day := day
  hour := 0
  minute := 0
  second := 0
  microsecond := 0
  year_bounds := hyear
  month_bounds := hmonth
  day_bounds := hday
  hour_lt := by decide
  minute_lt := by decide
  second_lt := by decide
  microsecond_lt := by decide

/-! ### The first and the last of a set of moments -/

/-- The first of a set of moments, from a number of microseconds on. -/
structure IsFirstFrom (due : Instant → Prop) (bound : ℕ) (t : Instant) : Prop where
  holds : due t
  le : bound ≤ t.elapsed
  first : ∀ u, due u → bound ≤ u.elapsed → t.elapsed ≤ u.elapsed

theorem IsFirstFrom.unique {due : Instant → Prop} {bound : ℕ} {s t : Instant}
    (hs : IsFirstFrom due bound s) (ht : IsFirstFrom due bound t) : s = t :=
  elapsed_injective
    (Nat.le_antisymm (hs.first t ht.holds ht.le) (ht.first s hs.holds hs.le))

/-- Where nothing is due between two bounds, the first one is the same. -/
theorem isFirstFrom_congr {due : Instant → Prop} {bound other : ℕ} {t : Instant}
    (h : ∀ u, due u → (bound ≤ u.elapsed ↔ other ≤ u.elapsed)) :
    IsFirstFrom due bound t ↔ IsFirstFrom due other t :=
  ⟨fun ht => ⟨ht.holds, (h t ht.holds).mp ht.le, fun u hu hle => ht.first u hu ((h u hu).mpr hle)⟩,
    fun ht => ⟨ht.holds, (h t ht.holds).mpr ht.le, fun u hu hle => ht.first u hu ((h u hu).mp hle)⟩⟩

/-- The last of a set of moments, up to a number of microseconds. -/
structure IsLastUpTo (due : Instant → Prop) (bound : ℕ) (t : Instant) : Prop where
  holds : due t
  le : t.elapsed ≤ bound
  last : ∀ u, due u → u.elapsed ≤ bound → u.elapsed ≤ t.elapsed

theorem IsLastUpTo.unique {due : Instant → Prop} {bound : ℕ} {s t : Instant}
    (hs : IsLastUpTo due bound s) (ht : IsLastUpTo due bound t) : s = t :=
  elapsed_injective (Nat.le_antisymm (ht.last s hs.holds hs.le) (hs.last t ht.holds ht.le))

/-- The first whole minute from a number of microseconds on. -/
def ceilMinute (bound : ℕ) : ℕ :=
  (bound + (minuteLength - 1)) / minuteLength * minuteLength

theorem ceilMinute_le_iff {bound : ℕ} {t : Instant} (ht : t.IsWholeMinute) :
    ceilMinute bound ≤ t.elapsed ↔ bound ≤ t.elapsed := by
  obtain ⟨n, hn⟩ := ht
  rw [ceilMinute, hn, minuteLength]
  omega

/-! ### The search -/

section Scan

variable {ε β : Type} {visit : Instant → Except ε (Option β)} {overflow exhausted : ε} {stride : ℤ}

/-- Visit one moment after the other, `stride` microseconds apart, and at most so many of them. -/
def scan (visit : Instant → Except ε (Option β)) (overflow exhausted : ε) (stride : ℤ) :
    ℕ → Instant → Except ε β
  | 0, _ => .error exhausted
  | fuel + 1, t =>
    match visit t with
    | .error e => .error e
    | .ok (some found) => .ok found
    | .ok none =>
      match t.plus stride with
      | none => .error overflow
      | some next => scan visit overflow exhausted stride fuel next

/-- Between two moments a stride does not leave the calendar. -/
theorem exists_plus_of_between {t u : Instant} {i : ℕ}
    (h : (u.elapsed : ℤ) = t.elapsed + (i + 1 : ℕ) * stride) : ∃ next, t.plus stride = some next := by
  have ht := t.elapsed_bounds
  have hu := u.elapsed_bounds
  simp only [plus_eq_some_iff, ← ofElapsed_eq_some_iff]
  rw [exists_ofElapsed_iff]
  have hstep : (i + 1 : ℕ) * stride = i * stride + stride := by
    push_cast
    ring
  have hi : (0 : ℤ) ≤ i := Int.natCast_nonneg i
  rcases le_total 0 stride with hsign | hsign
  · have hrest : 0 ≤ (i : ℤ) * stride := mul_nonneg hi hsign
    omega
  · have hrest : (i : ℤ) * stride ≤ 0 := mul_nonpos_of_nonneg_of_nonpos hi hsign
    omega

/-- **A search returns what the first moment that decides says.** -/
theorem scan_eq_ok_iff {fuel : ℕ} {t : Instant} {found : β} :
    scan visit overflow exhausted stride fuel t = .ok found ↔ ∃ i < fuel, ∃ u : Instant,
      (u.elapsed : ℤ) = t.elapsed + i * stride ∧ visit u = .ok (some found) ∧
        ∀ j < i, ∀ v : Instant, (v.elapsed : ℤ) = t.elapsed + j * stride → visit v = .ok none := by
  induction fuel generalizing t with
  | zero => simp [scan]
  | succ fuel ih =>
    rw [scan]
    constructor
    · intro h
      split at h
      · cases h
      · rename_i hvisit
        obtain rfl := Except.ok.inj h
        exact ⟨0, Nat.succ_pos _, t, by simp, hvisit, fun j hj => absurd hj (Nat.not_lt_zero j)⟩
      · rename_i hvisit
        split at h
        · cases h
        · rename_i next hnext
          rw [plus_eq_some_iff] at hnext
          obtain ⟨i, hi, u, hu, hfound, hbefore⟩ := ih.mp h
          refine ⟨i + 1, Nat.succ_lt_succ hi, u, ?_, hfound, ?_⟩
          · rw [hu, hnext]
            push_cast
            ring
          · intro j hj v hv
            cases j with
            | zero =>
              have heq : v = t := elapsed_injective (by simpa using hv)
              rw [heq]
              exact hvisit
            | succ j =>
              refine hbefore j (Nat.lt_of_succ_lt_succ hj) v ?_
              rw [hv, hnext]
              push_cast
              ring
    · rintro ⟨i, hi, u, hu, hfound, hbefore⟩
      cases i with
      | zero =>
        have heq : u = t := elapsed_injective (by simpa using hu)
        rw [← heq, hfound]
      | succ i =>
        rw [hbefore 0 (Nat.succ_pos _) t (by simp)]
        obtain ⟨next, hnext⟩ := exists_plus_of_between hu
        simp only [hnext]
        rw [plus_eq_some_iff] at hnext
        refine ih.mpr ⟨i, Nat.lt_of_succ_lt_succ hi, u, ?_, hfound, ?_⟩
        · rw [hu, hnext]
          push_cast
          ring
        · intro j hj v hv
          refine hbefore (j + 1) (Nat.succ_lt_succ hj) v ?_
          rw [hv, hnext]
          push_cast
          ring

end Scan

end Calendar.Instant
