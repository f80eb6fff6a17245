import FoundryLite.Schedules.SourceDecisions

/-!
# The slots that the searches of the source scheduler find

The slots of a managed sync are a set of moments from its anchor on. The slot that a decision is about
is the last of them up to the present, and the next due time is the first one behind it. Each search
looks at the minutes of eight days.

## Main results

* `nextDue_isOk_iff`: when there is a next due time.
-/

namespace FoundryLite.Schedules

open Calendar
open Except (bind_eq_ok_iff map_eq_ok_iff pure_eq_ok_iff)

namespace SourceScheduler

/-- How a schedule comes back: at the minutes of an expression, or at an interval. -/
inductive Recurrence where
  | cron (fields : CronFields (List ℤ))
  | interval (seconds : ℤ)

/-- A minute of the expression. -/
def MatchesMinute (fields : CronFields (List ℤ)) (t : Instant) : Prop :=
  t.IsWholeMinute ∧ cronMatches t.toMinute fields = true

/-- The moment is a slot from the anchor on. -/
def Recurrence.IsSlot (anchor : Instant) : Recurrence → Instant → Prop
  | .cron fields, t => anchor.elapsed ≤ t.elapsed ∧ MatchesMinute fields t
  | .interval seconds, t => ∃ k : ℕ, (t.elapsed : ℤ) = anchor.elapsed + k * (seconds * 1000000)

/-- The search backwards gets to a slot, or to the minutes before the anchor. -/
def Recurrence.SlotInReach (now : Instant) : Recurrence → Instant → Prop
  | .cron _, t =>
    now.minuteFloor.elapsed < t.elapsed + maxCronLookbackMinutes * Instant.minuteLength
  | .interval _, _ => True

def Recurrence.AnchorInReach (anchor now : Instant) : Recurrence → Prop
  | .cron _ => ∃ c : Instant, c.IsWholeMinute ∧ c.elapsed < anchor.elapsed ∧
      c.elapsed ≤ now.elapsed ∧
      now.minuteFloor.elapsed < c.elapsed + maxCronLookbackMinutes * Instant.minuteLength
  | .interval _ => True

/-- Where the search for the next due time begins. -/
def nextBase (anchor slot : Instant) : ℕ :=
  max (Instant.ceilMinute anchor.elapsed) (slot.minuteFloor.elapsed + Instant.minuteLength)

/-- There is a next due time, and the search forwards gets to it. -/
def Recurrence.NextInReach (anchor slot : Instant) : Recurrence → Prop
  | .cron fields => ∃ t : Instant, Instant.IsFirstFrom (MatchesMinute fields) (nextBase anchor slot) t ∧
      t.elapsed < nextBase anchor slot + maxCronLookbackMinutes * Instant.minuteLength
  | .interval seconds => ∃ t : Instant, (t.elapsed : ℤ) = slot.elapsed + seconds * 1000000

/-! ### The two searches -/

section Searches

variable {fields : CronFields (List ℤ)} {anchor now t u : Instant}
  {overflow exhausted : FoundryLiteError}

theorem visitBackwards_eq_none_iff : visitBackwards anchor fields u = .ok none ↔
    anchor.elapsed ≤ u.elapsed ∧ cronMatches u.toMinute fields = false := by
  simp only [visitBackwards]
  split_ifs with hlt hmatch
  · simp [Nat.not_le_of_lt hlt]
  · simp [hmatch]
  · simp [Nat.le_of_not_lt hlt, hmatch, pure, Except.pure]

theorem visitBackwards_eq_some_none_iff :
    visitBackwards anchor fields u = .ok (some none) ↔ u.elapsed < anchor.elapsed := by
  simp only [visitBackwards]
  split_ifs with hlt hmatch
  · simp [hlt, pure, Except.pure]
  · simp [hlt]
  · simp [hlt]

theorem visitBackwards_eq_some_some_iff :
    visitBackwards anchor fields u = .ok (some (some t)) ↔
      u = t ∧ anchor.elapsed ≤ u.elapsed ∧ cronMatches u.toMinute fields = true := by
  simp only [visitBackwards]
  split_ifs with hlt hmatch
  · simp [Nat.not_le_of_lt hlt]
  · simp [Nat.le_of_not_lt hlt, hmatch]
  · simp [hmatch]

/-- So many minutes back. -/
theorem back_iff {start : Instant} {i : ℕ} :
    (u.elapsed : ℤ) = start.elapsed + i * (-(Instant.minuteLength : ℤ)) ↔
      start.elapsed = u.elapsed + i * Instant.minuteLength := by
  rw [mul_neg]
  have hcast : ((i * Instant.minuteLength : ℕ) : ℤ) = i * (Instant.minuteLength : ℤ) := by
    push_cast
    rfl
  rw [← hcast]
  omega

/-- A minute up to the present lies whole minutes before it. -/
theorem exists_back (hu : u.IsWholeMinute) (hle : u.elapsed ≤ now.elapsed) :
    ∃ i, now.minuteFloor.elapsed = u.elapsed + i * Instant.minuteLength := by
  refine hu.exists_add now.isWholeMinute_minuteFloor ?_
  obtain ⟨n, hn⟩ := hu
  rw [now.elapsed_minuteFloor, hn, Nat.mul_comm]
  refine Nat.mul_le_mul_right _ ((Nat.le_div_iff_mul_le Instant.minuteLength_pos).mpr ?_)
  rw [Nat.mul_comm, ← hn]
  exact hle

theorem isWholeMinute_of_back {i : ℕ}
    (h : now.minuteFloor.elapsed = u.elapsed + i * Instant.minuteLength) : u.IsWholeMinute := by
  have hfloor : Instant.minuteLength ∣ u.elapsed + i * Instant.minuteLength :=
    h ▸ now.isWholeMinute_minuteFloor
  exact (Nat.dvd_add_left (Nat.dvd_mul_left _ _)).mp hfloor

/-- **The search backwards finds the last slot up to the present**, if it gets there. -/
theorem scanBackwards_eq_some_iff :
    Instant.scan (visitBackwards anchor fields) overflow exhausted (-Instant.minuteLength)
        maxCronLookbackMinutes now.minuteFloor = .ok (some t) ↔
      Instant.IsLastUpTo ((Recurrence.cron fields).IsSlot anchor) now.elapsed t ∧
        (Recurrence.cron fields).SlotInReach now t := by
  simp only [Instant.scan_eq_ok_iff, back_iff, visitBackwards_eq_some_some_iff,
    visitBackwards_eq_none_iff]
  constructor
  · rintro ⟨i, hi, u, hu, ⟨rfl, hanchor, hmatch⟩, hbefore⟩
    have hfloor := now.minuteFloor_le
    refine ⟨⟨⟨hanchor, isWholeMinute_of_back hu, hmatch⟩, ?_, ?_⟩, ?_⟩
    · rw [hu] at hfloor
      exact (Nat.le_add_right _ _).trans hfloor
    · rintro v ⟨-, hwhole, hv⟩ hle
      by_contra hlt
      obtain ⟨j, hj⟩ := exists_back hwhole hle
      have hji : j < i := by
        rw [hu] at hj
        have hlt' := Nat.lt_of_not_le hlt
        refine Nat.lt_of_mul_lt_mul_right (a := Instant.minuteLength) ?_
        omega
      rw [(hbefore j hji v hj).2] at hv
      cases hv
    · rw [Recurrence.SlotInReach, hu]
      exact Instant.add_minutes_lt_iff.mpr hi
  · rintro ⟨⟨⟨hanchor, hwhole, hmatch⟩, hle, hlast⟩, hreach⟩
    obtain ⟨i, hi⟩ := exists_back hwhole hle
    refine ⟨i, ?_, t, hi, ⟨rfl, hanchor, hmatch⟩, ?_⟩
    · rw [Recurrence.SlotInReach, hi] at hreach
      exact Instant.add_minutes_lt_iff.mp hreach
    · intro j hj v hv
      have hlt : t.elapsed < v.elapsed := by
        rw [hi] at hv
        have hmul := Nat.mul_lt_mul_of_pos_right hj Instant.minuteLength_pos
        omega
      have hvle : v.elapsed ≤ now.elapsed :=
        (Nat.le_add_right _ _).trans (hv.ge.trans now.minuteFloor_le)
      refine ⟨hanchor.trans hlt.le, ?_⟩
      by_contra hmatches
      exact Nat.not_le_of_lt hlt (hlast v ⟨hanchor.trans hlt.le, isWholeMinute_of_back hv,
        Bool.eq_true_of_not_eq_false hmatches⟩ hvle)

/-- **The search backwards finds that there is no slot** if it gets to a minute before the anchor. -/
theorem scanBackwards_eq_none_iff :
    Instant.scan (visitBackwards anchor fields) overflow exhausted (-Instant.minuteLength)
        maxCronLookbackMinutes now.minuteFloor = .ok none ↔
      (∀ u, (Recurrence.cron fields).IsSlot anchor u → now.elapsed < u.elapsed) ∧
        (Recurrence.cron fields).AnchorInReach anchor now := by
  simp only [Instant.scan_eq_ok_iff, back_iff, visitBackwards_eq_some_none_iff,
    visitBackwards_eq_none_iff]
  constructor
  · rintro ⟨i, hi, c, hc, hanchor, hbefore⟩
    have hfloor := now.minuteFloor_le
    refine ⟨?_, c, isWholeMinute_of_back hc, hanchor, ?_, ?_⟩
    · rintro v ⟨hle, hwhole, hv⟩
      by_contra hlt
      obtain ⟨j, hj⟩ := exists_back hwhole (Nat.le_of_not_lt hlt)
      have hji : j < i := by
        rw [hc] at hj
        refine Nat.lt_of_mul_lt_mul_right (a := Instant.minuteLength) ?_
        omega
      rw [(hbefore j hji v hj).2] at hv
      cases hv
    · rw [hc] at hfloor
      exact (Nat.le_add_right _ _).trans hfloor
    · rw [hc]
      exact Instant.add_minutes_lt_iff.mpr hi
  · rintro ⟨hnone, c, hwhole, hanchor, hle, hreach⟩
    obtain ⟨bound, hbound⟩ := exists_back hwhole hle
    -- The first minute before the anchor that the search comes to.
    have hexists : ∃ i, now.minuteFloor.elapsed < anchor.elapsed + i * Instant.minuteLength :=
      ⟨bound, by omega⟩
    have hfind := Nat.find_spec hexists
    have hmin : Nat.find hexists ≤ bound := Nat.find_min' hexists (by omega)
    obtain ⟨first, hfirst⟩ : ∃ first : Instant, now.minuteFloor.elapsed =
        first.elapsed + Nat.find hexists * Instant.minuteLength := by
      have hlow := c.elapsed_bounds.1
      have hhigh := now.minuteFloor.elapsed_bounds.2
      have hmul := Nat.mul_le_mul_right Instant.minuteLength hmin
      obtain ⟨first, hfirst⟩ := Instant.exists_ofElapsed_iff.mpr
        (show Instant.minElapsed ≤
            ((now.minuteFloor.elapsed - Nat.find hexists * Instant.minuteLength : ℕ) : ℤ) ∧
          ((now.minuteFloor.elapsed - Nat.find hexists * Instant.minuteLength : ℕ) : ℤ) <
            Instant.endElapsed by omega)
      have helapsed := Instant.ofElapsed_eq_some_iff.mp hfirst
      exact ⟨first, by omega⟩
    refine ⟨Nat.find hexists, ?_, first, hfirst, by omega, ?_⟩
    · rw [hbound] at hreach
      exact hmin.trans_lt (Instant.add_minutes_lt_iff.mp hreach)
    · intro j hj v hv
      have hle' : anchor.elapsed ≤ v.elapsed := by
        have hnot := Nat.find_min hexists hj
        omega
      refine ⟨hle', ?_⟩
      by_contra hmatches
      have hlt := hnone v ⟨hle', isWholeMinute_of_back hv, Bool.eq_true_of_not_eq_false hmatches⟩
      have hfloor := now.minuteFloor_le
      omega

end Searches

/-! ### What the functions return -/

/-- The normalised schedule has this recurrence. -/
def Recurrence.IsOf (schedule : Mapping) : Recurrence → Prop
  | .cron fields => get schedule "mode" = .str "cron" ∧ ∃ expression, expression ≠ "" ∧
      get schedule "cron" = .str expression ∧ Text.strip expression = expression ∧
        cronFields expression = .ok fields
  | .interval seconds => get schedule "mode" = .str "interval" ∧
      everySeconds schedule = .int seconds ∧ 0 < seconds

section Functions

variable {env : Serialiser} {reader : IsoReader} {clock : Instant} {schedule : Mapping}
  {createdAt : Option String} {anchor now slot t : Instant} {recurrence : Recurrence}
  {fields : CronFields (List ℤ)} {seconds : ℤ}

theorem modeText_of_get {mode : String} (h : get schedule "mode" = .str mode) (hne : mode ≠ "") :
    modeText env schedule = mode := by
  simp [modeText, h, Json.isTruthy, hne, Serialiser.str]

theorem cronText_of_get {expression : String} (h : get schedule "cron" = .str expression)
    (hne : expression ≠ "") : cronText env schedule = expression := by
  simp [cronText, h, Json.isTruthy, hne, Serialiser.str]

theorem positiveIntOf_of_everySeconds (h : everySeconds schedule = .int seconds)
    (hpos : 0 < seconds) : positiveIntOf (everySeconds schedule) "everySeconds" = .ok seconds := by
  have hnot : ¬ seconds ≤ 0 := by omega
  simp [positiveIntOf, h, optionalIntOf, rejectIf, hnot]

/-- The last point of the grid up to the present. -/
theorem isLastUpTo_interval_iff (hseconds : 0 < seconds) (hle : anchor.elapsed ≤ now.elapsed) :
    Instant.IsLastUpTo ((Recurrence.interval seconds).IsSlot anchor) now.elapsed t ↔
      (t.elapsed : ℤ) = anchor.elapsed +
        ((now.elapsed : ℤ) - anchor.elapsed) / (seconds * 1000000) * (seconds * 1000000) := by
  have hwidth : 0 < seconds * 1000000 := by omega
  have hdiv := Int.ediv_mul_le ((now.elapsed : ℤ) - anchor.elapsed) hwidth.ne'
  have hnext := Int.lt_ediv_add_one_mul_self ((now.elapsed : ℤ) - anchor.elapsed) hwidth
  obtain ⟨n, hn⟩ := Int.eq_ofNat_of_zero_le (show
    0 ≤ ((now.elapsed : ℤ) - anchor.elapsed) / (seconds * 1000000) from
      Int.ediv_nonneg (by omega) hwidth.le)
  rw [hn] at hdiv hnext ⊢
  have hmax : ∀ u : Instant, (Recurrence.interval seconds).IsSlot anchor u →
      u.elapsed ≤ now.elapsed → (u.elapsed : ℤ) ≤ anchor.elapsed + n * (seconds * 1000000) := by
    rintro u ⟨k, hk⟩ hu
    have hkn : (k : ℤ) < n + 1 := by
      have hlt : (k : ℤ) * (seconds * 1000000) < (n + 1) * (seconds * 1000000) := by omega
      exact lt_of_mul_lt_mul_right hlt hwidth.le
    have hmul := mul_le_mul_of_nonneg_right (show (k : ℤ) ≤ n by omega) hwidth.le
    omega
  obtain ⟨point, hpoint⟩ : ∃ point : Instant,
      (point.elapsed : ℤ) = anchor.elapsed + n * (seconds * 1000000) := by
    have hlow := anchor.elapsed_bounds.1
    have hhigh := now.elapsed_bounds.2
    have hnonneg : (0 : ℤ) ≤ n * (seconds * 1000000) := by positivity
    simp only [← Instant.ofElapsed_eq_some_iff, Instant.exists_ofElapsed_iff]
    omega
  constructor
  · intro ht
    have hupper := hmax t ht.holds ht.le
    have hlower := ht.last point ⟨n, hpoint⟩ (by omega)
    omega
  · intro ht
    refine ⟨⟨n, ht⟩, by omega, fun u hu hle' => ?_⟩
    have hupper := hmax u hu hle'
    omega

/-- **The slot of an interval**, up to 2 ^ 34 seconds from the anchor. -/
theorem intervalSlot_eq_ok_iff {found : Option Instant}
    (hrecurrence : (Recurrence.interval seconds).IsOf schedule)
    (hanchor : anchorOf reader clock schedule createdAt = .ok anchor)
    (hspan : now.elapsed < anchor.elapsed + 2 ^ 34 * 1000000) :
    intervalSlot reader clock createdAt schedule now = .ok found ↔
      (∃ t, found = some t ∧
        Instant.IsLastUpTo ((Recurrence.interval seconds).IsSlot anchor) now.elapsed t) ∨
      found = none ∧
        ∀ u, (Recurrence.interval seconds).IsSlot anchor u → now.elapsed < u.elapsed := by
  obtain ⟨-, hseconds, hpos⟩ := hrecurrence
  simp only [intervalSlot, positiveIntOf_of_everySeconds hseconds hpos, hanchor,
    bind_eq_ok_iff, Except.ok.injEq, exists_eq_left']
  have hself : (Recurrence.interval seconds).IsSlot anchor anchor := ⟨0, by simp⟩
  split_ifs with hlt
  · have hnone : ∀ u, (Recurrence.interval seconds).IsSlot anchor u → now.elapsed < u.elapsed := by
      rintro u ⟨k, hk⟩
      have hnonneg : (0 : ℤ) ≤ k * (seconds * 1000000) := by positivity
      omega
    constructor
    · intro h
      exact .inr ⟨(Except.ok.inj h).symm, hnone⟩
    · rintro (⟨t, -, ht⟩ | ⟨rfl, -⟩)
      · exact absurd ht.le (Nat.not_le_of_lt (hnone t ht.holds))
      · rfl
  · have hle := Nat.le_of_not_lt hlt
    rw [floor_totalSeconds_of_lt (by omega) (by omega), map_eq_ok_iff]
    have hgrid : ((now.elapsed : ℤ) - anchor.elapsed) / 1000000 / seconds * seconds * 1000000 =
        ((now.elapsed : ℤ) - anchor.elapsed) / (seconds * 1000000) * (seconds * 1000000) := by
      rw [Int.ediv_ediv_of_nonneg (by decide), mul_comm 1000000 seconds, mul_assoc]
    simp only [checkedPlus_eq_ok_iff, hgrid]
    constructor
    · rintro ⟨u, hu, rfl⟩
      exact .inl ⟨u, rfl, (isLastUpTo_interval_iff hpos hle).mpr hu⟩
    · rintro (⟨t, rfl, ht⟩ | ⟨-, hnone⟩)
      · exact ⟨t, (isLastUpTo_interval_iff hpos hle).mp ht, rfl⟩
      · exact absurd hle (Nat.not_le_of_lt (hnone anchor hself))

/-- What the search for a slot means, for either recurrence. -/
def Recurrence.FindsSlot (recurrence : Recurrence) (anchor now : Instant) : Option Instant → Prop
  | some t => Instant.IsLastUpTo (recurrence.IsSlot anchor) now.elapsed t ∧
      recurrence.SlotInReach now t
  | none => (∀ u, recurrence.IsSlot anchor u → now.elapsed < u.elapsed) ∧
      recurrence.AnchorInReach anchor now

/-- **The slot that is found is the last one up to the present**, as far as the search reaches. -/
theorem scheduledSlot_eq_ok_iff {found : Option Instant} (hrecurrence : recurrence.IsOf schedule)
    (hanchor : anchorOf reader clock schedule createdAt = .ok anchor)
    (hspan : ∀ seconds, recurrence = .interval seconds →
      now.elapsed < anchor.elapsed + 2 ^ 34 * 1000000) :
    scheduledSlot env reader clock createdAt schedule now = .ok found ↔
      recurrence.FindsSlot anchor now found := by
  cases recurrence with
  | cron fields =>
    obtain ⟨hmode, expression, hne, hcron, hstrip, hfields⟩ := hrecurrence
    have hother : ¬ ("cron" : String) = "interval" := by decide
    simp only [scheduledSlot, modeText_of_get hmode (by decide), if_neg hother, if_true, cronSlot,
      cronText_of_get hcron hne, hstrip, bind_eq_ok_iff, rejectIf_eq_ok_iff, hne,
      not_false_eq_true, hanchor, hfields, Except.ok.injEq, exists_eq_left', exists_const, true_and]
    cases found with
    | none => exact scanBackwards_eq_none_iff
    | some t => exact scanBackwards_eq_some_iff
  | interval seconds =>
    simp only [scheduledSlot, modeText_of_get hrecurrence.1 (by decide), if_true,
      intervalSlot_eq_ok_iff hrecurrence hanchor (hspan seconds rfl)]
    cases found with
    | none => simp [Recurrence.FindsSlot, Recurrence.AnchorInReach]
    | some t => simp [Recurrence.FindsSlot, Recurrence.SlotInReach]

/-! ### The next due time -/

theorem visitForwards_eq_some_iff {u : Instant} : visitForwards fields u = .ok (some t) ↔
    u = t ∧ cronMatches u.toMinute fields = true := by
  simp only [visitForwards, pure_eq_ok_iff]
  split_ifs with hmatch <;> simp [hmatch]

theorem visitForwards_eq_none_iff {u : Instant} : visitForwards fields u = .ok none ↔
    cronMatches u.toMinute fields = false := by
  simp only [visitForwards, pure_eq_ok_iff]
  split_ifs with hmatch <;> simp [hmatch]

/-- **The search forwards finds the first minute that matches**, if it gets there. -/
theorem scanForwards_eq_ok_iff {overflow exhausted : FoundryLiteError} {candidate : Instant}
    (hcandidate : candidate.IsWholeMinute) :
    Instant.scan (visitForwards fields) overflow exhausted Instant.minuteLength
        maxCronLookbackMinutes candidate = .ok t ↔
      Instant.IsFirstFrom (MatchesMinute fields) candidate.elapsed t ∧
        t.elapsed < candidate.elapsed + maxCronLookbackMinutes * Instant.minuteLength := by
  have hcast : ∀ (i : ℕ) (v : Instant), (v.elapsed : ℤ) =
      candidate.elapsed + i * (Instant.minuteLength : ℤ) ↔
      v.elapsed = candidate.elapsed + i * Instant.minuteLength := by
    intro i v
    exact_mod_cast Iff.rfl
  simp only [Instant.scan_eq_ok_iff, hcast, visitForwards_eq_some_iff, visitForwards_eq_none_iff]
  constructor
  · rintro ⟨i, hi, u, hu, ⟨rfl, hmatch⟩, hbefore⟩
    refine ⟨⟨⟨hcandidate.of_add hu, hmatch⟩, hu.ge.trans' (Nat.le_add_right _ _), ?_⟩, ?_⟩
    · rintro v ⟨hwhole, hv⟩ hle
      by_contra hlt
      obtain ⟨j, hj⟩ := hcandidate.exists_add hwhole hle
      have hji : j < i := by
        have hlt' := Nat.lt_of_not_le hlt
        rw [hj, hu] at hlt'
        exact Instant.add_minutes_lt_iff.mp hlt'
      rw [hbefore j hji v hj] at hv
      cases hv
    · rw [hu]
      exact Instant.add_minutes_lt_iff.mpr hi
  · rintro ⟨⟨⟨hwhole, hmatch⟩, hle, hfirst⟩, hlt⟩
    obtain ⟨i, hi⟩ := hcandidate.exists_add hwhole hle
    refine ⟨i, ?_, t, hi, ⟨rfl, hmatch⟩, ?_⟩
    · rw [hi] at hlt
      exact Instant.add_minutes_lt_iff.mp hlt
    · intro j hj v hv
      by_contra hmatches
      have hvlt : v.elapsed < t.elapsed := by
        rw [hv, hi]
        exact Instant.add_minutes_lt_iff.mpr hj
      exact Nat.not_le_of_lt hvlt (hfirst v ⟨hcandidate.of_add hv,
        Bool.eq_true_of_not_eq_false hmatches⟩ (hv.ge.trans' (Nat.le_add_right _ _)))

theorem cronCandidateAtOrAfter_eq_ok_iff {value candidate : Instant} :
    cronCandidateAtOrAfter value = .ok candidate ↔
      candidate.elapsed = Instant.ceilMinute value.elapsed := by
  have hfloor := value.elapsed_minuteFloor
  rw [cronCandidateAtOrAfter, hfloor, Instant.ceilMinute]
  split_ifs with hle
  · have hceil : (value.elapsed + (Instant.minuteLength - 1)) / Instant.minuteLength *
        Instant.minuteLength = value.minuteFloor.elapsed := by
      rw [hfloor]
      simp only [Instant.minuteLength] at hle ⊢
      omega
    rw [hceil]
    exact ⟨fun h => congrArg Instant.elapsed (Except.ok.inj h).symm,
      fun h => congrArg Except.ok (Instant.elapsed_injective h.symm)⟩
  · rw [checkedPlus_eq_ok_iff, hfloor]
    simp only [Instant.minuteLength] at hle ⊢
    omega

theorem isWholeMinute_of_ceilMinute {candidate : Instant} {bound : ℕ}
    (h : candidate.elapsed = Instant.ceilMinute bound) : candidate.IsWholeMinute := by
  rw [Instant.IsWholeMinute, h, Instant.ceilMinute]
  exact Nat.dvd_mul_left _ _

/-- Below a moment of the calendar every bound from its beginning on is a moment. -/
theorem exists_elapsed {bound : ℕ} (hlow : Instant.minElapsed ≤ bound) (hle : bound ≤ t.elapsed) :
    ∃ u : Instant, u.elapsed = bound := by
  have hhigh := t.elapsed_bounds.2
  obtain ⟨u, hu⟩ := Instant.exists_ofElapsed_iff.mpr
    (show (Instant.minElapsed : ℤ) ≤ (bound : ℤ) ∧ (bound : ℤ) < Instant.endElapsed by omega)
  exact ⟨u, by exact_mod_cast Instant.ofElapsed_eq_some_iff.mp hu⟩

theorem le_ceilMinute (bound : ℕ) : bound ≤ Instant.ceilMinute bound := by
  rw [Instant.ceilMinute, Instant.minuteLength]
  omega

/-- **There is a next minute** exactly if the search gets to one. -/
theorem nextCronDue_isOk_iff (hrecurrence : (Recurrence.cron fields).IsOf schedule)
    (hanchor : anchorOf reader clock schedule createdAt = .ok anchor) :
    (∃ text, nextCronDue env reader clock schedule createdAt slot = .ok text) ↔
      (Recurrence.cron fields).NextInReach anchor slot := by
  obtain ⟨-, expression, hne, hcron, -, hfields⟩ := hrecurrence
  have hbehind : ∀ u : Instant,
      (u.elapsed : ℤ) = slot.minuteFloor.elapsed + (Instant.minuteLength : ℤ) ↔
        u.elapsed = slot.minuteFloor.elapsed + Instant.minuteLength := by
    intro u
    exact_mod_cast Iff.rfl
  have hchoice : ∀ {a b : Instant}, a.elapsed = Instant.ceilMinute anchor.elapsed →
      b.elapsed = slot.minuteFloor.elapsed + Instant.minuteLength →
        (if a.elapsed < b.elapsed then b else a).IsWholeMinute ∧
          (if a.elapsed < b.elapsed then b else a).elapsed = nextBase anchor slot := by
    intro a b ha hb
    have hbWhole : b.IsWholeMinute := by
      refine slot.isWholeMinute_minuteFloor.of_add (i := 1) ?_
      rw [hb, one_mul]
    rw [nextBase, ← ha, ← hb]
    split_ifs with hlt
    · exact ⟨hbWhole, (max_eq_right hlt.le).symm⟩
    · exact ⟨isWholeMinute_of_ceilMinute ha, (max_eq_left (Nat.le_of_not_lt hlt)).symm⟩
  simp only [nextCronDue, cronText_of_get hcron hne, hfields, hanchor, bind_eq_ok_iff,
    Except.ok.injEq, exists_eq_left', cronCandidateAtOrAfter_eq_ok_iff, checkedPlus_eq_ok_iff,
    hbehind, pure_eq_ok_iff, Recurrence.NextInReach]
  constructor
  · rintro ⟨_, a, ha, b, hb, t, hscan, -⟩
    obtain ⟨hwhole, hbase⟩ := hchoice ha hb
    rw [scanForwards_eq_ok_iff hwhole, hbase] at hscan
    exact ⟨t, hscan⟩
  · rintro ⟨t, ht⟩
    have hbase := ht.1.le
    obtain ⟨a, ha⟩ := @exists_elapsed t (Instant.ceilMinute anchor.elapsed)
      (anchor.elapsed_bounds.1.trans (le_ceilMinute _)) ((Nat.le_max_left _ _).trans hbase)
    obtain ⟨b, hb⟩ := @exists_elapsed t (slot.minuteFloor.elapsed + Instant.minuteLength)
      (slot.minuteFloor.elapsed_bounds.1.trans (Nat.le_add_right _ _))
      ((Nat.le_max_right _ _).trans hbase)
    obtain ⟨hwhole, hchosen⟩ := hchoice ha hb
    refine ⟨iso t, a, ha, b, hb, t, ?_, rfl⟩
    rw [scanForwards_eq_ok_iff hwhole, hchosen]
    exact ht

/-- **There is a next due time** exactly if it is in reach. -/
theorem nextDue_isOk_iff (hrecurrence : recurrence.IsOf schedule)
    (hanchor : anchorOf reader clock schedule createdAt = .ok anchor) :
    (∃ next, nextDue env reader clock schedule createdAt slot = .ok next) ↔
      recurrence.NextInReach anchor slot := by
  cases recurrence with
  | cron fields =>
    have hother : ¬ ("cron" : String) = "interval" := by decide
    simp only [nextDue, modeText_of_get hrecurrence.1 (by decide), if_neg hother, if_true,
      bind_eq_ok_iff, pure_eq_ok_iff]
    rw [← nextCronDue_isOk_iff hrecurrence hanchor]
    constructor
    · rintro ⟨_, text, htext, -⟩
      exact ⟨text, htext⟩
    · rintro ⟨text, htext⟩
      exact ⟨_, text, htext, rfl⟩
  | interval seconds =>
    simp only [nextDue, modeText_of_get hrecurrence.1 (by decide), if_true,
      positiveIntOf_of_everySeconds hrecurrence.2.1 hrecurrence.2.2, bind_eq_ok_iff,
      Except.ok.injEq, exists_eq_left', checkedPlus_eq_ok_iff, pure_eq_ok_iff,
      Recurrence.NextInReach]
    constructor
    · rintro ⟨_, t, ht, -⟩
      exact ⟨t, ht⟩
    · rintro ⟨t, ht⟩
      exact ⟨_, t, ht, rfl⟩

/-- There is a next due time for a schedule that has no slot yet. -/
def Recurrence.PendingInReach (anchor now : Instant) : Recurrence → Prop
  | .cron fields =>
    if now.elapsed < anchor.elapsed then
      ∃ before : Instant, (before.elapsed : ℤ) =
          anchor.minuteFloor.elapsed + -(Instant.minuteLength : ℤ) ∧
        (Recurrence.cron fields).NextInReach anchor before
    else (Recurrence.cron fields).NextInReach anchor now.minuteFloor
  | .interval seconds =>
    now.elapsed < anchor.elapsed ∨ (Recurrence.interval seconds).NextInReach anchor now.minuteFloor

theorem pendingNextDue_isOk_iff (hrecurrence : recurrence.IsOf schedule)
    (hanchor : anchorOf reader clock schedule createdAt = .ok anchor) :
    (∃ next, pendingNextDue env reader clock schedule createdAt now = .ok next) ↔
      recurrence.PendingInReach anchor now := by
  simp only [pendingNextDue, hanchor, bind_eq_ok_iff, Except.ok.injEq, exists_eq_left']
  cases recurrence with
  | cron fields =>
    have hmode : ¬ get schedule "mode" = .str "interval" := by
      rw [hrecurrence.1]
      decide
    by_cases hlt : now.elapsed < anchor.elapsed
    · simp only [if_pos hlt, if_neg hmode, bind_eq_ok_iff, checkedPlus_eq_ok_iff,
        pure_eq_ok_iff, Recurrence.PendingInReach]
      constructor
      · rintro ⟨_, before, hbefore, text, htext, -⟩
        exact ⟨before, hbefore, (nextCronDue_isOk_iff hrecurrence hanchor).mp ⟨text, htext⟩⟩
      · rintro ⟨before, hbefore, hnext⟩
        obtain ⟨text, htext⟩ := (nextCronDue_isOk_iff hrecurrence hanchor).mpr hnext
        exact ⟨_, before, hbefore, text, htext, rfl⟩
    · simp only [if_neg hlt, Recurrence.PendingInReach]
      exact nextDue_isOk_iff hrecurrence hanchor
  | interval seconds =>
    by_cases hlt : now.elapsed < anchor.elapsed
    · simp [hlt, hrecurrence.1, Recurrence.PendingInReach]
    · rw [Recurrence.PendingInReach, or_iff_right hlt]
      simp only [if_neg hlt]
      exact nextDue_isOk_iff hrecurrence hanchor

end Functions

end SourceScheduler

end FoundryLite.Schedules
