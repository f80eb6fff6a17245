import FoundryLite.Schedules.CronAgreement
import FoundryLite.Schedules.PipelineSlots

/-!
# The slots of a pipeline schedule are all of them

The meaning of a schedule is a set of moments: the minutes whose local time matches, or the points of
a grid from the start. The first slot is the first of them from the later of the start and the
present, and each further slot is the next one. So they come in order, and none is left out.

A search gives up after five years. It also gives up where it leaves the calendar: at a minute that
has no local time, and before the first minute of the year 1.

## Main results

* `nextCronMatch_eq_ok_iff`: the search returns the first minute that matches, if it gets there.
* `slots_spec`: the slots are enumerated in order as far as the searches reach.
-/

namespace FoundryLite.Schedules

open Calendar
open Except (bind_eq_ok_iff map_eq_ok_iff pure_eq_ok_iff)

namespace PipelineScheduler

/-! ### What a schedule means -/

inductive Trigger where
  | cron (zone : Zone) (fields : CronFields CronField)
  | interval (seconds : ℤ)

/-- The local time of the moment matches. -/
def MatchesAt (zone : Zone) (fields : CronFields CronField) (t : Instant) : Prop :=
  ∃ localTime, t.plus (zone t) = some localTime ∧ cronMatches localTime.toMinute fields = true

/-- The moment is a slot of the schedule that starts at `start`. -/
def Trigger.IsSlot (start : Instant) : Trigger → Instant → Prop
  | .cron zone fields, t => t.IsWholeMinute ∧ MatchesAt zone fields t
  | .interval seconds, t => ∃ k : ℕ, (t.elapsed : ℤ) = start.elapsed + k * (seconds * 1000000)

/-- The search from a number of microseconds on gets to a moment: it is one of the minutes that are
looked at, each minute before it has a local time, and the search does not begin with the first
minute of the calendar. -/
def Trigger.Reaches (bound : ℕ) : Trigger → Instant → Prop
  | .cron zone _, t => Instant.minElapsed < bound ∧
      t.elapsed < Instant.ceilMinute bound + maxCronLookaheadMinutes * Instant.minuteLength ∧
        ∀ u : Instant, u.IsWholeMinute → Instant.ceilMinute bound ≤ u.elapsed → u.elapsed < t.elapsed →
          ∃ localTime, u.plus (zone u) = some localTime
  | .interval _, _ => True

/-! ### The search for a minute -/

section Search

variable {zone : Zone} {fields : CronFields CronField} {t : Instant}

theorem visitMinute_eq_some_iff {found : Instant} :
    visitMinute zone fields t = .ok (some found) ↔ t = found ∧ MatchesAt zone fields t := by
  simp only [visitMinute, bind_eq_ok_iff, checkedPlus_eq_ok_iff, pure_eq_ok_iff,
    MatchesAt, Instant.plus_eq_some_iff, ite_eq_iff, Option.some.injEq, reduceCtorEq, and_false,
    or_false]
  constructor
  · rintro ⟨l, hl, hmatch, rfl⟩
    exact ⟨rfl, l, hl, hmatch⟩
  · rintro ⟨rfl, l, hl, hmatch⟩
    exact ⟨l, hl, hmatch, rfl⟩

theorem visitMinute_eq_none_iff : visitMinute zone fields t = .ok none ↔
    (∃ localTime, t.plus (zone t) = some localTime) ∧ ¬ MatchesAt zone fields t := by
  simp only [visitMinute, bind_eq_ok_iff, checkedPlus_eq_ok_iff, pure_eq_ok_iff,
    MatchesAt, Instant.plus_eq_some_iff]
  constructor
  · rintro ⟨l, hl, hnone⟩
    refine ⟨⟨l, hl⟩, ?_⟩
    rintro ⟨l', hl', hmatch⟩
    have heq : l' = l := Instant.elapsed_injective (Int.ofNat_inj.mp (hl'.trans hl.symm))
    rw [heq] at hmatch
    simp [hmatch] at hnone
  · rintro ⟨⟨l, hl⟩, hnot⟩
    exact ⟨l, hl, if_neg fun hmatch => hnot ⟨l, hl, hmatch⟩⟩

/-- **A search from a whole minute on finds the first one that matches**, if it gets there. -/
theorem scan_eq_ok_iff_isFirstFrom {overflow exhausted : FoundryLiteError} {start candidate : Instant}
    (hcandidate : candidate.IsWholeMinute) :
    Instant.scan (visitMinute zone fields) overflow exhausted Instant.minuteLength
        maxCronLookaheadMinutes candidate = .ok t ↔
      Instant.IsFirstFrom ((Trigger.cron zone fields).IsSlot start) candidate.elapsed t ∧
        t.elapsed < candidate.elapsed + maxCronLookaheadMinutes * Instant.minuteLength ∧
        ∀ u : Instant, u.IsWholeMinute → candidate.elapsed ≤ u.elapsed → u.elapsed < t.elapsed →
          ∃ localTime, u.plus (zone u) = some localTime := by
  have hcast : ∀ (i : ℕ) (v : Instant), (v.elapsed : ℤ) =
      candidate.elapsed + i * (Instant.minuteLength : ℤ) ↔
      v.elapsed = candidate.elapsed + i * Instant.minuteLength := by
    intro i v
    exact_mod_cast Iff.rfl
  simp only [Instant.scan_eq_ok_iff, hcast, visitMinute_eq_some_iff, visitMinute_eq_none_iff]
  constructor
  · rintro ⟨i, hi, u, hu, ⟨rfl, hmatch⟩, hbefore⟩
    have hbeforeOf : ∀ v : Instant, v.IsWholeMinute → candidate.elapsed ≤ v.elapsed →
        v.elapsed < u.elapsed →
          (∃ localTime, v.plus (zone v) = some localTime) ∧ ¬ MatchesAt zone fields v := by
      intro v hv hle hlt
      obtain ⟨j, hj⟩ := hcandidate.exists_add hv hle
      refine hbefore j ?_ v hj
      rw [hj, hu] at hlt
      exact Instant.add_minutes_lt_iff.mp hlt
    refine ⟨⟨⟨hcandidate.of_add hu, hmatch⟩, hu.ge.trans' (Nat.le_add_right _ _), ?_⟩, ?_, ?_⟩
    · rintro v ⟨hwhole, hv⟩ hle
      by_contra hlt
      exact (hbeforeOf v hwhole hle (Nat.lt_of_not_le hlt)).2 hv
    · rw [hu]
      exact Instant.add_minutes_lt_iff.mpr hi
    · intro v hv hle hlt
      exact (hbeforeOf v hv hle hlt).1
  · rintro ⟨⟨⟨hwhole, hmatch⟩, hle, hfirst⟩, hlt, hlocal⟩
    obtain ⟨i, hi⟩ := hcandidate.exists_add hwhole hle
    refine ⟨i, ?_, t, hi, ⟨rfl, hmatch⟩, ?_⟩
    · rw [hi] at hlt
      exact Instant.add_minutes_lt_iff.mp hlt
    · intro j hj v hv
      have hvlt : v.elapsed < t.elapsed := by
        rw [hv, hi]
        exact Instant.add_minutes_lt_iff.mpr hj
      have hvle : candidate.elapsed ≤ v.elapsed := hv.ge.trans' (Nat.le_add_right _ _)
      refine ⟨hlocal v (hcandidate.of_add hv) hvle hvlt, fun hmatches => ?_⟩
      exact Nat.not_le_of_lt hvlt (hfirst v ⟨hcandidate.of_add hv, hmatches⟩ hvle)

end Search

/-! ### What a specification says -/

section Specification

variable {zones : String → Option Zone} {reader : IsoReader} {spec : PipelineScheduleSpec}
  {start now t : Instant} {zone : Zone} {fields : CronFields CronField} {seconds : ℤ}

/-- The specification has this trigger. -/
def Trigger.IsOf (zones : String → Option Zone) (spec : PipelineScheduleSpec) : Trigger → Prop
  | .cron zone fields => spec.triggerKind = "cron" ∧ zones spec.timezone = some zone ∧
      cronFields (spec.cronExpression.getD "") = .ok fields
  | .interval seconds => spec.triggerKind = "interval" ∧ spec.intervalSeconds = some seconds ∧
      0 < seconds ∧ seconds ≤ maxIntervalSeconds

/-- The specification starts at a whole second. -/
structure StartsAt (spec : PipelineScheduleSpec) (start : Instant) : Prop where
  startAt : spec.startAt = some (iso start)
  whole : start.microsecond = 0

theorem parseScheduleTimestamp_iso {field : String} (h : t.microsecond = 0) :
    parseScheduleTimestamp reader (iso t) field = .ok t := by
  rw [parseScheduleTimestamp, strip_iso, reader.fromisoformat_iso,
    Instant.secondFloor_of_microsecond h]
  simp

theorem StartsAt.startAnchor (h : StartsAt spec start) : startAnchor reader spec now = .ok start := by
  rw [PipelineScheduler.startAnchor, h.startAt]
  exact parseScheduleTimestamp_iso h.whole

/-- **The search behind a moment finds the first minute that matches**, if it gets there. -/
theorem nextCronMatch_eq_ok_iff {after : Instant} {base : ℕ}
    (h : (Trigger.cron zone fields).IsOf zones spec)
    (hbase : base = after.minuteFloor.elapsed + Instant.minuteLength) :
    nextCronMatch zones spec after = .ok t ↔
      Instant.IsFirstFrom ((Trigger.cron zone fields).IsSlot start) base t ∧
        t.elapsed < base + maxCronLookaheadMinutes * Instant.minuteLength ∧
        ∀ u : Instant, u.IsWholeMinute → base ≤ u.elapsed → u.elapsed < t.elapsed →
          ∃ localTime, u.plus (zone u) = some localTime := by
  obtain ⟨-, hzone, hfields⟩ := h
  subst hbase
  have hcast : ∀ candidate : Instant, (candidate.elapsed : ℤ) =
      after.minuteFloor.elapsed + (Instant.minuteLength : ℤ) ↔
      candidate.elapsed = after.minuteFloor.elapsed + Instant.minuteLength := by
    intro candidate
    exact_mod_cast Iff.rfl
  simp only [nextCronMatch, zoneOf, hzone, hfields, bind_eq_ok_iff, Except.ok.injEq,
    pure_eq_ok_iff, exists_eq_left', checkedPlus_eq_ok_iff, hcast]
  constructor
  · rintro ⟨candidate, hcandidate, hscan⟩
    have hwhole : candidate.IsWholeMinute := by
      refine after.isWholeMinute_minuteFloor.of_add (i := 1) ?_
      rw [hcandidate, one_mul]
    rw [← hcandidate]
    exact (scan_eq_ok_iff_isFirstFrom hwhole).mp hscan
  · intro hfirst
    -- The candidate lies between the moment and what is found, so it is in the calendar.
    obtain ⟨candidate, hcandidate⟩ : ∃ candidate : Instant,
        candidate.elapsed = after.minuteFloor.elapsed + Instant.minuteLength := by
      have hlow := after.minuteFloor.elapsed_bounds.1
      have hhigh := t.elapsed_bounds.2
      have hle := hfirst.1.le
      obtain ⟨candidate, hcandidate⟩ := Instant.exists_ofElapsed_iff.mpr
        (show Instant.minElapsed ≤
            ((after.minuteFloor.elapsed + Instant.minuteLength : ℕ) : ℤ) ∧
          ((after.minuteFloor.elapsed + Instant.minuteLength : ℕ) : ℤ) < Instant.endElapsed by
          omega)
      exact ⟨candidate, by exact_mod_cast Instant.ofElapsed_eq_some_iff.mp hcandidate⟩
    have hwhole : candidate.IsWholeMinute := by
      refine after.isWholeMinute_minuteFloor.of_add (i := 1) ?_
      rw [hcandidate, one_mul]
    rw [← hcandidate] at hfirst
    exact ⟨candidate, hcandidate, (scan_eq_ok_iff_isFirstFrom hwhole).mpr hfirst⟩

/-- The later of the start and the present. -/
def lowerBound (start now : Instant) : ℕ := max start.elapsed now.elapsed

theorem isFirstFrom_ceilMinute {bound : ℕ} :
    Instant.IsFirstFrom ((Trigger.cron zone fields).IsSlot start) (Instant.ceilMinute bound) t ↔
      Instant.IsFirstFrom ((Trigger.cron zone fields).IsSlot start) bound t :=
  Instant.isFirstFrom_congr fun _ hu => Instant.ceilMinute_le_iff hu.1

/-- Before a whole minute there is another one, unless it is the first of the calendar. -/
theorem exists_minute_before {first : Instant} (hwhole : first.elapsed = first.minuteFloor.elapsed)
    (hbound : Instant.minElapsed < first.elapsed) :
    ∃ after : Instant, (after.elapsed : ℤ) = first.elapsed + -(Instant.minuteLength : ℤ) := by
  have hhigh := first.elapsed_bounds.2
  rw [first.elapsed_minuteFloor] at hwhole
  have hle : Instant.minElapsed + Instant.minuteLength ≤ first.elapsed := by
    simp only [Instant.minElapsed, Instant.dayLength, Instant.minuteLength] at hwhole hbound ⊢
    omega
  simp only [← Instant.ofElapsed_eq_some_iff, Instant.exists_ofElapsed_iff]
  omega

/-- What the search from the first candidate on returns. -/
theorem initialSearch_eq_ok_iff {first : Instant}
    (h : (Trigger.cron zone fields).IsOf zones spec) :
    searchAfter first >>= nextCronMatch zones spec = .ok t ↔
    Instant.IsFirstFrom ((Trigger.cron zone fields).IsSlot start) first.elapsed t ∧
      (Trigger.cron zone fields).Reaches first.elapsed t := by
  rw [← isFirstFrom_ceilMinute]
  have hfloor := first.elapsed_minuteFloor
  have hlow := first.elapsed_bounds.1
  simp only [bind_eq_ok_iff, Trigger.Reaches, searchAfter]
  by_cases hwhole : first.elapsed = first.minuteFloor.elapsed
  · have hceil : Instant.ceilMinute first.elapsed = first.elapsed := by
      rw [Instant.ceilMinute]
      rw [hfloor] at hwhole
      simp only [Instant.minuteLength] at hwhole ⊢
      omega
    have hbefore : ∀ {after : Instant},
        (after.elapsed : ℤ) = first.elapsed + -(Instant.minuteLength : ℤ) →
          after.elapsed + Instant.minuteLength = first.elapsed := by
      intro after hafter
      omega
    have hbase : ∀ {after : Instant}, after.elapsed + Instant.minuteLength = first.elapsed →
        Instant.ceilMinute first.elapsed = after.minuteFloor.elapsed + Instant.minuteLength := by
      intro after hafter
      have hfirst : Instant.minuteLength ∣ after.elapsed + Instant.minuteLength := by
        rw [hafter, hwhole, hfloor]
        exact Nat.dvd_mul_left _ _
      rw [hceil, after.elapsed_minuteFloor,
        Nat.div_mul_cancel ((Nat.dvd_add_left dvd_rfl).mp hfirst), hafter]
    simp only [if_pos hwhole, checkedPlus_eq_ok_iff]
    constructor
    · rintro ⟨after, hafter, hsearch⟩
      obtain ⟨hfirst, hlt, hlocal⟩ :=
        (nextCronMatch_eq_ok_iff h (hbase (hbefore hafter))).mp hsearch
      refine ⟨hfirst, ?_, hlt, hlocal⟩
      rw [← hbefore hafter]
      exact after.elapsed_bounds.1.trans_lt (Nat.lt_add_of_pos_right Instant.minuteLength_pos)
    · rintro ⟨hfirst, hbound, hlt, hlocal⟩
      obtain ⟨after, hafter⟩ := exists_minute_before hwhole hbound
      exact ⟨after, hafter, (nextCronMatch_eq_ok_iff h (hbase (hbefore hafter))).mpr
        ⟨hfirst, hlt, hlocal⟩⟩
  · have hbase : Instant.ceilMinute first.elapsed =
        first.minuteFloor.elapsed + Instant.minuteLength := by
      rw [Instant.ceilMinute, hfloor]
      rw [hfloor] at hwhole
      simp only [Instant.minuteLength] at hwhole ⊢
      omega
    have hbound : Instant.minElapsed < first.elapsed := by
      rw [hfloor] at hwhole
      simp only [Instant.minElapsed, Instant.dayLength, Instant.minuteLength] at hwhole hlow ⊢
      omega
    simp only [if_neg hwhole, pure_eq_ok_iff, exists_eq_left', hbound, true_and]
    exact nextCronMatch_eq_ok_iff h hbase

/-! ### The points of an interval -/

/-- The grid has a last point before the present and a first one behind it. -/
theorem exists_grid_step {elapsed width : ℤ} (hpos : 0 < elapsed) (hwidth : 0 < width) :
    ∃ k : ℕ, (k : ℤ) * width < elapsed ∧ elapsed ≤ (k + 1 : ℕ) * width := by
  obtain ⟨k, hk⟩ := Int.eq_ofNat_of_zero_le
    (show 0 ≤ (elapsed - 1) / width from Int.ediv_nonneg (by omega) hwidth.le)
  have hle := Int.ediv_mul_le (elapsed - 1) hwidth.ne'
  have hlt := Int.lt_ediv_add_one_mul_self (elapsed - 1) hwidth
  rw [hk] at hle hlt
  refine ⟨k, by omega, ?_⟩
  push_cast
  omega

/-- The first point of the grid from a bound on lies one step behind the last one before it. -/
theorem isFirstFrom_interval_iff {k bound : ℕ} (hseconds : 0 < seconds)
    (hbefore : (k : ℤ) * (seconds * 1000000) < (bound : ℤ) - start.elapsed)
    (hafter : (bound : ℤ) - start.elapsed ≤ (k + 1 : ℕ) * (seconds * 1000000)) :
    Instant.IsFirstFrom ((Trigger.interval seconds).IsSlot start) bound t ↔
      (t.elapsed : ℤ) = start.elapsed + (k + 1 : ℕ) * (seconds * 1000000) := by
  constructor
  · rintro ⟨⟨j, hj⟩, hle, hfirst⟩
    have hkj : k < j := by
      have hlt : (k : ℤ) * (seconds * 1000000) < j * (seconds * 1000000) := by omega
      exact_mod_cast lt_of_mul_lt_mul_right hlt (by omega)
    have hmono : ((k + 1 : ℕ) : ℤ) * (seconds * 1000000) ≤ j * (seconds * 1000000) :=
      mul_le_mul_of_nonneg_right (by exact_mod_cast hkj) (by omega)
    -- The point itself is in the calendar, being no later than the one found.
    obtain ⟨u, hu⟩ : ∃ u : Instant,
        (u.elapsed : ℤ) = start.elapsed + (k + 1 : ℕ) * (seconds * 1000000) := by
      have hlow := start.elapsed_bounds.1
      have hhigh := t.elapsed_bounds.2
      have hnonneg : (0 : ℤ) ≤ ((k + 1 : ℕ) : ℤ) * (seconds * 1000000) := by positivity
      simp only [← Instant.ofElapsed_eq_some_iff, Instant.exists_ofElapsed_iff]
      omega
    have hle' := hfirst u ⟨k + 1, hu⟩ (by omega)
    omega
  · intro ht
    refine ⟨⟨k + 1, ht⟩, by omega, ?_⟩
    rintro u ⟨j, hj⟩ hle
    have hkj : k < j := by
      have hlt : (k : ℤ) * (seconds * 1000000) < j * (seconds * 1000000) := by omega
      exact_mod_cast lt_of_mul_lt_mul_right hlt (by omega)
    have hmono : ((k + 1 : ℕ) : ℤ) * (seconds * 1000000) ≤ j * (seconds * 1000000) :=
      mul_le_mul_of_nonneg_right (by exact_mod_cast hkj) (by omega)
    omega

/-- **The first slot of an interval is the first point of its grid from the present on.** -/
theorem firstIntervalSlot_eq_ok_iff (hseconds : 0 < seconds) :
    firstIntervalSlot start now seconds = .ok t ↔
      Instant.IsFirstFrom ((Trigger.interval seconds).IsSlot start) (lowerBound start now) t := by
  rw [firstIntervalSlot, lowerBound]
  by_cases hle : now.elapsed ≤ start.elapsed
  · rw [if_pos hle, max_eq_left hle]
    have hfirst : Instant.IsFirstFrom ((Trigger.interval seconds).IsSlot start) start.elapsed start :=
      ⟨⟨0, by simp⟩, le_rfl, fun _ _ h => h⟩
    constructor
    · intro h
      obtain rfl := Except.ok.inj h
      exact hfirst
    · intro h
      rw [h.unique hfirst]
      rfl
  · have hlt := Nat.lt_of_not_le hle
    have hpos : (0 : ℤ) < (now.elapsed : ℤ) - start.elapsed := by omega
    have hrange : (now.elapsed : ℤ) - start.elapsed < 2 ^ 53 * 1000000 := by
      have hhigh := now.elapsed_bounds.2
      simp only [Instant.endElapsed, maxOrdinal, Instant.dayLength] at hhigh
      omega
    obtain ⟨k, hbefore, hafter⟩ := exists_grid_step hpos (show 0 < seconds * 1000000 by omega)
    rw [if_neg hle, max_eq_right hlt.le, isFirstFrom_interval_iff hseconds hbefore hafter,
      bind_eq_ok_iff]
    rcases floor_totalSeconds_div hpos hrange hseconds hbefore hafter with hfloor | hfloor
    · -- One interval short: the candidate lies before the present.
      rw [hfloor]
      obtain ⟨candidate, hcandidate⟩ : ∃ candidate : Instant,
          (candidate.elapsed : ℤ) = start.elapsed + (k : ℤ) * seconds * 1000000 := by
        have hlow := start.elapsed_bounds.1
        have hhigh := now.elapsed_bounds.2
        have hnonneg : (0 : ℤ) ≤ k * (seconds * 1000000) := by positivity
        rw [mul_assoc]
        simp only [← Instant.ofElapsed_eq_some_iff, Instant.exists_ofElapsed_iff]
        omega
      have hshort : ∀ u : Instant, (u.elapsed : ℤ) = start.elapsed + (k : ℤ) * seconds * 1000000 →
          ¬ now.elapsed ≤ u.elapsed := by
        intro u hu
        rw [mul_assoc] at hu
        omega
      have hstep : ((k + 1 : ℕ) : ℤ) * (seconds * 1000000) =
          (k : ℤ) * seconds * 1000000 + seconds * 1000000 := by
        push_cast
        ring
      constructor
      · rintro ⟨u, hu, hnext⟩
        rw [checkedPlus_eq_ok_iff] at hu
        rw [if_neg (hshort u hu), checkedPlus_eq_ok_iff] at hnext
        omega
      · intro ht
        refine ⟨candidate, checkedPlus_eq_ok_iff.mpr hcandidate, ?_⟩
        rw [if_neg (hshort candidate hcandidate), checkedPlus_eq_ok_iff]
        omega
    · rw [hfloor]
      have hpoint : ∀ u : Instant,
          (u.elapsed : ℤ) = start.elapsed + ((k : ℤ) + 1) * seconds * 1000000 →
            now.elapsed ≤ u.elapsed := by
        intro u hu
        push_cast at hafter
        rw [mul_assoc] at hu
        omega
      constructor
      · rintro ⟨u, hu, hsame⟩
        rw [checkedPlus_eq_ok_iff] at hu
        rw [if_pos (hpoint u hu)] at hsame
        obtain rfl := Except.ok.inj hsame
        rw [hu, mul_assoc]
        push_cast
        rfl
      · intro ht
        have ht' : (t.elapsed : ℤ) = start.elapsed + ((k : ℤ) + 1) * seconds * 1000000 := by
          rw [ht, mul_assoc]
          push_cast
          rfl
        refine ⟨t, checkedPlus_eq_ok_iff.mpr ht', ?_⟩
        rw [if_pos (hpoint t ht')]
        rfl

/-! ### One slot after the other -/

variable {trigger : Trigger}

/-- **The first slot is the first due moment from the later of the start and the present**, as far as
the search reaches. -/
theorem initialNextDueAt_eq_ok_iff {slot : Option String} (htrigger : trigger.IsOf zones spec)
    (hstart : StartsAt spec start) (henabled : spec.isEnabled = true) :
    initialNextDueAt zones reader spec now = .ok slot ↔ ∃ t, slot = some (iso t) ∧
      Instant.IsFirstFrom (trigger.IsSlot start) (lowerBound start now) t ∧
        trigger.Reaches (lowerBound start now) t := by
  have hanchor : startAnchor reader spec now = .ok start := hstart.startAnchor
  rw [initialNextDueAt, henabled]
  simp only [Bool.not_true, Bool.false_eq_true, if_false, hanchor, bind_eq_ok_iff,
    Except.ok.injEq, exists_eq_left']
  cases trigger with
  | cron zone fields =>
    have hkind : ¬ spec.triggerKind = "interval" := by
      rw [htrigger.1]
      decide
    have hlower : (if start.elapsed < now.elapsed then now else start).elapsed =
        lowerBound start now := by
      rw [lowerBound]
      split_ifs with h
      · exact (max_eq_right h.le).symm
      · exact (max_eq_left (Nat.le_of_not_lt h)).symm
    have hsearch := fun t => @initialSearch_eq_ok_iff zones spec start t zone fields
      (if start.elapsed < now.elapsed then now else start) htrigger
    simp only [hlower] at hsearch
    simp only [if_neg hkind, bind_eq_ok_iff, pure_eq_ok_iff] at hsearch ⊢
    constructor
    · rintro ⟨after, hafter, t, ht, rfl⟩
      exact ⟨t, rfl, (hsearch t).mp ⟨after, hafter, ht⟩⟩
    · rintro ⟨t, rfl, ht⟩
      obtain ⟨after, hafter, hnext⟩ := (hsearch t).mpr ht
      exact ⟨after, hafter, t, hnext, rfl⟩
  | interval seconds =>
    obtain ⟨hkind, hseconds, hpos, -⟩ := htrigger
    simp only [if_pos hkind, requiredInterval, hseconds, bind_eq_ok_iff,
      pure_eq_ok_iff, exists_eq_left', firstIntervalSlot_eq_ok_iff hpos, Trigger.Reaches,
      and_true]
    exact exists_congr fun t => and_comm.trans (and_congr_left' eq_comm)

theorem microsecond_eq_mod (t : Instant) : t.microsecond = t.elapsed % 1000000 := by
  have h := t.microsecond_lt
  rw [Instant.elapsed]
  omega

/-- Slots are whole seconds. -/
theorem Trigger.IsSlot.microsecond (hslot : trigger.IsSlot start t) (hstart : start.microsecond = 0) :
    t.microsecond = 0 := by
  cases trigger with
  | cron zone fields => exact hslot.1.microsecond
  | interval seconds =>
    obtain ⟨k, hk⟩ := hslot
    rw [microsecond_eq_mod] at hstart ⊢
    rw [← mul_assoc] at hk
    omega

theorem isFirstFrom_interval_succ_iff {s : Instant} (hseconds : 0 < seconds)
    (hs : (Trigger.interval seconds).IsSlot start s) :
    Instant.IsFirstFrom ((Trigger.interval seconds).IsSlot start) (s.elapsed + 1) t ↔
      (t.elapsed : ℤ) = s.elapsed + seconds * 1000000 := by
  obtain ⟨k, hk⟩ := hs
  have hstep : ((k + 1 : ℕ) : ℤ) * (seconds * 1000000) =
      (k : ℤ) * (seconds * 1000000) + seconds * 1000000 := by
    push_cast
    ring
  rw [@isFirstFrom_interval_iff start t seconds k (s.elapsed + 1) hseconds (by omega) (by omega)]
  omega

/-- **The slot behind a slot is the next due moment**, as far as the search reaches. -/
theorem nextDueAfterSlot_eq_ok_iff {s : Instant} {text : String} (htrigger : trigger.IsOf zones spec)
    (hs : trigger.IsSlot start s) (hstart : start.microsecond = 0) :
    nextDueAfterSlot zones reader spec (iso s) = .ok text ↔ ∃ t, text = iso t ∧
      Instant.IsFirstFrom (trigger.IsSlot start) (s.elapsed + 1) t ∧
        trigger.Reaches (s.elapsed + 1) t := by
  have hparse : parseScheduleTimestamp reader (iso s) "slotStart" = .ok s :=
    parseScheduleTimestamp_iso (hs.microsecond hstart)
  simp only [nextDueAfterSlot, hparse, bind_eq_ok_iff, Except.ok.injEq, exists_eq_left']
  cases trigger with
  | cron zone fields =>
    have hkind : ¬ spec.triggerKind = "interval" := by
      rw [htrigger.1]
      decide
    have hceil : Instant.ceilMinute (s.elapsed + 1) =
        s.minuteFloor.elapsed + Instant.minuteLength := by
      have hwhole := hs.1
      rw [Instant.minuteFloor_eq_self_iff.mpr hs.1, Instant.ceilMinute]
      simp only [Instant.IsWholeMinute, Instant.minuteLength] at hwhole ⊢
      omega
    have hbound : Instant.minElapsed < s.elapsed + 1 := Nat.lt_succ_of_le s.elapsed_bounds.1
    simp only [if_neg hkind, bind_eq_ok_iff, pure_eq_ok_iff]
    refine exists_congr fun t => and_comm.trans (and_congr eq_comm ?_)
    rw [@nextCronMatch_eq_ok_iff zones spec start t zone fields s _ htrigger hceil,
      isFirstFrom_ceilMinute, Trigger.Reaches, and_iff_right hbound]
  | interval seconds =>
    obtain ⟨hkind, hseconds, hpos, -⟩ := htrigger
    simp only [if_pos hkind, requiredInterval, hseconds, bind_eq_ok_iff,
      pure_eq_ok_iff, exists_eq_left', checkedPlus_eq_ok_iff,
      isFirstFrom_interval_succ_iff hpos hs, Trigger.Reaches, and_true]
    exact exists_congr fun t => and_comm.trans (and_congr_left' eq_comm)

end Specification

/-! ### The enumeration -/

/-- The slots are the due moments from a bound on, in order, as far as the searches reach: a slot is
computed if and only if there is a next due moment and the search for it gets there. -/
structure IsEnumeration (due : Instant → Prop) (bound : ℕ) (reaches : ℕ → Instant → Prop)
    (slots : ℕ → Checked (Option String)) : Prop where
  sound : ∀ n slot, slots n = .ok slot → ∃ t, slot = some (iso t) ∧ due t ∧ bound ≤ t.elapsed
  increasing : ∀ m n s t, m < n → slots m = .ok (some (iso s)) → slots n = .ok (some (iso t)) →
    due s → due t → s.elapsed < t.elapsed
  complete : ∀ n t, slots n = .ok (some (iso t)) → due t → ∀ u, due u → bound ≤ u.elapsed →
    u.elapsed ≤ t.elapsed → ∃ m ≤ n, slots m = .ok (some (iso u))
  first : (∃ slot, slots 0 = .ok slot) ↔
    ∃ t, Instant.IsFirstFrom due bound t ∧ reaches bound t
  next : ∀ n s, slots n = .ok (some (iso s)) → due s → ((∃ slot, slots (n + 1) = .ok slot) ↔
    ∃ t, Instant.IsFirstFrom due (s.elapsed + 1) t ∧ reaches (s.elapsed + 1) t)

section Enumeration

variable {due : Instant → Prop} {bound : ℕ} {reaches : ℕ → Instant → Prop}
  {slots : ℕ → Checked (Option String)}

/-- What one slot says of the next one. -/
structure Chain (due : Instant → Prop) (bound : ℕ) (reaches : ℕ → Instant → Prop)
    (slots : ℕ → Checked (Option String)) : Prop where
  text : ∀ s t, due s → due t → iso s = iso t → s = t
  zero : ∀ slot, slots 0 = .ok slot ↔ ∃ t, slot = some (iso t) ∧
    Instant.IsFirstFrom due bound t ∧ reaches bound t
  prior : ∀ n slot, slots (n + 1) = .ok slot → ∃ before, slots n = .ok before
  succ : ∀ n s slot, slots n = .ok (some (iso s)) → due s → (slots (n + 1) = .ok slot ↔
    ∃ t, slot = some (iso t) ∧ Instant.IsFirstFrom due (s.elapsed + 1) t ∧
      reaches (s.elapsed + 1) t)

theorem Chain.sound (h : Chain due bound reaches slots) (n : ℕ) {slot : Option String}
    (hslot : slots n = .ok slot) : ∃ t, slot = some (iso t) ∧ due t ∧ bound ≤ t.elapsed := by
  induction n generalizing slot with
  | zero =>
    obtain ⟨t, rfl, hfirst, -⟩ := (h.zero slot).mp hslot
    exact ⟨t, rfl, hfirst.holds, hfirst.le⟩
  | succ n ih =>
    obtain ⟨before, hbefore⟩ := h.prior n slot hslot
    obtain ⟨s, rfl, hs, hbound⟩ := ih hbefore
    obtain ⟨t, rfl, hfirst, -⟩ := (h.succ n s slot hbefore hs).mp hslot
    have hle := hfirst.le
    exact ⟨t, rfl, hfirst.holds, by omega⟩

/-- The slot before a slot, and that nothing is due between them. -/
theorem Chain.exists_prior (h : Chain due bound reaches slots) {n : ℕ} {t : Instant}
    (hslot : slots (n + 1) = .ok (some (iso t))) (ht : due t) :
    ∃ s, slots n = .ok (some (iso s)) ∧ due s ∧ Instant.IsFirstFrom due (s.elapsed + 1) t := by
  obtain ⟨before, hbefore⟩ := h.prior n _ hslot
  obtain ⟨s, rfl, hs, -⟩ := h.sound n hbefore
  obtain ⟨t', htext, hfirst, -⟩ := (h.succ n s _ hbefore hs).mp hslot
  rw [h.text t t' ht hfirst.holds (Option.some.inj htext)]
  exact ⟨s, hbefore, hs, hfirst⟩

theorem Chain.lt (h : Chain due bound reaches slots) {m n : ℕ} {s t : Instant} (hmn : m < n)
    (hm : slots m = .ok (some (iso s))) (hn : slots n = .ok (some (iso t))) (hs : due s)
    (ht : due t) : s.elapsed < t.elapsed := by
  induction n generalizing t with
  | zero => exact absurd hmn (Nat.not_lt_zero m)
  | succ n ih =>
    obtain ⟨r, hr, hdue, hfirst⟩ := h.exists_prior hn ht
    have hle : s.elapsed ≤ r.elapsed := by
      rcases (Nat.le_of_lt_succ hmn).eq_or_lt with rfl | hlt
      · rw [hm, Except.ok.injEq, Option.some.injEq] at hr
        rw [h.text s r hs hdue hr]
      · exact (ih hlt hr hdue).le
    exact Nat.lt_of_le_of_lt hle hfirst.le

theorem Chain.complete (h : Chain due bound reaches slots) {n : ℕ} {t u : Instant}
    (hn : slots n = .ok (some (iso t))) (ht : due t) (hu : due u) (hbound : bound ≤ u.elapsed)
    (hle : u.elapsed ≤ t.elapsed) : ∃ m ≤ n, slots m = .ok (some (iso u)) := by
  induction n generalizing t with
  | zero =>
    obtain ⟨t', htext, hfirst, -⟩ := (h.zero _).mp hn
    have heq := h.text t t' ht hfirst.holds (Option.some.inj htext)
    rw [← heq] at hfirst
    rw [Instant.elapsed_injective (Nat.le_antisymm hle (hfirst.first u hu hbound))]
    exact ⟨0, le_rfl, hn⟩
  | succ n ih =>
    obtain ⟨s, hs, hdue, hfirst⟩ := h.exists_prior hn ht
    rcases Nat.lt_or_ge s.elapsed u.elapsed with hlt | hge
    · rw [Instant.elapsed_injective (Nat.le_antisymm hle (hfirst.first u hu hlt))]
      exact ⟨n + 1, le_rfl, hn⟩
    · obtain ⟨m, hm, hslot⟩ := ih hs hdue hge
      exact ⟨m, Nat.le_succ_of_le hm, hslot⟩

/-- **A chain of next slots is an enumeration.** -/
theorem Chain.isEnumeration (h : Chain due bound reaches slots) :
    IsEnumeration due bound reaches slots where
  sound n _ hslot := h.sound n hslot
  increasing _ _ _ _ hmn hm hn hs ht := h.lt hmn hm hn hs ht
  complete _ _ hn ht _ hu hbound hle := h.complete hn ht hu hbound hle
  first := by
    constructor
    · rintro ⟨slot, hslot⟩
      obtain ⟨t, -, ht⟩ := (h.zero slot).mp hslot
      exact ⟨t, ht⟩
    · rintro ⟨t, ht⟩
      exact ⟨some (iso t), (h.zero _).mpr ⟨t, rfl, ht⟩⟩
  next n s hn hs := by
    constructor
    · rintro ⟨slot, hslot⟩
      obtain ⟨t, -, ht⟩ := (h.succ n s slot hn hs).mp hslot
      exact ⟨t, ht⟩
    · rintro ⟨t, ht⟩
      exact ⟨some (iso t), (h.succ n s _ hn hs).mpr ⟨t, rfl, ht⟩⟩

end Enumeration

/-! ### Accepted schedules -/

section Accepted

variable {env : Serialiser} {lower : String → String} {zones : String → Option Zone}
  {reader : IsoReader} {schedule : Mapping} {isEnabled : Bool} {created start now : Instant}
  {spec : PipelineScheduleSpec} {trigger : Trigger}

theorem exists_of_optionalStartAt {startAt : String}
    (h : optionalStartAt env reader schedule created = .ok startAt) :
    ∃ start : Instant, startAt = iso start ∧ start.microsecond = 0 := by
  have hiso : ∀ t : Instant, iso t = iso t.secondFloor := fun _ => rfl
  rw [optionalStartAt] at h
  split at h
  · exact ⟨created.secondFloor, (Except.ok.inj h).symm, rfl⟩
  · obtain ⟨t, -, ht⟩ := bind_eq_ok_iff.mp h
    exact ⟨t.secondFloor, (Except.ok.inj ht).symm.trans (hiso t), rfl⟩

theorem bounds_of_intervalSeconds {seconds : ℤ} (h : intervalSeconds env schedule = .ok seconds) :
    0 < seconds ∧ seconds ≤ maxIntervalSeconds := by
  have hbounded : ∀ {n m : ℤ}, 0 < n → boundedIntervalSeconds n = .ok m →
      0 < m ∧ m ≤ maxIntervalSeconds := by
    intro n m hpos hn
    simp only [boundedIntervalSeconds, bind_eq_ok_iff, rejectIf_eq_ok_iff,
      pure_eq_ok_iff] at hn
    obtain ⟨_, hle, rfl⟩ := hn
    exact ⟨hpos, not_lt.mp hle⟩
  rw [intervalSeconds] at h
  split at h
  · split at h
    · simp at h
    · obtain ⟨minutes, hminutes, h⟩ := bind_eq_ok_iff.mp h
      have hpos := (positiveInt_eq_ok_iff.mp hminutes).2
      exact hbounded (by omega) h
  · obtain ⟨n, hn, h⟩ := bind_eq_ok_iff.mp h
    exact hbounded (positiveInt_eq_ok_iff.mp hn).2 h

theorem eq_of_validated {other : PipelineScheduleSpec} (h : spec.validated = .ok other) :
    spec = other := by
  simp only [PipelineScheduleSpec.validated, bind_eq_ok_iff, pure_eq_ok_iff] at h
  obtain ⟨_, -, _, -, _, -, _, -, rfl⟩ := h
  rfl

/-- **An accepted schedule has a trigger and a start.** -/
theorem exists_trigger (h : normalizePipelineSchedule env lower zones reader schedule isEnabled
    created = .ok spec) : ∃ (trigger : Trigger) (start : Instant), trigger.IsOf zones spec ∧
      StartsAt spec start ∧ spec.isEnabled = isEnabled := by
  simp only [normalizePipelineSchedule, bind_eq_ok_iff] at h
  obtain ⟨_, -, zone, hzone, h⟩ := h
  have hzone' : zones (Text.strip (env.str (firstTrue schedule ["timezone"] (.str "UTC")))) =
      some zone := by
    rw [zoneOf] at hzone
    split at hzone
    · rename_i hfound
      rw [hfound, Except.ok.inj hzone]
    · simp at hzone
  simp only [timeScheduleSpec, bind_eq_ok_iff] at h
  obtain ⟨startAt, hstartAt, autoPause, -, h⟩ := h
  obtain ⟨start, rfl, hwhole⟩ := exists_of_optionalStartAt hstartAt
  split_ifs at h with hkind
  · obtain ⟨fields, hfields, h⟩ := bind_eq_ok_iff.mp h
    obtain rfl := eq_of_validated h
    exact ⟨.cron zone fields, start, ⟨rfl, hzone', hfields⟩, ⟨rfl, hwhole⟩, rfl⟩
  · obtain ⟨seconds, hseconds, h⟩ := bind_eq_ok_iff.mp h
    obtain rfl := eq_of_validated h
    exact ⟨.interval seconds, start, ⟨rfl, rfl, bounds_of_intervalSeconds hseconds⟩,
      ⟨rfl, hwhole⟩, rfl⟩

/-- Slot by slot, the slots of a schedule are a chain. -/
theorem chain_slots (htrigger : trigger.IsOf zones spec) (hstart : StartsAt spec start)
    (henabled : spec.isEnabled = true) :
    Chain (trigger.IsSlot start) (lowerBound start now) (fun bound => trigger.Reaches bound)
      (slots zones reader spec now) where
  text s t hs ht heq := by
    have h := iso_injective heq
    rwa [Instant.secondFloor_of_microsecond (hs.microsecond hstart.whole),
      Instant.secondFloor_of_microsecond (ht.microsecond hstart.whole)] at h
  zero slot := initialNextDueAt_eq_ok_iff htrigger hstart henabled
  prior n slot hslot := by
    obtain ⟨before, hbefore, -⟩ := bind_eq_ok_iff.mp hslot
    exact ⟨before, hbefore⟩
  succ n s slot hn hs := by
    simp only [slots, hn, bind_eq_ok_iff, Except.ok.injEq, exists_eq_left',
      map_eq_ok_iff, nextDueAfterSlot_eq_ok_iff htrigger hs hstart.whole]
    constructor
    · rintro ⟨text, ⟨t, rfl, ht⟩, rfl⟩
      exact ⟨t, rfl, ht⟩
    · rintro ⟨t, rfl, ht⟩
      exact ⟨iso t, ⟨t, rfl, ht⟩, rfl⟩

/-- **The slots of an accepted schedule are its due moments in order**, as far as the searches reach,
and a schedule that is not enabled has none. -/
theorem slots_spec (h : normalizePipelineSchedule env lower zones reader schedule isEnabled
    created = .ok spec) : ∃ (trigger : Trigger) (start : Instant), trigger.IsOf zones spec ∧
      StartsAt spec start ∧ ∀ now,
        (isEnabled = true → IsEnumeration (trigger.IsSlot start) (lowerBound start now)
          (fun bound => trigger.Reaches bound) (slots zones reader spec now)) ∧
        (isEnabled = false → ∀ n, slots zones reader spec now n = .ok none) := by
  obtain ⟨trigger, start, htrigger, hstart, rfl⟩ := exists_trigger h
  refine ⟨trigger, start, htrigger, hstart, fun now => ⟨fun henabled =>
    (chain_slots htrigger hstart henabled).isEnumeration, fun hdisabled n => ?_⟩⟩
  induction n with
  | zero =>
    rw [slots, initialNextDueAt, hdisabled]
    rfl
  | succ n ih =>
    rw [slots, ih]
    rfl

end Accepted

/-! ### A schedule in UTC -/

def utc : String → Option Zone
  | "UTC" => some fun _ => 0
  | _ => none

def newYear : Instant := .midnight 2026 1 1 Minute.year2026 Minute.january Minute.day2026

def firstMinute : Instant := .midnight 1 1 1 Minute.firstYear Minute.january Minute.firstDay

def cronSpec (expression startAt : String) : PipelineScheduleSpec :=
  { triggerKind := "cron", timezone := "UTC", cronExpression := some expression,
    startAt := some startAt }

/-- Half an hour after midnight, every day. -/
theorem slots_halfPastMidnight :
    ∃ (trigger : Trigger) (start : Instant), trigger.IsOf utc
        (cronSpec "30 0 * * *" "2026-01-01T00:00:00Z") ∧
      IsEnumeration (trigger.IsSlot start) (lowerBound start newYear)
        (fun bound => trigger.Reaches bound)
        (slots utc isoformatReader (cronSpec "30 0 * * *" "2026-01-01T00:00:00Z") newYear) := by
  have hspec : normalizePipelineSchedule noTexts id utc isoformatReader
      [("type", .str "cron"), ("cron", .str "30 0 * * *")] true newYear =
        .ok (cronSpec "30 0 * * *" "2026-01-01T00:00:00Z") := by decide +kernel
  obtain ⟨trigger, start, htrigger, -, hslots⟩ := slots_spec hspec
  exact ⟨trigger, start, htrigger, (hslots newYear).1 rfl⟩

/-- Every minute is due, and the first minute of the calendar is the next one, but the search for it
begins a minute earlier. -/
theorem initialNextDueAt_firstMinute :
    normalizePipelineSchedule noTexts id utc isoformatReader
        [("type", .str "cron"), ("cron", .str "* * * * *")] true firstMinute =
      .ok (cronSpec "* * * * *" "0001-01-01T00:00:00Z") ∧
    initialNextDueAt utc isoformatReader (cronSpec "* * * * *" "0001-01-01T00:00:00Z") firstMinute =
      .error (libraryError "date value out of range") ∧
    ∃ fields, cronFields "* * * * *" = .ok fields ∧ Instant.IsFirstFrom
      ((Trigger.cron (fun _ => 0) fields).IsSlot firstMinute) (lowerBound firstMinute firstMinute)
      firstMinute := by
  refine ⟨by decide +kernel, by decide +kernel, ?_⟩
  obtain ⟨fields, hfields⟩ : ∃ fields, cronFields "* * * * *" = .ok fields := by
    have hok : (cronFields "* * * * *").toOption.isSome = true := by decide +kernel
    cases h : cronFields "* * * * *" with
    | error e => simp [h, Except.toOption] at hok
    | ok fields => exact ⟨fields, rfl⟩
  have hmatch : ∀ f, cronFields "* * * * *" = .ok f →
      cronMatches firstMinute.toMinute f = true := by
    have hall : ((cronFields "* * * * *").toOption.all
        (cronMatches firstMinute.toMinute)) = true := by decide +kernel
    intro f hf
    rwa [hf] at hall
  have hlower : lowerBound firstMinute firstMinute = firstMinute.elapsed := max_self _
  have hself : firstMinute.plus 0 = some firstMinute :=
    Instant.plus_eq_some_iff.mpr (add_zero _).symm
  refine ⟨fields, hfields, ⟨?_, firstMinute, hself, hmatch fields hfields⟩, hlower.le, ?_⟩
  · decide +kernel
  · intro u _ hle
    exact hlower.ge.trans hle

end PipelineScheduler

end FoundryLite.Schedules
