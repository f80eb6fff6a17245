import FoundryLite.Library.Timestamp

/-!
# The clock of the leases

Leases are kept as texts, and the predicates that fence their holders compare the texts. Every clock
helper writes a moment in UTC as `isoformat` does, with `Z` for the offset.

`isoformat` leaves the fraction out where there is none, and `Z` comes behind the point in the order
of characters. So a whole second is taken for later than any fraction of it, and the order of texts is
that of the moments exactly where this is not at stake. A helper beside these writes six digits always,
and its texts are in order.

## Main results

* `cmp_timestamp_utcNow_iff`: the texts compare as the moments do, unless the moments share a second
  and one of them is whole.
* `cmp_timestampText`: with six digits always they do.
-/

namespace FoundryLite.LeaseClock

open Calendar

/-! ### The helpers -/

/-- `.replace("+00:00", "Z")`. -/
def zForm (iso : List Char) : String :=
  String.ofList (Text.replace "+00:00".toList "Z".toList iso)

/-- `_utc_now` and `utc_now`, at a given time. -/
def utcNow (now : Instant) : String := zForm now.isoformat

/-- `_timestamp`, of a moment in UTC. -/
def timestamp (value : Instant) : String := zForm value.isoformat

/-- `_timestamp_text` of the previews. -/
def timestampText (value : Instant) : String := zForm value.isoformatMicroseconds

/-- The lease condition of `_can_takeover`. -/
def isTakenOver (leaseExpiresAt claimedAt : String) : Bool := leaseExpiresAt ≤ claimedAt

/-! ### The order of the texts -/

theorem cmp_ofList (l m : List Char) : cmp (String.ofList l) (String.ofList m) = cmp l m := by
  simp only [cmp, cmpUsing, String.lt_iff_toList_lt, String.toList_ofList]

theorem zForm_append {before : List Char} (h : '+' ∉ before) :
    zForm (before ++ "+00:00".toList) = String.ofList (before ++ ['Z']) :=
  congrArg String.ofList (Text.replace_append_self h)

/-- What stands behind the second. -/
def fraction (t : Instant) : List Char :=
  if t.microsecond = 0 then ['Z'] else '.' :: (padded 6 t.microsecond ++ ['Z'])

theorem timestamp_eq (t : Instant) : timestamp t = String.ofList (t.clock ++ fraction t) := by
  have hplus : '+' ∉ t.clock ++ (if t.microsecond = 0 then [] else '.' :: padded 6 t.microsecond) := by
    split_ifs <;> simp [Instant.plus_notMem_clock, plus_notMem_padded]
  rw [timestamp, Instant.isoformat, zForm_append hplus, fraction]
  split_ifs <;> simp

theorem timestampText_eq (t : Instant) :
    timestampText t = String.ofList (t.clock ++ ('.' :: (padded 6 t.microsecond ++ ['Z']))) := by
  have hplus : '+' ∉ t.clock ++ '.' :: padded 6 t.microsecond := by
    simp [Instant.plus_notMem_clock, plus_notMem_padded]
  rw [timestampText, Instant.isoformatMicroseconds, zForm_append hplus, List.append_assoc,
    List.cons_append]

theorem cmp_digits (s t : Instant) :
    cmp ('.' :: (padded 6 s.microsecond ++ ['Z'])) ('.' :: (padded 6 t.microsecond ++ ['Z']))
      = cmp s.microsecond t.microsecond := by
  rw [cmp_cons_cons, cmp_append (by simp), cmp_padded s.microsecond_lt t.microsecond_lt,
    cmp_self_eq_eq, cmp_cons_cons, cmp_self_eq_eq, cmp_nil_nil]
  cases cmp s.microsecond t.microsecond <;> rfl

/-- **With six digits always, the texts compare as the moments do.** -/
theorem cmp_timestampText (s t : Instant) :
    cmp (timestampText s) (timestampText t) = cmp s.elapsed t.elapsed := by
  rw [timestampText_eq, timestampText_eq, cmp_ofList,
    cmp_append ((Instant.length_clock s).trans (Instant.length_clock t).symm), Instant.cmp_clock,
    cmp_digits, Instant.cmp_elapsed]

/-- A whole second is written behind every fraction. -/
theorem cmp_fraction (s t : Instant) : cmp (fraction s) (fraction t)
    = cmp s.microsecond t.microsecond ↔ (s.microsecond = 0 ↔ t.microsecond = 0) := by
  by_cases hs : s.microsecond = 0 <;> by_cases ht : t.microsecond = 0
  · simp [fraction, hs, ht, cmp_cons_cons, cmp_nil_nil]
  · have hlt : cmp s.microsecond t.microsecond = .lt :=
      (cmp_eq_lt_iff _ _).mpr (hs ▸ Nat.pos_of_ne_zero ht)
    rw [hlt, fraction, fraction, if_pos hs, if_neg ht, cmp_cons_cons]
    simp [hs, ht, show cmp 'Z' '.' = .gt by decide]
  · have hgt : cmp s.microsecond t.microsecond = .gt :=
      (cmp_eq_gt_iff _ _).mpr (ht ▸ Nat.pos_of_ne_zero hs)
    rw [hgt, fraction, fraction, if_neg hs, if_pos ht, cmp_cons_cons]
    simp [hs, ht, show cmp '.' 'Z' = .lt by decide]
  · rw [fraction, fraction, if_neg hs, if_neg ht, cmp_digits]
    simp [hs, ht]

/-- **The texts of a lease and of a clock reading compare as the moments do** exactly when the moments
do not share a second of which one of them is the whole. -/
theorem cmp_timestamp_utcNow_iff (s t : Instant) :
    cmp (timestamp s) (utcNow t) = cmp s.elapsed t.elapsed ↔
      (s.seconds = t.seconds → (s.microsecond = 0 ↔ t.microsecond = 0)) := by
  have htext : cmp (timestamp s) (utcNow t)
      = (Instant.cmpFields s t).then (cmp (fraction s) (fraction t)) := by
    change cmp (timestamp s) (timestamp t) = _
    rw [timestamp_eq, timestamp_eq, cmp_ofList,
      cmp_append ((Instant.length_clock s).trans (Instant.length_clock t).symm), Instant.cmp_clock]
  rw [htext, Instant.cmp_elapsed, ← Instant.cmp_seconds]
  rcases lt_trichotomy s.seconds t.seconds with hlt | heq | hgt
  · simp [(cmp_eq_lt_iff _ _).mpr hlt, hlt.ne]
  · rw [heq, cmp_self_eq_eq]
    simp only [Ordering.then, forall_const]
    exact cmp_fraction s t
  · simp [(cmp_eq_gt_iff _ _).mpr hgt, hgt.ne']

/-! ### A live lease taken over -/

/-- Five seconds past noon. -/
def fivePast : Instant where
  year := 2024
  month := 1
  day := 1
  hour := 12
  minute := 0
  second := 5
  microsecond := 0
  year_bounds := by decide
  month_bounds := by decide
  day_bounds := by decide
  hour_lt := by decide
  minute_lt := Minute.minute0
  second_lt := by decide
  microsecond_lt := Instant.microsecond0

/-- Half a second later. -/
def halfPast : Instant := { fivePast with
  microsecond := 500000
  microsecond_lt := by decide }

/-- **A live lease is seen as expired**: it runs for half a second more, and is taken over. -/
theorem live_lease_isTakenOver :
    timestamp halfPast = "2024-01-01T12:00:05.500000Z" ∧
      utcNow fivePast = "2024-01-01T12:00:05Z" ∧
      fivePast.elapsed < halfPast.elapsed ∧
      isTakenOver (timestamp halfPast) (utcNow fivePast) = true ∧
      cmp (timestamp halfPast) (utcNow fivePast) ≠ cmp halfPast.elapsed fivePast.elapsed := by
  decide

end FoundryLite.LeaseClock
