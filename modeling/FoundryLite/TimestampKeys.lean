import FoundryLite.Library.Ordinals
import FoundryLite.Runtime.LeaseClock
import FoundryLite.ScalarValues

/-!
# Timestamps and their microsecond keys

A timestamp of a property is kept in the index as its microseconds from the Unix epoch, and read back
from there as text in UTC. The key is taken over the moment in UTC, which `astimezone` finds: the
clock reads a date of the years 1 to 9999 at its own offset, and the same moment can lie outside
these years in UTC. `astimezone` overflows there. The way back guards its own overflow.

## Main results

* `timestampMicroseconds_spec`: the keys are total and faithful exactly on the timestamps whose moment
  lies in the years 1 to 9999 of UTC.
-/

namespace FoundryLite.TimestampKeys

open Calendar ScalarValues

/-! ### The timestamps -/

/-- A date and a time of day with an offset from UTC, in minutes. -/
structure AwareTimestamp where
  wall : Instant
  offset : ℤ
  offset_bounds : -1440 < offset ∧ offset < 1440

/-- The clock on a date, that many microseconds into the day. -/
def wallClock (date : ℕ × ℕ × ℕ) (micros : ℕ) : Option Instant :=
  if h : (1 ≤ date.1 ∧ date.1 ≤ 9999) ∧ (1 ≤ date.2.1 ∧ date.2.1 ≤ 12) ∧
      (1 ≤ date.2.2 ∧ date.2.2 ≤ daysInMonth date.1 date.2.1) ∧ micros < Instant.dayLength then
    some
      { year := date.1
        month := date.2.1
        day := date.2.2
        hour := micros / 3600000000
        minute := micros / 60000000 % 60
        second := micros / 1000000 % 60
        microsecond := micros % 1000000
        year_bounds := h.1
        month_bounds := h.2.1
        day_bounds := h.2.2.1
        hour_lt := Nat.div_lt_of_lt_mul h.2.2.2
        minute_lt := Nat.mod_lt _ (by decide)
        second_lt := Nat.mod_lt _ (by decide)
        microsecond_lt := Nat.mod_lt _ (by decide) }
  else none

def awareTimestamp (wall : Instant) (offset : ℤ) : Option AwareTimestamp :=
  if h : -1440 < offset ∧ offset < 1440 then some ⟨wall, offset, h⟩ else none

/-- `parse_aware_timestamp`. -/
def parseAwareTimestamp : Json → Option AwareTimestamp
  | .str text => do
    let (date, rest) := text.toList.splitAt 10
    let date ← dateNumeral date
    match rest with
    | [] => none
    | separator :: rest =>
      if separator = 'T' ∨ separator = 't' then do
        let clock := rest.takeWhile fun c => c ≠ 'Z' ∧ c ≠ '+' ∧ c ≠ '-'
        let micros ← timeOfDay clock
        let offset ← offsetMinutes (rest.drop clock.length)
        let wall ← wallClock date micros
        awareTimestamp wall offset
      else none
  | _ => none

/-- `is_iso_timestamp`. -/
def isIsoTimestamp (value : Json) : Bool := (parseAwareTimestamp value).isSome

/-! ### The keys -/

/-- `OverflowError: date value out of range`. -/
inductive OverflowError where
  | dateValueOutOfRange
  deriving DecidableEq

/-- `astimezone(UTC)`. -/
def AwareTimestamp.astimezone (t : AwareTimestamp) : Except OverflowError Instant :=
  match t.wall.plus (-t.offset * 60000000) with
  | some utc => .ok utc
  | none => .error .dateValueOutOfRange

/-- `_UNIX_EPOCH`. -/
def unixEpoch : Instant where
  year := 1970
  month := 1
  day := 1
  hour := 0
  minute := 0
  second := 0
  microsecond := 0
  year_bounds := by decide
  month_bounds := Minute.january
  day_bounds := by decide
  hour_lt := Minute.hour0
  minute_lt := Minute.minute0
  second_lt := Minute.minute0
  microsecond_lt := Instant.microsecond0

/-- A duration as `timedelta` keeps it: only the days can be negative. -/
structure Timedelta where
  days : ℤ
  seconds : ℕ
  microseconds : ℕ

/-- The difference of two moments. -/
def Timedelta.between (later earlier : Instant) : Timedelta :=
  let delta : ℤ := later.elapsed - earlier.elapsed
  { days := delta / Instant.dayLength
    seconds := (delta % Instant.dayLength / 1000000).toNat
    microseconds := (delta % 1000000).toNat }

/-- `timestamp_microseconds`. -/
def timestampMicroseconds (value : Json) : Except OverflowError (Option ℤ) :=
  match parseAwareTimestamp value with
  | none => .ok none
  | some parsed => do
    let utc ← parsed.astimezone
    let delta := Timedelta.between utc unixEpoch
    return some ((delta.days * 86400 + delta.seconds) * 1000000 + delta.microseconds)

/-- `timestamp_from_microseconds`. A `timedelta` out of range is out of the range of dates too. -/
def timestampFromMicroseconds : Json → Option String
  | .int value => (unixEpoch.plus value).map fun parsed => LeaseClock.zForm parsed.isoformat
  | _ => none

/-- Nothing is lost in the parts of a duration. -/
theorem Timedelta.total_between (later earlier : Instant) :
    ((between later earlier).days * 86400 + (between later earlier).seconds) * 1000000 +
      (between later earlier).microseconds = (later.elapsed : ℤ) - earlier.elapsed := by
  simp only [between, Instant.dayLength]
  omega

/-! ### Reading the text of a moment -/

theorem isDigit_digitChar : ∀ n < 10, (Nat.digitChar n).isDigit = true := by decide

theorem toNat_digitChar_sub : ∀ n < 10, (Nat.digitChar n).toNat - '0'.toNat = n := by decide

theorem isDigit_of_mem_padded {width n : ℕ} {c : Char} (hc : c ∈ padded width n) :
    c.isDigit = true := by
  induction width generalizing n with
  | zero => cases hc
  | succ width ih =>
    rw [padded, List.mem_append, List.mem_singleton] at hc
    rcases hc with hc | rfl
    · exact ih hc
    · exact isDigit_digitChar _ (Nat.mod_lt _ (by decide))

/-- No separator stands among digits. -/
theorem notMem_padded {width n : ℕ} {c : Char} (hc : c.isDigit = false) : c ∉ padded width n := by
  intro hmem
  rw [isDigit_of_mem_padded hmem] at hc
  cases hc

theorem ofDigits_padded {width n : ℕ} (hn : n < 10 ^ width) :
    Nat.ofDigits 10 ((padded width n).map fun c => c.toNat - '0'.toNat).reverse = n := by
  induction width generalizing n with
  | zero =>
    rw [Nat.pow_zero, Nat.lt_one_iff] at hn
    rw [hn]
    rfl
  | succ width ih =>
    have hlt : n / 10 < 10 ^ width := Nat.div_lt_of_lt_mul (by rwa [← Nat.pow_succ'])
    rw [padded, List.map_append, List.reverse_append, List.map_singleton, List.reverse_singleton,
      List.singleton_append, Nat.ofDigits_cons, ih hlt,
      toNat_digitChar_sub _ (Nat.mod_lt _ (by decide)), Nat.mod_add_div]

theorem digitsOf_padded {width n : ℕ} (hwidth : width ≠ 0) (hn : n < 10 ^ width) :
    digitsOf (padded width n) = some n := by
  have hne : padded width n ≠ [] := by
    intro h
    exact hwidth ((length_padded width n).symm.trans (by rw [h]; rfl))
  have hall : (padded width n).all Char.isDigit = true :=
    List.all_eq_true.mpr fun _ hc => isDigit_of_mem_padded hc
  rw [digitsOf, if_pos ⟨hne, hall⟩, ofDigits_padded hn]

theorem fixedDigits_padded {width n : ℕ} (hwidth : width ≠ 0) (hn : n < 10 ^ width) :
    fixedDigits width (padded width n) = some n := by
  rw [fixedDigits, if_pos (length_padded width n), digitsOf_padded hwidth hn]

/-- Three fields between two separators. -/
theorem splitOn_three {sep : Char} {a b c : List Char} (ha : sep ∉ a) (hb : sep ∉ b)
    (hc : sep ∉ c) : (a ++ sep :: (b ++ sep :: c)).splitOn sep = [a, b, c] := by
  have hjoin : a ++ sep :: (b ++ sep :: c) = [sep].intercalate [a, b, c] := by
    simp [List.intercalate]
  rw [hjoin, List.splitOn_intercalate]
  · intro l hl
    simp only [List.mem_cons, List.not_mem_nil, or_false] at hl
    rcases hl with rfl | rfl | rfl <;> assumption
  · exact List.cons_ne_nil _ _

/-- The bounds that make the fields fit into their digits. -/
theorem field_lt (t : Instant) : t.year < 10 ^ 4 ∧ t.month < 10 ^ 2 ∧ t.day < 10 ^ 2 ∧
    t.hour < 10 ^ 2 ∧ t.minute < 10 ^ 2 ∧ t.second < 10 ^ 2 ∧ t.microsecond < 10 ^ 6 := by
  have hyear := t.year_bounds
  have hmonth := t.month_bounds
  have hday : t.day ≤ 31 := by
    have hle := t.day_bounds.2
    unfold daysInMonth at hle
    split_ifs at hle <;> omega
  have hhour := t.hour_lt
  have hminute := t.minute_lt
  have hsecond := t.second_lt
  have hmicrosecond := t.microsecond_lt
  omega

/-- The date of a moment, as its text has it. -/
def dateText (t : Instant) : List Char :=
  padded 4 t.year ++ '-' :: (padded 2 t.month ++ '-' :: padded 2 t.day)

/-- The time of day of a moment, up to the second. -/
def secondText (t : Instant) : List Char :=
  padded 2 t.hour ++ ':' :: (padded 2 t.minute ++ ':' :: padded 2 t.second)

/-- The fraction of the second, where there is one. -/
def fractionText (t : Instant) : List Char :=
  if t.microsecond = 0 then [] else '.' :: padded 6 t.microsecond

theorem timestamp_toList (t : Instant) : (LeaseClock.timestamp t).toList =
    dateText t ++ 'T' :: (secondText t ++ fractionText t ++ ['Z']) := by
  rw [LeaseClock.timestamp_eq, String.toList_ofList, LeaseClock.fraction, Instant.clock, dateText,
    secondText, fractionText]
  split_ifs <;> simp

theorem dateNumeral_dateText (t : Instant) :
    dateNumeral (dateText t) = some (t.year, t.month, t.day) := by
  obtain ⟨hyear, hmonth, hday, -⟩ := field_lt t
  have hdate : 1 ≤ t.year ∧ 1 ≤ t.month ∧ t.month ≤ 12 ∧ 1 ≤ t.day ∧
      t.day ≤ daysInMonth t.year t.month :=
    ⟨t.year_bounds.1, t.month_bounds.1, t.month_bounds.2, t.day_bounds⟩
  have hsplit : (dateText t).splitOn '-' =
      [padded 4 t.year, padded 2 t.month, padded 2 t.day] :=
    splitOn_three (notMem_padded rfl) (notMem_padded rfl) (notMem_padded rfl)
  simp [dateNumeral, hsplit, dateOf, fixedDigits_padded four_ne_zero hyear,
    fixedDigits_padded two_ne_zero hmonth, fixedDigits_padded two_ne_zero hday, hdate]

theorem notMem_secondText {t : Instant} {c : Char} (hc : c.isDigit = false) (hcolon : c ≠ ':') :
    c ∉ secondText t := by
  simp [secondText, notMem_padded hc, hcolon]

/-- The microseconds into the day. -/
def microsOfDay (t : Instant) : ℕ :=
  ((t.hour * 60 + t.minute) * 60 + t.second) * 1000000 + t.microsecond

theorem partition_timeText (t : Instant) : Text.partition '.' (secondText t ++ fractionText t) =
    (secondText t, if t.microsecond = 0 then none else some (padded 6 t.microsecond)) := by
  have hpoint : ∀ c ∈ secondText t, (c != '.') = true := by
    intro c hc
    rw [bne_iff_ne]
    rintro rfl
    exact notMem_secondText rfl (by decide) hc
  rw [Text.partition, List.takeWhile_append_of_pos hpoint, List.dropWhile_append_of_pos hpoint,
    fractionText]
  split_ifs <;> simp

theorem timeOfDay_timeText (t : Instant) :
    timeOfDay (secondText t ++ fractionText t) = some (microsOfDay t) := by
  obtain ⟨-, -, -, hhour, hminute, hsecond, hmicrosecond⟩ := field_lt t
  have hclock : t.hour < 24 ∧ t.minute < 60 ∧ t.second < 60 := ⟨t.hour_lt, t.minute_lt, t.second_lt⟩
  have hsplit : (secondText t).splitOn ':' =
      [padded 2 t.hour, padded 2 t.minute, padded 2 t.second] :=
    splitOn_three (notMem_padded rfl) (notMem_padded rfl) (notMem_padded rfl)
  have hh := fixedDigits_padded two_ne_zero hhour
  have hm := fixedDigits_padded two_ne_zero hminute
  have hs := fixedDigits_padded two_ne_zero hsecond
  have hmicros := digitsOf_padded (by decide) hmicrosecond
  rw [timeOfDay, partition_timeText]
  by_cases hzero : t.microsecond = 0
  · simp [hzero, hsplit, hh, hm, hs, hclock, microsOfDay]
  · simp [hzero, hsplit, hh, hm, hs, hclock, microsOfDay, hmicros]

/-- A valid date and time of day make a moment. -/
theorem exists_wallClock {date : ℕ × ℕ × ℕ} {micros : ℕ} (hyear : 1 ≤ date.1 ∧ date.1 ≤ 9999)
    (hmonth : 1 ≤ date.2.1 ∧ date.2.1 ≤ 12)
    (hday : 1 ≤ date.2.2 ∧ date.2.2 ≤ daysInMonth date.1 date.2.1)
    (hmicros : micros < Instant.dayLength) :
    ∃ wall, wallClock date micros = some wall ∧ wall.elapsed =
      (daysBeforeYear date.1 + daysBeforeMonth date.1 date.2.1 + date.2.2) * Instant.dayLength +
        micros := by
  rw [wallClock, dif_pos ⟨hyear, hmonth, hday, hmicros⟩]
  refine ⟨_, rfl, ?_⟩
  simp only [Instant.elapsed, Instant.seconds, Minute.toordinal, Instant.dayLength] at hmicros ⊢
  omega

theorem wallClock_microsOfDay (t : Instant) :
    wallClock (t.year, t.month, t.day) (microsOfDay t) = some t := by
  have hhour := t.hour_lt
  have hminute := t.minute_lt
  have hsecond := t.second_lt
  have hmicrosecond := t.microsecond_lt
  have hlt : microsOfDay t < Instant.dayLength := by
    simp only [microsOfDay, Instant.dayLength]
    omega
  obtain ⟨wall, hwall, helapsed⟩ :=
    @exists_wallClock (t.year, t.month, t.day) _ t.year_bounds t.month_bounds t.day_bounds hlt
  have heq : wall = t := by
    apply Instant.elapsed_injective
    rw [helapsed]
    simp only [Instant.elapsed, Instant.seconds, Minute.toordinal, microsOfDay, Instant.dayLength]
    ring
  rw [hwall, heq]

/-- **The text of a moment is read back as that moment.** -/
theorem parseAwareTimestamp_timestamp (t : Instant) :
    parseAwareTimestamp (.str (LeaseClock.timestamp t)) = some ⟨t, 0, by decide⟩ := by
  have hlength : (dateText t).length = 10 := by simp [dateText]
  have hclock : (secondText t ++ fractionText t ++ ['Z']).takeWhile
      (fun c => c ≠ 'Z' ∧ c ≠ '+' ∧ c ≠ '-') = secondText t ++ fractionText t := by
    rw [List.takeWhile_append_of_pos]
    · simp
    · intro c hc
      have hsep : ∀ d : Char, d.isDigit = false → d ≠ ':' → d ≠ '.' → c ≠ d := by
        rintro d hd hcolon hpoint rfl
        rcases List.mem_append.mp hc with hc | hc
        · exact notMem_secondText hd hcolon hc
        · rw [fractionText] at hc
          split_ifs at hc
          · cases hc
          · rcases List.mem_cons.mp hc with rfl | hc
            · exact hpoint rfl
            · exact notMem_padded hd hc
      simp [hsep 'Z' rfl (by decide) (by decide), hsep '+' rfl (by decide) (by decide),
        hsep '-' rfl (by decide) (by decide)]
  have hsplit : (LeaseClock.timestamp t).toList.splitAt 10 =
      (dateText t, 'T' :: (secondText t ++ fractionText t ++ ['Z'])) := by
    rw [timestamp_toList, List.splitAt_eq, ← hlength, List.take_left, List.drop_left]
  simp only [parseAwareTimestamp, hsplit, dateNumeral_dateText, Option.bind_eq_bind,
    Option.bind_some, true_or, if_true, hclock, timeOfDay_timeText, List.drop_left]
  simp [offsetMinutes, wallClock_microsOfDay, awareTimestamp]

/-! ### The moments of timestamps -/

namespace AwareTimestamp

/-- The moment a timestamp denotes, in microseconds of UTC. -/
def moment (t : AwareTimestamp) : ℤ := t.wall.elapsed - t.offset * 60000000

/-- The moment lies in the years 1 to 9999 of UTC. -/
def IsRepresentable (t : AwareTimestamp) : Prop :=
  Instant.minElapsed ≤ t.moment ∧ t.moment < Instant.endElapsed

instance instDecidableIsRepresentable (t : AwareTimestamp) : Decidable t.IsRepresentable :=
  inferInstanceAs (Decidable (_ ∧ _))

theorem astimezone_eq_ok_iff {t : AwareTimestamp} {utc : Instant} :
    t.astimezone = .ok utc ↔ (utc.elapsed : ℤ) = t.moment := by
  have hmoment : t.moment = t.wall.elapsed + -t.offset * 60000000 := by
    simp only [moment]
    omega
  rw [hmoment, ← Instant.plus_eq_some_iff, astimezone]
  cases t.wall.plus (-t.offset * 60000000) <;> simp

/-- **`astimezone` overflows on the timestamps that are not representable, and on no other.** -/
theorem exists_astimezone_iff {t : AwareTimestamp} :
    (∃ utc, t.astimezone = .ok utc) ↔ t.IsRepresentable := by
  simp only [astimezone_eq_ok_iff, ← Instant.ofElapsed_eq_some_iff]
  exact Instant.exists_ofElapsed_iff

end AwareTimestamp

/-- A key is the distance of the moment from the epoch. -/
theorem timestampMicroseconds_eq_ok_iff {value : Json} {t : AwareTimestamp} {key : ℤ}
    (ht : parseAwareTimestamp value = some t) : timestampMicroseconds value = .ok (some key) ↔
      ∃ utc : Instant, (utc.elapsed : ℤ) = t.moment ∧ key = utc.elapsed - unixEpoch.elapsed := by
  simp only [timestampMicroseconds, ht, ← AwareTimestamp.astimezone_eq_ok_iff,
    Timedelta.total_between]
  cases t.astimezone with
  | error e => simp [bind, Except.bind]
  | ok utc => simp [bind, Except.bind, pure, Except.pure, eq_comm]

/-- The text of a key is that of the moment at its distance from the epoch. -/
theorem timestampFromMicroseconds_eq_some_iff {key : ℤ} {text : String} :
    timestampFromMicroseconds (.int key) = some text ↔
      ∃ utc : Instant, key = utc.elapsed - unixEpoch.elapsed ∧ LeaseClock.timestamp utc = text := by
  simp only [timestampFromMicroseconds, Option.map_eq_some_iff, Instant.plus_eq_some_iff,
    LeaseClock.timestamp]
  refine exists_congr fun utc => and_congr_left fun _ => ?_
  omega

theorem key_timestamp (utc : Instant) :
    timestampMicroseconds (.str (LeaseClock.timestamp utc)) =
      .ok (some (utc.elapsed - unixEpoch.elapsed)) := by
  rw [timestampMicroseconds_eq_ok_iff (parseAwareTimestamp_timestamp utc)]
  exact ⟨utc, by simp [AwareTimestamp.moment], rfl⟩

/-- Read back from its key, a timestamp denotes the same moment. -/
def RoundTrips (value : Json) (t : AwareTimestamp) : Prop :=
  ∃ key text u, timestampMicroseconds value = .ok (some key) ∧
    timestampFromMicroseconds (.int key) = some text ∧
    parseAwareTimestamp (.str text) = some u ∧ u.moment = t.moment

theorem roundTrips_iff {value : Json} {t : AwareTimestamp} (ht : parseAwareTimestamp value = some t) :
    RoundTrips value t ↔ t.IsRepresentable := by
  rw [← AwareTimestamp.exists_astimezone_iff]
  simp only [AwareTimestamp.astimezone_eq_ok_iff]
  constructor
  · rintro ⟨key, text, u, hkey, -⟩
    obtain ⟨utc, hutc, -⟩ := (timestampMicroseconds_eq_ok_iff ht).mp hkey
    exact ⟨utc, hutc⟩
  · rintro ⟨utc, hutc⟩
    refine ⟨utc.elapsed - unixEpoch.elapsed, LeaseClock.timestamp utc, ⟨utc, 0, by decide⟩,
      (timestampMicroseconds_eq_ok_iff ht).mpr ⟨utc, hutc, rfl⟩,
      timestampFromMicroseconds_eq_some_iff.mpr ⟨utc, rfl, rfl⟩,
      parseAwareTimestamp_timestamp utc, ?_⟩
    rw [← hutc]
    simp [AwareTimestamp.moment]

/-- One moment of UTC compared with another, field by field from the year down. -/
def chronological (s t : Instant) : Ordering :=
  (Instant.cmpFields s t).then (cmp s.microsecond t.microsecond)

/-- **Keys are total and faithful exactly where the moment is a date of UTC.** Every number that has a
text is the key of that text, and keys are ordered as the moments are. -/
theorem timestampMicroseconds_spec {value : Json} {t : AwareTimestamp}
    (ht : parseAwareTimestamp value = some t) : (RoundTrips value t ↔ t.IsRepresentable) ∧
      (∀ key text, timestampFromMicroseconds (.int key) = some text →
        timestampMicroseconds (.str text) = .ok (some key)) ∧
      ∀ w u key other, parseAwareTimestamp w = some u →
        timestampMicroseconds value = .ok (some key) → timestampMicroseconds w = .ok (some other) →
          cmp key other = cmp t.moment u.moment ∧ ∃ s r : Instant, t.astimezone = .ok s ∧
            u.astimezone = .ok r ∧ cmp key other = chronological s r := by
  refine ⟨roundTrips_iff ht, ?_, ?_⟩
  · intro key text htext
    obtain ⟨utc, rfl, rfl⟩ := timestampFromMicroseconds_eq_some_iff.mp htext
    exact key_timestamp utc
  · intro w u key other hu hkey hother
    obtain ⟨s, hs, rfl⟩ := (timestampMicroseconds_eq_ok_iff ht).mp hkey
    obtain ⟨r, hr, rfl⟩ := (timestampMicroseconds_eq_ok_iff hu).mp hother
    have hcmp : cmp ((s.elapsed : ℤ) - unixEpoch.elapsed) (r.elapsed - unixEpoch.elapsed) =
        cmp (s.elapsed : ℤ) r.elapsed := by
      simp [cmp, cmpUsing]
    have hnat : cmp (s.elapsed : ℤ) r.elapsed = cmp s.elapsed r.elapsed := by
      simp [cmp, cmpUsing]
    refine ⟨by rw [hcmp, hs, hr], s, r, AwareTimestamp.astimezone_eq_ok_iff.mpr hs,
      AwareTimestamp.astimezone_eq_ok_iff.mpr hr, ?_⟩
    rw [hcmp, hnat, Instant.cmp_elapsed, chronological]

/-- A timestamp that is read, with a moment before the year 1. -/
theorem timestampMicroseconds_overflow :
    isIsoTimestamp (.str "0001-01-01T00:00:00+01:00") = true ∧
      timestampMicroseconds (.str "0001-01-01T00:00:00+01:00") = .error .dateValueOutOfRange := by
  decide +kernel

/-- A moment before the epoch, half a second away from a whole one. -/
theorem timestampMicroseconds_beforeEpoch :
    isIsoTimestamp (.str "1970-01-01T00:30:00.5+01:00") = true ∧
      ∀ t, parseAwareTimestamp (.str "1970-01-01T00:30:00.5+01:00") = some t →
        RoundTrips (.str "1970-01-01T00:30:00.5+01:00") t := by
  refine ⟨by decide +kernel, fun t ht => (timestampMicroseconds_spec ht).1.mpr ?_⟩
  have hall : (parseAwareTimestamp (.str "1970-01-01T00:30:00.5+01:00")).all
      (fun t => decide t.IsRepresentable) = true := by decide +kernel
  rw [ht] at hall
  exact of_decide_eq_true hall

/-! ### The key without the range of dates -/

theorem of_dateOf_eq_some {year month day : List Char} {date : ℕ × ℕ × ℕ}
    (h : dateOf year month day = some date) : 1 ≤ date.1 ∧ (1 ≤ date.2.1 ∧ date.2.1 ≤ 12) ∧
      (1 ≤ date.2.2 ∧ date.2.2 ≤ daysInMonth date.1 date.2.1) ∧ fixedDigits 4 year = some date.1 := by
  simp only [dateOf, Option.bind_eq_bind, Option.bind_eq_some_iff] at h
  obtain ⟨y, hy, m, -, d, -, h⟩ := h
  split_ifs at h with hvalid
  obtain rfl := Option.some.inj h
  exact ⟨hvalid.1, ⟨hvalid.2.1, hvalid.2.2.1⟩, hvalid.2.2.2, hy⟩

theorem digit_lt {c : Char} (hc : c.isDigit = true) : c.toNat - '0'.toNat < 10 := by
  simp only [Char.isDigit, Bool.and_eq_true, decide_eq_true_eq] at hc
  have hle : c.toNat ≤ '9'.toNat := hc.2
  have hnine : '9'.toNat = 57 := rfl
  have hzero : '0'.toNat = 48 := rfl
  omega

theorem digitsOf_lt {chars : List Char} {n : ℕ} (h : digitsOf chars = some n) :
    n < 10 ^ chars.length := by
  rw [digitsOf] at h
  split_ifs at h with hdigits
  obtain rfl := Option.some.inj h
  have hlt := @Nat.ofDigits_lt_base_pow_length 10
    (chars.map fun c => c.toNat - '0'.toNat).reverse (by decide) fun d hd => by
      obtain ⟨c, hc, rfl⟩ := List.mem_map.mp (List.mem_reverse.mp hd)
      exact digit_lt (List.all_eq_true.mp hdigits.2 c hc)
  simpa using hlt

theorem year_le_of_dateOf {year month day : List Char} {date : ℕ × ℕ × ℕ}
    (h : dateOf year month day = some date) : date.1 ≤ 9999 := by
  have hyear := (of_dateOf_eq_some h).2.2.2
  rw [fixedDigits] at hyear
  split_ifs at hyear with hlength
  have hlt := digitsOf_lt hyear
  rw [hlength] at hlt
  omega

/-- A fraction of up to six digits is less than a second. -/
theorem fraction_lt {digits : List Char} {n : ℕ} (hlength : digits.length ≤ 6)
    (h : digitsOf digits = some n) : n * 10 ^ (6 - digits.length) < 1000000 := by
  calc n * 10 ^ (6 - digits.length)
      < 10 ^ digits.length * 10 ^ (6 - digits.length) :=
        Nat.mul_lt_mul_of_pos_right (digitsOf_lt h) (Nat.pow_pos (by decide))
    _ = 10 ^ 6 := by rw [← pow_add, Nat.add_sub_cancel' hlength]
    _ = 1000000 := by norm_num

/-- Hours, minutes and seconds with a fraction stay within the day. -/
theorem clock_lt {fields : List (List Char)} {fraction micros : ℕ} (hfraction : fraction < 1000000)
    (h : (match fields with
      | [hours, minutes, seconds] =>
        (fixedDigits 2 hours).bind fun h => (fixedDigits 2 minutes).bind fun m =>
          (fixedDigits 2 seconds).bind fun s =>
            if h < 24 ∧ m < 60 ∧ s < 60 then some (((h * 60 + m) * 60 + s) * 1000000 + fraction)
            else none
      | _ => none) = some micros) : micros < Instant.dayLength := by
  split at h
  · simp only [Option.bind_eq_some_iff] at h
    obtain ⟨hour, -, minute, -, second, -, h⟩ := h
    split_ifs at h with hclock
    obtain rfl := Option.some.inj h
    simp only [Instant.dayLength]
    omega
  · cases h

theorem timeOfDay_lt {chars : List Char} {micros : ℕ} (h : timeOfDay chars = some micros) :
    micros < Instant.dayLength := by
  simp only [timeOfDay, Option.bind_eq_bind] at h
  split at h
  · exact clock_lt (by decide) h
  · split_ifs at h with hlength
    · obtain ⟨fraction, hfraction, h⟩ := Option.bind_eq_some_iff.mp h
      obtain ⟨n, hn, rfl⟩ := Option.map_eq_some_iff.mp hfraction
      exact clock_lt (fraction_lt hlength hn) h
    · cases h

/-- The hours and minutes of an offset, on either side. -/
theorem offset_bounds {sign : ℤ} {fields : List Char × Option (List Char)} {offset : ℤ}
    (hsign : sign = 1 ∨ sign = -1)
    (h : (match fields with
      | (hours, some minutes) =>
        (fixedDigits 2 hours).bind fun h => (fixedDigits 2 minutes).bind fun m =>
          if h * 60 + m < 1440 then some (sign * (h * 60 + m : ℕ)) else none
      | _ => none) = some offset) : -1440 < offset ∧ offset < 1440 := by
  split at h
  · simp only [Option.bind_eq_some_iff] at h
    obtain ⟨hours, -, minutes, -, h⟩ := h
    split_ifs at h with hlt
    obtain rfl := Option.some.inj h
    rcases hsign with rfl | rfl <;> omega
  · cases h

theorem offsetMinutes_bounds {chars : List Char} {offset : ℤ}
    (h : offsetMinutes chars = some offset) : -1440 < offset ∧ offset < 1440 := by
  rw [offsetMinutes.eq_def] at h
  split at h
  · obtain rfl := Option.some.inj h
    decide
  · simp only [Option.bind_eq_bind] at h
    split_ifs at h
    · exact offset_bounds (.inl rfl) h
    · exact offset_bounds (.inr rfl) h
    · cases h
  · cases h

theorem wallClock_of_dateNumeral {chars : List Char} {date : ℕ × ℕ × ℕ} {micros : ℕ}
    (hdate : dateNumeral chars = some date) (hmicros : micros < Instant.dayLength) :
    ∃ wall, wallClock date micros = some wall ∧ wall.elapsed =
      (daysBeforeYear date.1 + daysBeforeMonth date.1 date.2.1 + date.2.2) * Instant.dayLength +
        micros := by
  rw [dateNumeral] at hdate
  split at hdate
  · obtain ⟨hyear, hmonth, hday, -⟩ := of_dateOf_eq_some hdate
    exact exists_wallClock ⟨hyear, year_le_of_dateOf hdate⟩ hmonth hday hmicros
  · cases hdate

/-- The moment knows no overflow. -/
theorem timestampMoment_eq (value : Json) :
    timestampMoment value =
      (parseAwareTimestamp value).map fun t => t.moment - (unixEpoch.elapsed : ℤ) := by
  have hepoch : (unixEpoch.elapsed : ℤ) = ScalarValues.unixEpoch * 86400000000 := by decide +kernel
  cases value with
  | str text =>
    rw [timestampMoment, parseAwareTimestamp]
    simp only [Option.bind_eq_bind]
    cases hdate : dateNumeral (text.toList.splitAt 10).1 with
    | none => rfl
    | some date =>
      simp only [Option.bind_some]
      cases hrest : (text.toList.splitAt 10).2 with
      | nil => rfl
      | cons separator rest =>
        dsimp only
        split_ifs
        · cases hmicros : timeOfDay (rest.takeWhile fun c => c ≠ 'Z' ∧ c ≠ '+' ∧ c ≠ '-') with
          | none => rfl
          | some micros =>
            simp only [Option.bind_some]
            cases hoffset : offsetMinutes (rest.drop
                (rest.takeWhile fun c => c ≠ 'Z' ∧ c ≠ '+' ∧ c ≠ '-').length) with
            | none => rfl
            | some offset =>
              obtain ⟨wall, hwall, helapsed⟩ :=
                wallClock_of_dateNumeral hdate (timeOfDay_lt hmicros)
              simp only [Option.bind_some, hwall, awareTimestamp,
                dif_pos (offsetMinutes_bounds hoffset), Option.map_some, AwareTimestamp.moment,
                helapsed, hepoch, Instant.dayLength, Option.pure_def]
              congr 1
              push_cast
              ring
        · rfl
  | _ => rfl

/-- **The key overflows exactly on the timestamps that are not representable**, and is the moment
everywhere else. -/
theorem timestampMicroseconds_eq (value : Json) : timestampMicroseconds value =
    if (parseAwareTimestamp value).all (·.IsRepresentable) then
      .ok (timestampMoment value)
    else .error .dateValueOutOfRange := by
  rw [timestampMoment_eq]
  cases ht : parseAwareTimestamp value with
  | none => simp [timestampMicroseconds, ht]
  | some t =>
    have hiff := AwareTimestamp.exists_astimezone_iff (t := t)
    cases hutc : t.astimezone with
    | error e =>
      have hnot : ¬ t.IsRepresentable := fun h => by simpa [hutc] using hiff.mpr h
      simp [timestampMicroseconds, ht, hutc, hnot, bind, Except.bind]
    | ok utc =>
      rw [(timestampMicroseconds_eq_ok_iff ht).mpr
        ⟨utc, AwareTimestamp.astimezone_eq_ok_iff.mp hutc, rfl⟩]
      simp [hiff.mp ⟨utc, hutc⟩, AwareTimestamp.astimezone_eq_ok_iff.mp hutc]

end FoundryLite.TimestampKeys
