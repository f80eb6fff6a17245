import FoundryLite.Library.MinuteSearch
import FoundryLite.Serialiser
import FoundryLite.TimestampKeys

/-!
# Slots as texts

Both schedulers keep their slots as texts of whole seconds in UTC, and read them back with
`datetime.fromisoformat`, which reads many more texts than these. It is taken as it is documented:
what `isoformat` writes it reads back.
-/

namespace FoundryLite.Schedules

open Calendar

/-- `datetime.fromisoformat`: the clock and the offset from UTC in microseconds, where there is one. -/
structure IsoReader where
  fromisoformat : String → Option (Instant × Option ℤ)
  fromisoformat_isoformat : ∀ t : Instant,
    fromisoformat (String.ofList t.isoformat) = some (t, some 0)

/-- `_iso` of both schedulers. -/
def iso (t : Instant) : String := LeaseClock.zForm t.secondFloor.isoformat

/-- `.replace("Z", "+00:00")`. -/
def offsetForm (text : String) : String :=
  String.ofList (Text.replace ['Z'] "+00:00".toList text.toList)

/-- Arithmetic on datetimes, as an error of the library where it leaves the calendar. -/
def checkedPlus (t : Instant) (duration : ℤ) : Checked Instant :=
  match t.plus duration with
  | some sum => pure sum
  | none => throw (libraryError "date value out of range")

@[simp]
theorem checkedPlus_eq_ok_iff {t u : Instant} {duration : ℤ} :
    checkedPlus t duration = .ok u ↔ (u.elapsed : ℤ) = t.elapsed + duration := by
  rw [checkedPlus, ← Instant.plus_eq_some_iff]
  cases t.plus duration <;> simp

/-! ### Reading a slot back -/

theorem zed_notMem_clock (t : Instant) : 'Z' ∉ t.clock := by
  simp [Instant.clock, TimestampKeys.notMem_padded]

theorem isoformat_of_microsecond {t : Instant} (h : t.microsecond = 0) :
    t.isoformat = t.clock ++ "+00:00".toList := by
  rw [Instant.isoformat, if_pos h, List.append_nil]

theorem iso_eq (t : Instant) : iso t = String.ofList (t.secondFloor.clock ++ ['Z']) := by
  rw [iso, isoformat_of_microsecond t.microsecond_secondFloor,
    LeaseClock.zForm_append t.secondFloor.plus_notMem_clock]

theorem offsetForm_iso (t : Instant) :
    offsetForm (iso t) = String.ofList t.secondFloor.isoformat := by
  have hchars : (iso t).toList = t.secondFloor.clock ++ ['Z'] := by
    rw [iso_eq, String.toList_ofList]
  rw [offsetForm, hchars, isoformat_of_microsecond t.microsecond_secondFloor]
  exact congrArg String.ofList (Text.replace_append_self (zed_notMem_clock _))

/-- **A slot that is written is read back, to the second.** -/
theorem IsoReader.fromisoformat_iso (reader : IsoReader) (t : Instant) :
    reader.fromisoformat (offsetForm (iso t)) = some (t.secondFloor, some 0) := by
  rw [offsetForm_iso, reader.fromisoformat_isoformat]

theorem iso_injective {s t : Instant} (h : iso s = iso t) : s.secondFloor = t.secondFloor := by
  have hs := TimestampKeys.parseAwareTimestamp_timestamp s.secondFloor
  have ht := TimestampKeys.parseAwareTimestamp_timestamp t.secondFloor
  have heq : LeaseClock.timestamp s.secondFloor = LeaseClock.timestamp t.secondFloor := h
  rw [heq, ht, Option.some.injEq, TimestampKeys.AwareTimestamp.mk.injEq] at hs
  exact hs.1.symm

/-- A reader of the texts that `isoformat` writes, with their whole-minute offsets. -/
def isoformatReader : IsoReader where
  fromisoformat text :=
    (TimestampKeys.parseAwareTimestamp (.str (LeaseClock.zForm text.toList))).map fun t =>
      (t.wall, some (t.offset * 60000000))
  fromisoformat_isoformat t := by
    rw [String.toList_ofList]
    change Option.map _ (TimestampKeys.parseAwareTimestamp (.str (LeaseClock.timestamp t))) = _
    rw [TimestampKeys.parseAwareTimestamp_timestamp, Option.map_some, zero_mul]

/-- Text forms that are not asked for below. -/
def noTexts : Serialiser := ⟨fun _ => "", fun _ => ""⟩

/-! ### A slot has no space around it -/

theorem isSpace_of_isDigit {c : Char} (h : c.isDigit = true) : Text.isSpace c = false := by
  simp only [Char.isDigit, Bool.and_eq_true, decide_eq_true_eq] at h
  have hlow : '0'.toNat ≤ c.toNat := h.1
  have hhigh : c.toNat ≤ '9'.toNat := h.2
  have hzero : '0'.toNat = 48 := rfl
  have hnine : '9'.toNat = 57 := rfl
  simp only [Text.isSpace, Bool.or_eq_false_iff, Bool.and_eq_false_iff, decide_eq_false_iff_not,
    beq_eq_false_iff_ne]
  omega

theorem isSpace_of_mem_clock {t : Instant} {c : Char} (h : c ∈ t.clock) : Text.isSpace c = false := by
  simp only [Instant.clock, List.mem_append, List.mem_cons] at h
  have hdigit : ∀ {width n : ℕ}, c ∈ padded width n → Text.isSpace c = false :=
    fun hc => isSpace_of_isDigit (TimestampKeys.isDigit_of_mem_padded hc)
  rcases h with (((((h | h | h) | h | h) | h | h) | h | h) | h | h)
  all_goals first | exact hdigit h | (subst h; decide)

theorem strip_eq_self {chars : List Char} (h : ∀ c ∈ chars, Text.isSpace c = false) :
    Text.stripChars chars = chars := by
  have hdrop : chars.dropWhile Text.isSpace = chars := by
    cases chars with
    | nil => rfl
    | cons c chars => rw [List.dropWhile_cons_of_neg (by simp [h c List.mem_cons_self])]
  rw [Text.stripChars, hdrop, List.rdropWhile_eq_self_iff]
  intro hne
  simp [h _ (List.getLast_mem hne)]

theorem strip_iso (t : Instant) : Text.strip (iso t) = iso t := by
  have hchars : ∀ c ∈ t.secondFloor.clock ++ ['Z'], Text.isSpace c = false := by
    intro c hc
    rcases List.mem_append.mp hc with hc | hc
    · exact isSpace_of_mem_clock hc
    · rw [List.mem_singleton.mp hc]
      decide
  rw [iso_eq, Text.strip, String.toList_ofList, strip_eq_self hchars]

end FoundryLite.Schedules
