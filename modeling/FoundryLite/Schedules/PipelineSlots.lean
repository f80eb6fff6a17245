import FoundryLite.Schedules.Cron
import FoundryLite.Schedules.ElapsedSeconds
import FoundryLite.Schedules.SlotTexts

/-!
# The slots of a pipeline schedule

A deployed pipeline runs at the minutes of a cron expression, read in the time zone of the schedule,
or at a fixed interval from its start. The next slot is kept as a text. The first one is looked for
from the later of the start and the present, and each further one from the slot before it.

A slot of a cron schedule is a minute of UTC: the search goes from minute to minute there, and reads
the fields of the local time at each. So a minute that the local clock shows twice gives two slots,
and one that it leaves out gives none.
-/

namespace FoundryLite.Schedules

open Calendar

namespace PipelineScheduler

/-- A time zone: how far the local clock is ahead of UTC at a moment, in microseconds. -/
abbrev Zone := Instant → ℤ

/-- `_MAX_CRON_LOOKAHEAD_MINUTES`. -/
def maxCronLookaheadMinutes : ℕ := 60 * 24 * 366 * 5

/-- `_MAX_INTERVAL_SECONDS`. -/
def maxIntervalSeconds : ℤ := 60 * 60 * 24 * 366 * 5

structure PipelineScheduleSpec where
  triggerKind : String
  timezone : String := "UTC"
  cronExpression : Option String := none
  intervalSeconds : Option ℤ := none
  startAt : Option String := none
  autoPauseAfterFailures : Option ℤ := none
  isEnabled : Bool := true
  deriving DecidableEq

section Environment

variable (env : Serialiser) (lower : String → String) (zones : String → Option Zone)
  (reader : IsoReader)

/-! ### The specification of a schedule -/

/-- The first of the values that counts as true, or the last one. -/
def firstTrue (schedule : Mapping) (keys : List String) (default : Json) : Json :=
  ((keys.map fun key => (schedule.lookup key).getD .null).find? Json.isTruthy).getD default

/-- `schedule.get(...)`, under the second name where the first has none. -/
def valueOf (schedule : Mapping) (key other : String) : Json :=
  match (schedule.lookup key).getD .null with
  | .null => (schedule.lookup other).getD .null
  | value => value

/-- `_trigger_kind`. -/
def triggerKind (schedule : Mapping) : String :=
  lower (Text.strip (env.str (firstTrue schedule ["triggerType", "type", "kind"] (.str ""))))

/-- `_timezone`. -/
def zoneOf (value : String) : Checked Zone :=
  match zones value with
  | some zone => pure zone
  | none => validationFailed "pipeline schedule timezone is unknown" [("timezone", .str value)]

/-- `_bounded_interval_seconds`. -/
def boundedIntervalSeconds (seconds : ℤ) : Checked ℤ := do
  rejectIf (maxIntervalSeconds < seconds) "pipeline schedule interval exceeds the five-year bound"
    [("intervalSeconds", .int seconds), ("maxIntervalSeconds", .int maxIntervalSeconds)]
  pure seconds

/-- `_interval_seconds`. -/
def intervalSeconds (schedule : Mapping) : Checked ℤ :=
  match valueOf schedule "intervalSeconds" "everySeconds" with
  | .null =>
    match valueOf schedule "intervalMinutes" "everyMinutes" with
    | .null => validationFailed "interval pipeline schedule requires intervalSeconds"
    | minutes => do
      let minutes ← positiveInt (env.str minutes).toList "intervalMinutes"
      boundedIntervalSeconds (minutes * 60)
  | seconds => do
    let seconds ← positiveInt (env.str seconds).toList "intervalSeconds"
    boundedIntervalSeconds seconds

/-- `parse_schedule_timestamp`. -/
def parseScheduleTimestamp (value field : String) : Checked Instant :=
  match reader.fromisoformat (offsetForm (Text.strip value)) with
  | none => validationFailed "pipeline schedule timestamp is invalid" [("field", .str field)]
  | some (_, none) =>
    validationFailed "pipeline schedule timestamp requires timezone" [("field", .str field)]
  | some (clock, some offset) => checkedPlus clock (-offset)

/-- `_optional_start_at`. -/
def optionalStartAt (schedule : Mapping) (now : Instant) : Checked String :=
  match (schedule.lookup "startAt").getD .null with
  | .null => pure (iso now)
  | value => do
    let start ← parseScheduleTimestamp reader (env.str value) "startAt"
    pure (iso start)

/-- `_optional_positive_int`. -/
def optionalPositiveInt (value : Json) (field : String) : Checked (Option ℤ) :=
  match value with
  | .null => pure none
  | value => some <$> positiveInt (env.str value).toList field

/-- `__post_init__`. -/
def PipelineScheduleSpec.validated (spec : PipelineScheduleSpec) : Checked PipelineScheduleSpec := do
  rejectIf (Text.isBlank spec.timezone) "pipeline schedule timezone is required"
  rejectIf (spec.triggerKind = "cron" ∧ Text.isBlank (spec.cronExpression.getD ""))
    "cron pipeline schedule requires cron_expression"
  rejectIf (spec.triggerKind = "interval" ∧ spec.intervalSeconds.getD 0 < 1)
    "interval pipeline schedule requires positive interval_seconds"
  rejectIf (∃ n ∈ spec.autoPauseAfterFailures, n < 1) "auto_pause_after_failures must be positive"
  pure spec

/-- `_time_schedule_spec`. -/
def timeScheduleSpec (schedule : Mapping) (kind timezone : String) (isEnabled : Bool)
    (now : Instant) : Checked PipelineScheduleSpec := do
  let startAt ← optionalStartAt env reader schedule now
  let autoPause ← optionalPositiveInt env
    ((schedule.lookup "autoPauseAfterFailures").getD .null) "autoPauseAfterFailures"
  if kind = "cron" then
    let expression :=
      Text.strip (env.str (firstTrue schedule ["cronExpression", "cron"] (.str "")))
    let _ ← cronFields expression
    PipelineScheduleSpec.validated
      { triggerKind := "cron", timezone, cronExpression := some expression, startAt := some startAt,
        autoPauseAfterFailures := autoPause, isEnabled }
  else
    let seconds ← intervalSeconds env schedule
    PipelineScheduleSpec.validated
      { triggerKind := "interval", timezone, intervalSeconds := some seconds,
        startAt := some startAt, autoPauseAfterFailures := autoPause, isEnabled }

/-- `normalize_pipeline_schedule`. -/
def normalizePipelineSchedule (schedule : Mapping) (isEnabled : Bool) (now : Instant) :
    Checked PipelineScheduleSpec := do
  let kind := triggerKind env lower schedule
  rejectIf (kind ≠ "cron" ∧ kind ≠ "interval")
    "bounded pipeline scheduler supports cron and interval triggers"
    [("triggerType", .str kind), ("unsupportedCurrentTriggers", .arr [.str "data", .str "logic"])]
  let timezone := Text.strip (env.str (firstTrue schedule ["timezone"] (.str "UTC")))
  let _ ← zoneOf zones timezone
  timeScheduleSpec env reader schedule kind timezone isEnabled now

/-! ### The slots -/

/-- `_cron_matches` at the local time of a candidate, which is the slot if it matches. -/
def visitMinute (zone : Zone) (fields : CronFields CronField) (candidate : Instant) :
    Checked (Option Instant) := do
  let localTime ← checkedPlus candidate (zone candidate)
  pure (if cronMatches localTime.toMinute fields then some candidate else none)

/-- `_next_cron_match`. -/
def nextCronMatch (spec : PipelineScheduleSpec) (after : Instant) : Checked Instant := do
  let fields ← cronFields (spec.cronExpression.getD "")
  let zone ← zoneOf zones spec.timezone
  let candidate ← checkedPlus after.minuteFloor Instant.minuteLength
  Instant.scan (visitMinute zone fields) (libraryError "date value out of range")
    ⟨.validationFailed, "cron pipeline schedule has no match within five years", []⟩
    Instant.minuteLength maxCronLookaheadMinutes candidate

/-- `_required_interval`. -/
def requiredInterval (spec : PipelineScheduleSpec) : Checked ℤ :=
  match spec.intervalSeconds with
  | some seconds => pure seconds
  | none => validationFailed "interval pipeline schedule requires intervalSeconds"

/-- `_start_anchor`. -/
def startAnchor (spec : PipelineScheduleSpec) (now : Instant) : Checked Instant :=
  match spec.startAt with
  | none => pure now
  | some startAt => parseScheduleTimestamp reader startAt "startAt"

/-- `_first_interval_slot`. -/
def firstIntervalSlot (anchor now : Instant) (seconds : ℤ) : Checked Instant :=
  if now.elapsed ≤ anchor.elapsed then pure anchor
  else do
    let elapsedSlots := ⌊totalSeconds ((now.elapsed : ℤ) - anchor.elapsed) / seconds⌋
    let candidate ← checkedPlus anchor (elapsedSlots * seconds * 1000000)
    if now.elapsed ≤ candidate.elapsed then pure candidate
    else checkedPlus candidate (seconds * 1000000)

/-- `search_after`: a search looks behind a moment, so one from a whole minute starts before it. -/
def searchAfter (firstCandidate : Instant) : Checked Instant :=
  if firstCandidate.elapsed = firstCandidate.minuteFloor.elapsed then
    checkedPlus firstCandidate (-Instant.minuteLength)
  else pure firstCandidate

/-- `initial_next_due_at`. -/
def initialNextDueAt (spec : PipelineScheduleSpec) (now : Instant) : Checked (Option String) :=
  if !spec.isEnabled then pure none
  else do
    let anchor ← startAnchor reader spec now
    if spec.triggerKind = "interval" then
      let seconds ← requiredInterval spec
      let slot ← firstIntervalSlot anchor now seconds
      pure (some (iso slot))
    else
      let firstCandidate := if anchor.elapsed < now.elapsed then now else anchor
      let after ← searchAfter firstCandidate
      let slot ← nextCronMatch zones spec after
      pure (some (iso slot))

/-- `next_due_after_slot`. -/
def nextDueAfterSlot (spec : PipelineScheduleSpec) (slotStart : String) : Checked String := do
  let slot ← parseScheduleTimestamp reader slotStart "slotStart"
  if spec.triggerKind = "interval" then
    let seconds ← requiredInterval spec
    let next ← checkedPlus slot (seconds * 1000000)
    pure (iso next)
  else
    let next ← nextCronMatch zones spec slot
    pure (iso next)

/-- The first slot, and one after the other behind it. -/
def slots (spec : PipelineScheduleSpec) (now : Instant) : ℕ → Checked (Option String)
  | 0 => initialNextDueAt zones reader spec now
  | n + 1 => do
    match ← slots spec now n with
    | none => pure none
    | some slot => some <$> nextDueAfterSlot zones reader spec slot

end Environment

end PipelineScheduler

end FoundryLite.Schedules
