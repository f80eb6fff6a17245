import FoundryLite.Schedules.Cron
import FoundryLite.Schedules.ElapsedSeconds
import FoundryLite.Schedules.SlotTexts

/-!
# The decisions on managed source syncs

A tick of the scheduler decides for each managed sync whether a run is due: there is a slot of its
schedule between the anchor and the present, no run of the sync is under way, and none carries the key
of the slot. A slot is a minute of a cron expression in UTC, or a point of a grid from the anchor.

Minutes are looked for one by one, backwards for the slot and forwards for the next one, and either
search gives up after eight days.
-/

namespace FoundryLite.Schedules

open Calendar

namespace SourceScheduler

/-- `_MAX_CRON_LOOKBACK_MINUTES`. -/
def maxCronLookbackMinutes : ℕ := 60 * 24 * 8

/-- The columns of a managed sync that the decision reads. -/
structure ManagedSync where
  syncName : String
  status : Option String
  schedule : Mapping
  createdAt : Option String

/-- The columns of a sync run that the decision reads. -/
structure SyncRun where
  id : Option String
  status : Option String
  triggerType : Option String
  idempotencyKey : Option String
  completedAt : Option String
  createdAt : Option String
  error : Mapping

structure SourceScheduleHealth where
  consecutiveFailureCount : ℕ
  autoPauseAfterFailures : ℤ
  isAutoPaused : Bool
  lastFailureRunId : Option String
  lastFailureAt : Option String
  lastFailureError : Option Mapping
  successfulRecoveryRunId : Option String

structure SourceScheduleDecision where
  syncName : String
  isEnabled : Bool
  isDue : Bool
  reason : String
  slotStart : Option String
  nextDueAt : Option String
  idempotencyKey : Option String
  batchLimit : Option ℤ
  health : Option SourceScheduleHealth := none

/-- `schedule.get(key)`. -/
def get (schedule : Mapping) (key : String) : Json := (schedule.lookup key).getD .null

/-! ### Reading a schedule -/

/-- `_optional_int`. -/
def optionalIntOf (value : Json) : Checked (Option ℤ) :=
  match value with
  | .null => pure none
  | .bool _ => validationFailed "schedule integer field cannot be boolean"
  | .int n => pure (some n)
  | .str text => some <$> optionalInt text.toList
  | value => validationFailed "schedule field must be an integer" [("value", value)]

/-- `_positive_int`. -/
def positiveIntOf (value : Json) (field : String) : Checked ℤ := do
  match ← optionalIntOf value with
  | some parsed =>
    rejectIf (parsed ≤ 0) "schedule field must be a positive integer" [("field", .str field)]
    pure parsed
  | none => validationFailed "schedule field must be a positive integer" [("field", .str field)]

/-- `schedule.get("everySeconds") or schedule.get("intervalSeconds")`. -/
def everySeconds (schedule : Mapping) : Json :=
  if (get schedule "everySeconds").isTruthy then get schedule "everySeconds"
  else get schedule "intervalSeconds"

/-- A field that need not be there. -/
def optionalField {α : Type} (value : Json) (read : Json → Checked α) : Checked (Option α) :=
  match value with
  | .null => pure none
  | value => some <$> read value

/-- `DEFAULT_AUTO_PAUSE_FAILURES` and `MAX_AUTO_PAUSE_FAILURES`. -/
def defaultAutoPauseFailures : ℤ := 3

def maxAutoPauseFailures : ℤ := 10

/-- `auto_pause_failure_threshold`. -/
def autoPauseFailureThreshold (schedule : Mapping) : Checked ℤ :=
  match (schedule.lookup "autoPauseAfterFailures").getD (.int defaultAutoPauseFailures) with
  | .int raw =>
    if 1 ≤ raw ∧ raw ≤ maxAutoPauseFailures then pure raw
    else validationFailed "autoPauseAfterFailures must be between 1 and 10"
      [("field", .str "autoPauseAfterFailures"), ("value", .int raw)]
  | raw => validationFailed "autoPauseAfterFailures must be between 1 and 10"
      [("field", .str "autoPauseAfterFailures"), ("value", raw)]

section Environment

variable (env : Serialiser) (lower : String → String) (reader : IsoReader) (clock : Instant)

/-- `_parse_datetime`: no text is the present, and a text without an offset is in UTC. -/
def parseDatetime (value : Option String) : Checked Instant :=
  match value with
  | none | some "" => pure clock
  | some value =>
    match reader.fromisoformat (offsetForm value) with
    | none => validationFailed "schedule datetime must be ISO-8601" [("value", .str value)]
    | some (wall, offset) => checkedPlus wall (-offset.getD 0)

/-- `str(schedule.get("mode") or "manual")`. -/
def modeText (schedule : Mapping) : String :=
  env.str (if (get schedule "mode").isTruthy then get schedule "mode" else .str "manual")

/-- `str(schedule.get("cron") or "")`. -/
def cronText (schedule : Mapping) : String :=
  env.str (if (get schedule "cron").isTruthy then get schedule "cron" else .str "")

/-- `_copy_optional_schedule_fields`: what is added to the normalised schedule. -/
def optionalScheduleFields (schedule : Mapping) : Checked Mapping := do
  let startAt ← optionalField (get schedule "startAt") fun value =>
    parseDatetime reader clock (some (env.str value))
  let batchLimit ← optionalField (get schedule "batchLimit") fun value =>
    positiveIntOf value "batchLimit"
  let autoPause ← optionalField (get schedule "autoPauseAfterFailures") fun _ =>
    autoPauseFailureThreshold schedule
  pure ((startAt.map fun start => ("startAt", Json.str (iso start))).toList ++
    ((batchLimit.map fun limit => ("batchLimit", Json.int limit)).toList ++
      (autoPause.map fun threshold => ("autoPauseAfterFailures", Json.int threshold)).toList))

/-- The field that `normalized_source_schedule` asks for in a mode. -/
def modeFields (schedule : Mapping) (mode : String) : Checked Mapping :=
  if mode = "interval" then do
    let seconds ← positiveIntOf (everySeconds schedule) "everySeconds"
    pure [("everySeconds", .int seconds)]
  else if mode = "cron" then do
    let expression := Text.strip (cronText env schedule)
    let _ ← cronFields expression
    pure [("cron", .str expression)]
  else pure []

/-- `normalized_source_schedule`. -/
def normalizedSourceSchedule (schedule : Mapping) : Checked Mapping := do
  let mode := lower (Text.strip (modeText env schedule))
  rejectIf (mode ∉ ["manual", "disabled", "interval", "cron"])
    "unsupported managed sync schedule mode" [("mode", .str mode)]
  let fields ← modeFields env schedule mode
  let optional ← optionalScheduleFields env reader clock schedule
  pure (("mode", .str mode) :: (fields ++ optional))

/-! ### The slot -/

/-- `_anchor`. -/
def anchorOf (schedule : Mapping) (createdAt : Option String) : Checked Instant :=
  let raw : Option String := match get schedule "startAt" with
    | .str "" => createdAt
    | .str startAt => some startAt
    | value => if value.isTruthy then none else createdAt
  parseDatetime reader clock raw

/-- `_interval_slot`. -/
def intervalSlot (createdAt : Option String) (schedule : Mapping) (now : Instant) :
    Checked (Option Instant) := do
  let interval ← positiveIntOf (everySeconds schedule) "everySeconds"
  let anchor ← anchorOf reader clock schedule createdAt
  if now.elapsed < anchor.elapsed then pure none
  else
    let elapsed := ⌊totalSeconds ((now.elapsed : ℤ) - anchor.elapsed)⌋
    some <$> checkedPlus anchor (elapsed / interval * interval * 1000000)

/-- A minute before the anchor ends the search, and so does one that matches. -/
def visitBackwards (anchor : Instant) (fields : CronFields (List ℤ)) (candidate : Instant) :
    Checked (Option (Option Instant)) :=
  if candidate.elapsed < anchor.elapsed then pure (some none)
  else if cronMatches candidate.toMinute fields then pure (some (some candidate))
  else pure none

/-- `_cron_slot`. -/
def cronSlot (createdAt : Option String) (schedule : Mapping) (now : Instant) :
    Checked (Option Instant) := do
  let expression := Text.strip (cronText env schedule)
  rejectIf (expression = "") "cron schedule requires cron" [("field", .str "cron")]
  let anchor ← anchorOf reader clock schedule createdAt
  let fields ← cronFields expression
  Instant.scan (visitBackwards anchor fields) (libraryError "date value out of range")
    ⟨.validationFailed, "cron schedule has no recent matching slot", [("cron", .str expression)]⟩
    (-Instant.minuteLength) maxCronLookbackMinutes now.minuteFloor

/-- `_scheduled_slot`. -/
def scheduledSlot (createdAt : Option String) (schedule : Mapping) (now : Instant) :
    Checked (Option Instant) :=
  let mode := modeText env schedule
  if mode = "interval" then intervalSlot reader clock createdAt schedule now
  else if mode = "cron" then cronSlot env reader clock createdAt schedule now
  else validationFailed "unsupported managed sync schedule mode" [("mode", .str mode)]

/-! ### The next due time -/

/-- `_cron_candidate_at_or_after`. -/
def cronCandidateAtOrAfter (value : Instant) : Checked Instant :=
  if value.elapsed ≤ value.minuteFloor.elapsed then pure value.minuteFloor
  else checkedPlus value.minuteFloor Instant.minuteLength

def visitForwards (fields : CronFields (List ℤ)) (candidate : Instant) :
    Checked (Option Instant) :=
  pure (if cronMatches candidate.toMinute fields then some candidate else none)

/-- `_next_cron_due`. -/
def nextCronDue (schedule : Mapping) (createdAt : Option String) (slotStart : Instant) :
    Checked String := do
  let fields ← cronFields (cronText env schedule)
  let anchor ← anchorOf reader clock schedule createdAt
  let anchor ← cronCandidateAtOrAfter anchor
  let behind ← checkedPlus slotStart.minuteFloor Instant.minuteLength
  let candidate := if anchor.elapsed < behind.elapsed then behind else anchor
  let found ← Instant.scan (visitForwards fields) (libraryError "date value out of range")
    ⟨.validationFailed, "cron schedule has no upcoming matching slot", [("cron", get schedule "cron")]⟩
    Instant.minuteLength maxCronLookbackMinutes candidate
  pure (iso found)

/-- `_next_due`. -/
def nextDue (schedule : Mapping) (createdAt : Option String) (slotStart : Instant) :
    Checked (Option String) := do
  let mode := modeText env schedule
  if mode = "interval" then
    let seconds ← positiveIntOf (everySeconds schedule) "everySeconds"
    let next ← checkedPlus slotStart (seconds * 1000000)
    pure (some (iso next))
  else if mode = "cron" then
    let next ← nextCronDue env reader clock schedule createdAt slotStart
    pure (some next)
  else pure none

/-- `_pending_next_due`. -/
def pendingNextDue (schedule : Mapping) (createdAt : Option String) (now : Instant) :
    Checked (Option String) := do
  let anchor ← anchorOf reader clock schedule createdAt
  if now.elapsed < anchor.elapsed then
    if get schedule "mode" = .str "interval" then pure (some (iso anchor))
    else
      let before ← checkedPlus anchor.minuteFloor (-Instant.minuteLength)
      let next ← nextCronDue env reader clock schedule createdAt before
      pure (some next)
  else nextDue env reader clock schedule createdAt now.minuteFloor

/-! ### The decision -/

/-- `scheduler_idempotency_key`. -/
def schedulerIdempotencyKey (syncName : String) (slotStart : Instant) : String :=
  "scheduler:" ++ syncName ++ ":" ++ iso slotStart

/-- `_has_active_run`. -/
def hasActiveRun (runs : List SyncRun) : Bool := runs.any fun run => run.status = some "running"

/-- `_has_started_slot`. -/
def hasStartedSlot (runs : List SyncRun) (idempotencyKey : String) : Bool :=
  runs.any fun run => run.idempotencyKey = some idempotencyKey

/-- `_disabled`. -/
def disabled (syncName mode : String) : SourceScheduleDecision :=
  ⟨syncName, false, false, mode ++ "_schedule", none, none, none, none, none⟩

/-- `_inactive`. -/
def inactive (syncName status : String) : SourceScheduleDecision :=
  ⟨syncName, false, false, if status = "paused" then "schedule_paused" else "sync_inactive",
    none, none, none, none, none⟩

/-- `_not_due`. -/
def notDue (sync : ManagedSync) (now : Instant) : Checked SourceScheduleDecision := do
  let next ← pendingNextDue env reader clock sync.schedule sync.createdAt now
  let limit ← optionalIntOf (get sync.schedule "batchLimit")
  pure ⟨sync.syncName, true, false, "not_due", none, next, none, limit, none⟩

/-- `_active_run`. -/
def activeRun (sync : ManagedSync) (slotStart : Instant) : Checked SourceScheduleDecision := do
  let next ← nextDue env reader clock sync.schedule sync.createdAt slotStart
  let limit ← optionalIntOf (get sync.schedule "batchLimit")
  pure ⟨sync.syncName, true, false, "active_run_in_progress", some (iso slotStart), next, none, limit,
    none⟩

/-- `_already_started`, which is not given the sync: only `startAt` can be the anchor. -/
def alreadyStarted (syncName : String) (schedule : Mapping) (idempotencyKey : String)
    (slotStart : Instant) : Checked SourceScheduleDecision := do
  let next ← nextDue env reader clock schedule none slotStart
  let limit ← optionalIntOf (get schedule "batchLimit")
  pure ⟨syncName, true, false, "slot_already_started", some (iso slotStart), next, some idempotencyKey,
    limit, none⟩

/-- What `_base_source_schedule_decision` returns where nothing stands against a run. -/
def due (sync : ManagedSync) (idempotencyKey : String) (slotStart : Instant) :
    Checked SourceScheduleDecision := do
  let next ← nextDue env reader clock sync.schedule sync.createdAt slotStart
  let limit ← optionalIntOf (get sync.schedule "batchLimit")
  pure ⟨sync.syncName, true, true, "due", some (iso slotStart), next, some idempotencyKey, limit, none⟩

/-- `str(sync.get("status") or "active")`. -/
def statusText (sync : ManagedSync) : String :=
  match sync.status with
  | none | some "" => "active"
  | some status => status

/-- The end of `_base_source_schedule_decision`, from the slot on. -/
def slotDecision (sync : ManagedSync) (runs : List SyncRun) (now : Instant) :
    Option Instant → Checked SourceScheduleDecision
  | none => notDue env reader clock sync now
  | some slot =>
    let key := schedulerIdempotencyKey sync.syncName slot
    if hasActiveRun runs then activeRun env reader clock sync slot
    else if hasStartedSlot runs key then
      alreadyStarted env reader clock sync.syncName sync.schedule key slot
    else due env reader clock sync key slot

/-- `_base_source_schedule_decision`. -/
def baseSourceScheduleDecision (sync : ManagedSync) (runs : List SyncRun) (now : Instant) :
    Checked SourceScheduleDecision := do
  let mode := modeText env sync.schedule
  if statusText sync ≠ "active" then pure (inactive sync.syncName (statusText sync))
  else if mode = "manual" ∨ mode = "disabled" then pure (disabled sync.syncName mode)
  else
    let slot ← scheduledSlot env reader clock sync.createdAt sync.schedule now
    slotDecision env reader clock sync runs now slot

/-- `_scheduled_failure_streak`, newest run first, behind so many failures. -/
def scheduledFailureStreak : ℕ → List SyncRun → ℕ × Option String
  | count, [] => (count, none)
  | count, run :: runs =>
    if run.triggerType = some "recovery" ∧ run.status = some "succeeded" then
      (0, run.id.filter (· ≠ ""))
    else if run.triggerType ≠ some "scheduled" ∨ run.status = some "running" then
      scheduledFailureStreak count runs
    else if run.status ≠ some "failed" then (count, none)
    else scheduledFailureStreak (count + 1) runs

/-- `source_schedule_health`. -/
def sourceScheduleHealth (sync : ManagedSync) (runs : List SyncRun) :
    Checked SourceScheduleHealth := do
  let threshold ← autoPauseFailureThreshold sync.schedule
  let streak := scheduledFailureStreak 0 runs
  let lastFailure := runs.find? fun run => run.status = some "failed"
  pure
    { consecutiveFailureCount := streak.1
      autoPauseAfterFailures := threshold
      isAutoPaused := sync.status = some "paused" && decide (threshold ≤ streak.1)
      lastFailureRunId := (lastFailure.bind SyncRun.id).filter (· ≠ "")
      lastFailureAt := ((lastFailure.bind SyncRun.completedAt).filter (· ≠ "")).orElse fun _ =>
        (lastFailure.bind SyncRun.createdAt).filter (· ≠ "")
      lastFailureError := lastFailure.map SyncRun.error
      successfulRecoveryRunId := streak.2 }

/-- `source_schedule_decision`. -/
def sourceScheduleDecision (sync : ManagedSync) (runs : List SyncRun) (now : Instant) :
    Checked SourceScheduleDecision := do
  let decision ← baseSourceScheduleDecision env reader clock sync runs now
  let health ← sourceScheduleHealth sync runs
  pure { decision with health := some health }

/-- `_preview_decisions`, and `_run_decisions` on the syncs and runs that it has brought up to date:
one decision after the other. -/
def runDecisions (syncs : List (ManagedSync × List SyncRun)) (now : Instant) :
    Checked (List SourceScheduleDecision) :=
  syncs.mapM fun sync => sourceScheduleDecision env reader clock sync.1 sync.2 now

end Environment

end SourceScheduler

end FoundryLite.Schedules
