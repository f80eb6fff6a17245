import FoundryLite.Schedules.SourceSlots

/-!
# When a managed sync is decided on

A schedule that has been normalised is manual or disabled, or has a recurrence. The decision on it is
right wherever there is one: the sync is due exactly if its recurrence has a slot between the anchor and
the present for which no run is under way or recorded. There is one exactly if the searches for the slot
and for the next due time both end within eight days.

## Main results

* `NormalSchedule.exists_recurrence`: the schedules that are accepted.
* `sourceScheduleDecision_isDue_iff`: what it says.
-/

namespace FoundryLite.Schedules

open Calendar
open Except (bind_eq_ok_iff map_eq_ok_iff pure_eq_ok_iff)

namespace SourceScheduler

/-! ### Schedules that are accepted -/

/-- What a normalised schedule says. -/
structure NormalSchedule where
  mode : String
  everySeconds : Option ℤ
  cron : Option String
  startAt : Option Instant
  batchLimit : Option ℤ
  autoPauseAfterFailures : Option ℤ

/-- The schedule as it is stored. -/
def NormalSchedule.toMapping (normal : NormalSchedule) : Mapping :=
  ("mode", .str normal.mode) ::
    ((normal.everySeconds.map fun seconds => ("everySeconds", Json.int seconds)).toList ++
      ((normal.cron.map fun expression => ("cron", Json.str expression)).toList ++
        ((normal.startAt.map fun start => ("startAt", Json.str (iso start))).toList ++
          ((normal.batchLimit.map fun limit => ("batchLimit", Json.int limit)).toList ++
            (normal.autoPauseAfterFailures.map fun threshold =>
              ("autoPauseAfterFailures", Json.int threshold)).toList))))

/-- The mode has the fields that it asks for. -/
structure NormalSchedule.IsValid (normal : NormalSchedule) : Prop where
  mode : normal.mode ∈ ["manual", "disabled", "interval", "cron"]
  interval : normal.mode = "interval" → ∃ seconds, normal.everySeconds = some seconds ∧ 0 < seconds
  cron : normal.mode = "cron" → ∃ expression fields, normal.cron = some expression ∧
    Text.strip expression = expression ∧ cronFields expression = .ok fields
  threshold : ∀ n ∈ normal.autoPauseAfterFailures, 1 ≤ n ∧ n ≤ maxAutoPauseFailures

section Lookups

variable {normal : NormalSchedule}

theorem NormalSchedule.get_mode : get normal.toMapping "mode" = .str normal.mode := rfl

theorem NormalSchedule.get_everySeconds :
    get normal.toMapping "everySeconds" = (normal.everySeconds.map Json.int).getD .null := by
  obtain ⟨mode, _ | _, _ | _, _ | _, _ | _, _ | _⟩ := normal <;> rfl

theorem NormalSchedule.get_cron :
    get normal.toMapping "cron" = (normal.cron.map Json.str).getD .null := by
  obtain ⟨mode, _ | _, _ | _, _ | _, _ | _, _ | _⟩ := normal <;> rfl

theorem NormalSchedule.get_startAt :
    get normal.toMapping "startAt" = (normal.startAt.map fun start => Json.str (iso start)).getD .null := by
  obtain ⟨mode, _ | _, _ | _, _ | _, _ | _, _ | _⟩ := normal <;> rfl

theorem NormalSchedule.get_batchLimit :
    get normal.toMapping "batchLimit" = (normal.batchLimit.map Json.int).getD .null := by
  obtain ⟨mode, _ | _, _ | _, _ | _, _ | _, _ | _⟩ := normal <;> rfl

theorem NormalSchedule.lookup_autoPauseAfterFailures :
    normal.toMapping.lookup "autoPauseAfterFailures" = normal.autoPauseAfterFailures.map Json.int := by
  obtain ⟨mode, _ | _, _ | _, _ | _, _ | _, _ | _⟩ := normal <;> rfl

end Lookups

section Normalising

variable {env : Serialiser} {lower : String → String} {reader : IsoReader} {clock : Instant}
  {raw schedule : Mapping}

theorem optionalField_eq_ok {α : Type} {value : Json} {read : Json → Checked α} {found : Option α}
    (h : optionalField value read = .ok found) : ∀ a ∈ found, read value = .ok a := by
  rintro a rfl
  cases value with
  | null => simp [optionalField] at h
  | bool | int | float | str | arr | obj =>
    simp only [optionalField, map_eq_ok_iff] at h
    obtain ⟨b, hb, hba⟩ := h
    rw [hb, Option.some.inj hba]

theorem autoPauseFailureThreshold_bounds {threshold : ℤ}
    (h : autoPauseFailureThreshold raw = .ok threshold) :
    1 ≤ threshold ∧ threshold ≤ maxAutoPauseFailures := by
  simp only [autoPauseFailureThreshold] at h
  split at h
  · split_ifs at h with hbounds
    · rw [← Except.ok.inj h]
      exact hbounds
    · cases h
  · cases h

theorem positiveIntOf_pos {value : Json} {field : String} {n : ℤ}
    (h : positiveIntOf value field = .ok n) : 0 < n := by
  simp only [positiveIntOf, bind_eq_ok_iff] at h
  obtain ⟨_ | parsed, -, h⟩ := h
  · cases h
  · simp only [bind_eq_ok_iff, rejectIf_eq_ok_iff, pure_eq_ok_iff] at h
    obtain ⟨-, hpos, rfl⟩ := h
    omega

/-- **A schedule that is accepted is a normal one.** -/
theorem exists_normalSchedule
    (h : normalizedSourceSchedule env lower reader clock raw = .ok schedule) :
    ∃ normal : NormalSchedule, normal.IsValid ∧ schedule = normal.toMapping := by
  simp only [normalizedSourceSchedule, optionalScheduleFields, bind_eq_ok_iff,
    rejectIf_eq_ok_iff, not_not, pure_eq_ok_iff] at h
  obtain ⟨-, hmode, fields, hfields, _, ⟨startAt, -, limit, -, threshold, hthreshold, rfl⟩, rfl⟩ := h
  generalize lower (Text.strip (modeText env raw)) = mode at hmode hfields ⊢
  have hbounds : ∀ n ∈ threshold, 1 ≤ n ∧ n ≤ maxAutoPauseFailures := fun n hn =>
    autoPauseFailureThreshold_bounds (optionalField_eq_ok hthreshold n hn)
  have hdifferent : ("interval" : String) ≠ "cron" := by decide
  simp only [modeFields] at hfields
  split_ifs at hfields with hinterval hcron
  · simp only [bind_eq_ok_iff, pure_eq_ok_iff] at hfields
    obtain ⟨seconds, hseconds, rfl⟩ := hfields
    subst hinterval
    exact ⟨⟨"interval", some seconds, none, startAt, limit, threshold⟩,
      ⟨hmode, fun _ => ⟨seconds, rfl, positiveIntOf_pos hseconds⟩, fun h => absurd h hdifferent,
        hbounds⟩, rfl⟩
  · simp only [bind_eq_ok_iff, pure_eq_ok_iff] at hfields
    obtain ⟨fields, hcronFields, rfl⟩ := hfields
    subst hcron
    exact ⟨⟨"cron", none, some (Text.strip (cronText env raw)), startAt, limit, threshold⟩,
      ⟨hmode, fun h => absurd h hdifferent.symm,
        fun _ => ⟨_, fields, rfl, Text.strip_strip _, hcronFields⟩, hbounds⟩, rfl⟩
  · rw [pure_eq_ok_iff] at hfields
    subst hfields
    exact ⟨⟨mode, none, none, startAt, limit, threshold⟩,
      ⟨hmode, fun h => absurd h hinterval, fun h => absurd h hcron, hbounds⟩, rfl⟩

end Normalising

/-! ### What an accepted schedule has -/

section Accepted

variable {env : Serialiser} {reader : IsoReader} {clock anchor : Instant} {normal : NormalSchedule}

/-- **An accepted schedule is manual or disabled, or comes back.** -/
theorem NormalSchedule.IsValid.exists_recurrence (h : normal.IsValid) :
    modeText env normal.toMapping = "manual" ∨ modeText env normal.toMapping = "disabled" ∨
      ∃ recurrence : Recurrence, recurrence.IsOf normal.toMapping := by
  have hmode := h.mode
  simp only [List.mem_cons, List.not_mem_nil, or_false] at hmode
  rcases hmode with hmanual | hdisabled | hinterval | hcron
  · left
    exact modeText_of_get (NormalSchedule.get_mode.trans (congrArg Json.str hmanual)) (by decide)
  · right; left
    exact modeText_of_get (NormalSchedule.get_mode.trans (congrArg Json.str hdisabled)) (by decide)
  · right; right
    obtain ⟨seconds, hseconds, hpos⟩ := h.interval hinterval
    refine ⟨.interval seconds, NormalSchedule.get_mode.trans (congrArg Json.str hinterval), ?_, hpos⟩
    have hget : get normal.toMapping "everySeconds" = .int seconds := by
      rw [NormalSchedule.get_everySeconds, hseconds]
      rfl
    rw [SourceScheduler.everySeconds, hget, if_pos (by simp [Json.isTruthy, hpos.ne'])]
  · right; right
    obtain ⟨expression, fields, hexpression, hstrip, hfields⟩ := h.cron hcron
    refine ⟨.cron fields, NormalSchedule.get_mode.trans (congrArg Json.str hcron), expression, ?_, ?_,
      hstrip, hfields⟩
    · rintro rfl
      cases hfields
    · rw [NormalSchedule.get_cron, hexpression]
      rfl

theorem NormalSchedule.exists_batchLimit :
    ∃ limit, optionalIntOf (get normal.toMapping "batchLimit") = .ok limit := by
  rw [NormalSchedule.get_batchLimit]
  cases normal.batchLimit with
  | none => exact ⟨none, rfl⟩
  | some limit => exact ⟨some limit, rfl⟩

theorem NormalSchedule.IsValid.exists_threshold (h : normal.IsValid) :
    ∃ threshold, autoPauseFailureThreshold normal.toMapping = .ok threshold := by
  have hbounds := h.threshold
  rw [autoPauseFailureThreshold, NormalSchedule.lookup_autoPauseAfterFailures]
  cases hthreshold : normal.autoPauseAfterFailures with
  | none => exact ⟨3, rfl⟩
  | some threshold =>
    refine ⟨threshold, ?_⟩
    have hin := hbounds threshold hthreshold
    simp [hin]

theorem iso_ne_empty (t : Instant) : iso t ≠ "" := by
  rw [iso_eq]
  intro h
  have hchars := congrArg String.toList h
  rw [String.toList_ofList] at hchars
  exact List.append_ne_nil_of_right_ne_nil _ (List.cons_ne_nil _ _) hchars

theorem parseDatetime_iso (t : Instant) :
    parseDatetime reader clock (some (iso t)) = .ok t.secondFloor := by
  have hne := iso_ne_empty t
  have hread := reader.fromisoformat_iso t
  generalize iso t = text at hne hread ⊢
  simp [parseDatetime, hread]

theorem anchorOf_of_get {schedule : Mapping} {text : String} {createdAt : Option String}
    (h : get schedule "startAt" = .str text) (hne : text ≠ "") :
    anchorOf reader clock schedule createdAt = parseDatetime reader clock (some text) := by
  simp [anchorOf, h]

/-- The anchor that is found where the sync is left out. -/
def laterAnchor (clock anchor : Instant) (schedule : Mapping) : Instant :=
  if get schedule "startAt" = .null then clock else anchor

theorem NormalSchedule.anchorOf_none {createdAt : Option String}
    (hanchor : anchorOf reader clock normal.toMapping createdAt = .ok anchor) :
    anchorOf reader clock normal.toMapping none =
      .ok (laterAnchor clock anchor normal.toMapping) := by
  rw [laterAnchor]
  cases hstart : normal.startAt with
  | none =>
    have hget : get normal.toMapping "startAt" = .null := by
      rw [NormalSchedule.get_startAt, hstart]
      rfl
    rw [if_pos hget]
    simp [anchorOf, hget, Json.isTruthy, parseDatetime]
  | some start =>
    have hget : get normal.toMapping "startAt" = .str (iso start) := by
      rw [NormalSchedule.get_startAt, hstart]
      rfl
    have hnotNull : ¬ get normal.toMapping "startAt" = .null := by simp [hget]
    rw [if_neg hnotNull, ← hanchor, anchorOf_of_get hget (iso_ne_empty start),
      anchorOf_of_get hget (iso_ne_empty start)]

end Accepted

/-! ### The decision -/

/-- Nothing is looked for: the sync is not active, or its schedule is manual or disabled. -/
def Idle (env : Serialiser) (sync : ManagedSync) : Prop :=
  statusText sync ≠ "active" ∨ modeText env sync.schedule = "manual" ∨
    modeText env sync.schedule = "disabled"

/-- A slot up to the present for which a run is to be started. -/
structure Recurrence.IsDue (recurrence : Recurrence) (anchor : Instant) (sync : ManagedSync)
    (runs : List SyncRun) (now slot : Instant) : Prop where
  isLast : Instant.IsLastUpTo (recurrence.IsSlot anchor) now.elapsed slot
  noneActive : ∀ run ∈ runs, run.status ≠ some "running"
  noneStarted : ∀ run ∈ runs,
    run.idempotencyKey ≠ some (schedulerIdempotencyKey sync.syncName slot)

/-- The searches end: the one for the slot, and the one for the next due time. -/
def Recurrence.Answers (recurrence : Recurrence) (clock anchor : Instant) (sync : ManagedSync)
    (runs : List SyncRun) (now : Instant) : Prop :=
  (∃ slot, recurrence.FindsSlot anchor now (some slot) ∧
    recurrence.NextInReach
      (if hasActiveRun runs = false ∧
          hasStartedSlot runs (schedulerIdempotencyKey sync.syncName slot) = true then
        laterAnchor clock anchor sync.schedule else anchor) slot) ∨
    recurrence.FindsSlot anchor now none ∧ recurrence.PendingInReach anchor now

section Decisions

variable {env : Serialiser} {reader : IsoReader} {clock anchor now slot : Instant}
  {sync : ManagedSync} {runs : List SyncRun} {recurrence : Recurrence}
  {decision : SourceScheduleDecision}

theorem baseSourceScheduleDecision_of_idle (h : Idle env sync) :
    ∃ decision, baseSourceScheduleDecision env reader clock sync runs now = .ok decision ∧
      decision.isDue = false := by
  simp only [baseSourceScheduleDecision]
  by_cases hstatus : statusText sync ≠ "active"
  · exact ⟨_, if_pos hstatus, rfl⟩
  · rw [if_neg hstatus, if_pos (h.resolve_left hstatus)]
    exact ⟨_, rfl, rfl⟩

theorem baseSourceScheduleDecision_eq_ok_iff (h : ¬ Idle env sync) :
    baseSourceScheduleDecision env reader clock sync runs now = .ok decision ↔
      ∃ found, scheduledSlot env reader clock sync.createdAt sync.schedule now = .ok found ∧
        slotDecision env reader clock sync runs now found = .ok decision := by
  rw [Idle, not_or] at h
  simp only [baseSourceScheduleDecision, if_neg h.1, if_neg h.2, bind_eq_ok_iff]

theorem hasActiveRun_eq_false_iff :
    hasActiveRun runs = false ↔ ∀ run ∈ runs, run.status ≠ some "running" := by
  simp [hasActiveRun]

theorem hasStartedSlot_eq_false_iff {key : String} :
    hasStartedSlot runs key = false ↔ ∀ run ∈ runs, run.idempotencyKey ≠ some key := by
  simp [hasStartedSlot]

/-- What the decision on a slot says, if there is one. -/
theorem slotDecision_some_eq_ok
    (h : slotDecision env reader clock sync runs now (some slot) = .ok decision) :
    (decision.isDue = true ↔ hasActiveRun runs = false ∧
      hasStartedSlot runs (schedulerIdempotencyKey sync.syncName slot) = false) ∧
    (decision.isDue = true → decision.slotStart = some (iso slot) ∧
      decision.idempotencyKey = some (schedulerIdempotencyKey sync.syncName slot)) := by
  simp only [slotDecision] at h
  split_ifs at h with hactive hstarted
  · simp only [activeRun, bind_eq_ok_iff, pure_eq_ok_iff] at h
    obtain ⟨_, -, _, -, rfl⟩ := h
    simp [hactive]
  · simp only [alreadyStarted, bind_eq_ok_iff, pure_eq_ok_iff] at h
    obtain ⟨_, -, _, -, rfl⟩ := h
    simp [hstarted]
  · simp only [due, bind_eq_ok_iff, pure_eq_ok_iff] at h
    obtain ⟨_, -, _, -, rfl⟩ := h
    simp [hactive, hstarted]

theorem slotDecision_none_eq_ok
    (h : slotDecision env reader clock sync runs now none = .ok decision) :
    decision.isDue = false := by
  simp only [slotDecision, notDue, bind_eq_ok_iff, pure_eq_ok_iff] at h
  obtain ⟨_, -, _, -, rfl⟩ := h
  rfl

/-- The batch limit of an accepted schedule is read without fail. -/
theorem exists_bind_limit_iff {next : Checked (Option String)} {limit : Checked (Option ℤ)}
    {f : Option String → Option ℤ → SourceScheduleDecision} (hlimit : ∃ n, limit = .ok n) :
    (∃ decision, (do
      let next ← next
      let limit ← limit
      pure (f next limit)) = Except.ok decision) ↔ ∃ text, next = .ok text := by
  obtain ⟨n, rfl⟩ := hlimit
  simp only [bind_eq_ok_iff, Except.ok.injEq, exists_eq_left', pure_eq_ok_iff]
  constructor
  · rintro ⟨_, text, htext, -⟩
    exact ⟨text, htext⟩
  · rintro ⟨text, htext⟩
    exact ⟨_, text, htext, rfl⟩

section Slots

variable {later : Instant} (hrecurrence : recurrence.IsOf sync.schedule)
  (hanchor : anchorOf reader clock sync.schedule sync.createdAt = .ok anchor)
  (hlater : anchorOf reader clock sync.schedule none = .ok later)
  (hlimit : ∃ limit, optionalIntOf (get sync.schedule "batchLimit") = .ok limit)

include hrecurrence hanchor hlater hlimit

/-- There is a decision on a slot where there is a next due time. -/
theorem exists_slotDecision_some_iff :
    (∃ decision, slotDecision env reader clock sync runs now (some slot) = .ok decision) ↔
      recurrence.NextInReach
        (if hasActiveRun runs = false ∧
            hasStartedSlot runs (schedulerIdempotencyKey sync.syncName slot) = true then later
          else anchor) slot := by
  have hnext := @nextDue_isOk_iff env _ _ _ _ _ slot _ hrecurrence hanchor
  have hlaterNext := @nextDue_isOk_iff env _ _ _ _ _ slot _ hrecurrence hlater
  by_cases hactive : hasActiveRun runs = true
  · have hnot : ¬ (hasActiveRun runs = false ∧
        hasStartedSlot runs (schedulerIdempotencyKey sync.syncName slot) = true) := by
      simp [hactive]
    simp only [slotDecision, if_pos hactive, if_neg hnot, activeRun, ← hnext]
    exact exists_bind_limit_iff hlimit
  · by_cases hstarted : hasStartedSlot runs (schedulerIdempotencyKey sync.syncName slot) = true
    · have hboth : hasActiveRun runs = false ∧
          hasStartedSlot runs (schedulerIdempotencyKey sync.syncName slot) = true :=
        ⟨Bool.eq_false_of_not_eq_true hactive, hstarted⟩
      simp only [slotDecision, if_neg hactive, if_pos hstarted, if_pos hboth, alreadyStarted,
        ← hlaterNext]
      exact exists_bind_limit_iff hlimit
    · have hnot : ¬ (hasActiveRun runs = false ∧
          hasStartedSlot runs (schedulerIdempotencyKey sync.syncName slot) = true) :=
        fun h => hstarted h.2
      simp only [slotDecision, if_neg hactive, if_neg hstarted, if_neg hnot, due, ← hnext]
      exact exists_bind_limit_iff hlimit

omit hlater in
theorem exists_slotDecision_none_iff :
    (∃ decision, slotDecision env reader clock sync runs now none = .ok decision) ↔
      recurrence.PendingInReach anchor now := by
  simp only [slotDecision, notDue, ← @pendingNextDue_isOk_iff env _ _ _ _ _ _ _ hrecurrence hanchor]
  exact exists_bind_limit_iff hlimit

end Slots

theorem exists_sourceScheduleHealth
    (h : ∃ threshold, autoPauseFailureThreshold sync.schedule = .ok threshold) :
    ∃ health, sourceScheduleHealth sync runs = .ok health := by
  obtain ⟨threshold, h⟩ := h
  simp only [sourceScheduleHealth, h, bind_eq_ok_iff, Except.ok.injEq, exists_eq_left',
    pure_eq_ok_iff, exists_eq']

/-- The health is added to the decision and changes nothing of it. -/
theorem sourceScheduleDecision_eq_ok_iff :
    sourceScheduleDecision env reader clock sync runs now = .ok decision ↔
      ∃ base, baseSourceScheduleDecision env reader clock sync runs now = .ok base ∧
        ∃ health, sourceScheduleHealth sync runs = .ok health ∧
          { base with health := some health } = decision := by
  simp only [sourceScheduleDecision, bind_eq_ok_iff, pure_eq_ok_iff]

/-- A tick has its decisions where each sync has one. -/
theorem exists_runDecisions_iff {syncs : List (ManagedSync × List SyncRun)} :
    (∃ decisions, runDecisions env reader clock syncs now = .ok decisions) ↔
      ∀ sync ∈ syncs, ∃ decision,
        sourceScheduleDecision env reader clock sync.1 sync.2 now = .ok decision := by
  constructor
  · rintro ⟨decisions, h⟩ sync hsync
    obtain ⟨decision, -, hdecision⟩ := List.exists_mem_of_mapM_eq_ok h hsync
    exact ⟨decision, hdecision⟩
  · exact List.exists_mapM_eq_ok

section Law

variable {lower : String → String} {accepted : Instant} {raw : Mapping}
  (hnormal : normalizedSourceSchedule env lower reader accepted raw = .ok sync.schedule)
  (hanchor : anchorOf reader clock sync.schedule sync.createdAt = .ok anchor)
  (hspan : modeText env sync.schedule = "interval" →
    now.elapsed < anchor.elapsed + 2 ^ 34 * 1000000)

include hnormal

theorem exists_recurrence_of_not_idle (hidle : ¬ Idle env sync) :
    ∃ recurrence : Recurrence, recurrence.IsOf sync.schedule := by
  obtain ⟨normal, hvalid, hschedule⟩ := exists_normalSchedule hnormal
  rw [Idle, hschedule] at hidle
  rw [hschedule]
  rcases @hvalid.exists_recurrence env with hmanual | hdisabled | hrecurrence
  · exact absurd (.inr (.inl hmanual)) hidle
  · exact absurd (.inr (.inr hdisabled)) hidle
  · exact hrecurrence

include hanchor hspan

omit hnormal in
theorem scheduledSlot_eq_ok_iff_findsSlot (hrecurrence : recurrence.IsOf sync.schedule)
    {found : Option Instant} :
    scheduledSlot env reader clock sync.createdAt sync.schedule now = .ok found ↔
      recurrence.FindsSlot anchor now found := by
  refine scheduledSlot_eq_ok_iff hrecurrence hanchor ?_
  rintro seconds rfl
  exact hspan (modeText_of_get hrecurrence.1 (by decide))

/-- **There is a decision** where nothing is looked for or the searches end. -/
theorem exists_sourceScheduleDecision_iff :
    (∃ decision, sourceScheduleDecision env reader clock sync runs now = .ok decision) ↔
      Idle env sync ∨ ∃ recurrence : Recurrence, recurrence.IsOf sync.schedule ∧
        recurrence.Answers clock anchor sync runs now := by
  obtain ⟨normal, hvalid, hschedule⟩ := exists_normalSchedule hnormal
  have hlimit : ∃ limit, optionalIntOf (get sync.schedule "batchLimit") = .ok limit :=
    hschedule ▸ NormalSchedule.exists_batchLimit
  have hlater : anchorOf reader clock sync.schedule none =
      .ok (laterAnchor clock anchor sync.schedule) := by
    rw [hschedule] at hanchor ⊢
    exact NormalSchedule.anchorOf_none hanchor
  obtain ⟨health, hhealth⟩ := @exists_sourceScheduleHealth sync runs
    (show ∃ threshold, autoPauseFailureThreshold sync.schedule = .ok threshold from
      hschedule ▸ hvalid.exists_threshold)
  have hbase : (∃ decision, sourceScheduleDecision env reader clock sync runs now = .ok decision) ↔
      ∃ base, baseSourceScheduleDecision env reader clock sync runs now = .ok base := by
    simp only [sourceScheduleDecision_eq_ok_iff, hhealth, Except.ok.injEq, exists_eq_left']
    constructor
    · rintro ⟨_, base, h, -⟩
      exact ⟨base, h⟩
    · rintro ⟨base, h⟩
      exact ⟨_, base, h, rfl⟩
  rw [hbase]
  by_cases hidle : Idle env sync
  · obtain ⟨base, h, -⟩ := @baseSourceScheduleDecision_of_idle env reader clock now sync runs hidle
    exact ⟨fun _ => .inl hidle, fun _ => ⟨base, h⟩⟩
  · simp only [baseSourceScheduleDecision_eq_ok_iff hidle, or_iff_right hidle]
    constructor
    · rintro ⟨base, found, hfound, hdecision⟩
      obtain ⟨recurrence, hrecurrence⟩ := exists_recurrence_of_not_idle hnormal hidle
      rw [scheduledSlot_eq_ok_iff_findsSlot hanchor hspan hrecurrence] at hfound
      refine ⟨recurrence, hrecurrence, ?_⟩
      cases found with
      | none =>
        exact .inr ⟨hfound, (exists_slotDecision_none_iff hrecurrence hanchor hlimit).mp
          ⟨base, hdecision⟩⟩
      | some slot =>
        exact .inl ⟨slot, hfound, (exists_slotDecision_some_iff hrecurrence hanchor hlater hlimit).mp
          ⟨base, hdecision⟩⟩
    · rintro ⟨recurrence, hrecurrence, ⟨slot, hslot, hnext⟩ | ⟨hnone, hpending⟩⟩
      · obtain ⟨base, hdecision⟩ :=
          (exists_slotDecision_some_iff hrecurrence hanchor hlater hlimit).mpr hnext
        exact ⟨base, some slot,
          (scheduledSlot_eq_ok_iff_findsSlot hanchor hspan hrecurrence).mpr hslot, hdecision⟩
      · obtain ⟨base, hdecision⟩ :=
          (exists_slotDecision_none_iff hrecurrence hanchor hlimit).mpr hpending
        exact ⟨base, none,
          (scheduledSlot_eq_ok_iff_findsSlot hanchor hspan hrecurrence).mpr hnone, hdecision⟩

/-- **A decision says due exactly if there is a slot to run**, and it names that slot. -/
theorem sourceScheduleDecision_isDue_iff
    (h : sourceScheduleDecision env reader clock sync runs now = .ok decision) :
    (decision.isDue = true ↔ ¬ Idle env sync ∧ ∃ (recurrence : Recurrence) (slot : Instant),
      recurrence.IsOf sync.schedule ∧ recurrence.IsDue anchor sync runs now slot) ∧
    ∀ (recurrence : Recurrence) (slot : Instant), decision.isDue = true →
      recurrence.IsOf sync.schedule → recurrence.IsDue anchor sync runs now slot →
        decision.slotStart = some (iso slot) ∧
          decision.idempotencyKey = some (schedulerIdempotencyKey sync.syncName slot) := by
  obtain ⟨base, hbase, health, -, rfl⟩ := sourceScheduleDecision_eq_ok_iff.mp h
  by_cases hidle : Idle env sync
  · obtain ⟨idle, hidleBase, hnotDue⟩ :=
      @baseSourceScheduleDecision_of_idle env reader clock now sync runs hidle
    obtain rfl : idle = base := Except.ok.inj (hidleBase.symm.trans hbase)
    simp [hnotDue, hidle]
  · obtain ⟨found, hfound, hdecision⟩ := (baseSourceScheduleDecision_eq_ok_iff hidle).mp hbase
    cases found with
    | none =>
      have hnotDue : ∀ (recurrence : Recurrence) (slot : Instant), recurrence.IsOf sync.schedule →
          ¬ recurrence.IsDue anchor sync runs now slot := by
        intro recurrence slot hrecurrence hdue
        have hnone := (scheduledSlot_eq_ok_iff_findsSlot hanchor hspan hrecurrence).mp hfound
        exact Nat.not_le_of_lt (hnone.1 slot hdue.isLast.holds) hdue.isLast.le
      have hfalse := slotDecision_none_eq_ok hdecision
      constructor
      · rw [hfalse]
        refine iff_of_false Bool.false_ne_true ?_
        rintro ⟨-, recurrence, slot, hrecurrence, hdue⟩
        exact hnotDue recurrence slot hrecurrence hdue
      · intro recurrence slot _ hrecurrence hdue
        exact absurd hdue (hnotDue recurrence slot hrecurrence)
    | some slot =>
      have hlast : ∀ recurrence : Recurrence, recurrence.IsOf sync.schedule →
          Instant.IsLastUpTo (recurrence.IsSlot anchor) now.elapsed slot := fun recurrence hrecurrence =>
        ((scheduledSlot_eq_ok_iff_findsSlot hanchor hspan hrecurrence).mp hfound).1
      obtain ⟨hiff, hnames⟩ := slotDecision_some_eq_ok hdecision
      constructor
      · refine hiff.trans ⟨?_, ?_⟩
        · rintro ⟨hactive, hstarted⟩
          obtain ⟨recurrence, hrecurrence⟩ := exists_recurrence_of_not_idle hnormal hidle
          exact ⟨hidle, recurrence, slot, hrecurrence, hlast recurrence hrecurrence,
            hasActiveRun_eq_false_iff.mp hactive, hasStartedSlot_eq_false_iff.mp hstarted⟩
        · rintro ⟨-, recurrence, other, hrecurrence, hdue⟩
          obtain rfl := hdue.isLast.unique (hlast recurrence hrecurrence)
          exact ⟨hasActiveRun_eq_false_iff.mpr hdue.noneActive,
            hasStartedSlot_eq_false_iff.mpr hdue.noneStarted⟩
      · intro recurrence other htrue hrecurrence hdue
        obtain rfl := hdue.isLast.unique (hlast recurrence hrecurrence)
        exact hnames htrue

/-- **What the decision on a sync is**: there is one exactly if the searches end, and it is right. -/
theorem sourceScheduleDecision_spec :
    ((∃ decision, sourceScheduleDecision env reader clock sync runs now = .ok decision) ↔
      Idle env sync ∨ ∃ recurrence : Recurrence, recurrence.IsOf sync.schedule ∧
        recurrence.Answers clock anchor sync runs now) ∧
    ∀ decision, sourceScheduleDecision env reader clock sync runs now = .ok decision →
      (decision.isDue = true ↔ ¬ Idle env sync ∧ ∃ (recurrence : Recurrence) (slot : Instant),
        recurrence.IsOf sync.schedule ∧ recurrence.IsDue anchor sync runs now slot) ∧
      ∀ (recurrence : Recurrence) (slot : Instant), decision.isDue = true →
        recurrence.IsOf sync.schedule → recurrence.IsDue anchor sync runs now slot →
          decision.slotStart = some (iso slot) ∧
            decision.idempotencyKey = some (schedulerIdempotencyKey sync.syncName slot) :=
  ⟨exists_sourceScheduleDecision_iff hnormal hanchor hspan,
    fun _ h => sourceScheduleDecision_isDue_iff hnormal hanchor hspan h⟩

end Law

end Decisions

/-! ### Schedules that come back rarely, and from long ago -/

def newYear : Instant := .midnight 2026 1 1 Minute.year2026 Minute.january Minute.day2026

def lateJanuary : Instant := .midnight 2026 1 20 Minute.year2026 Minute.january (by decide)

def firstMinute : Instant := .midnight 1 1 1 Minute.firstYear Minute.january Minute.firstDay

def syncOf (schedule : Mapping) (createdAt : String) : ManagedSync :=
  ⟨"orders", some "active", schedule, some createdAt⟩

theorem anchorOf_syncOf {schedule : Mapping} {createdAt : String} {clock : Instant} (anchor : Instant)
    (hcreated : createdAt = iso anchor) (hstart : get schedule "startAt" = .null)
    (hwhole : anchor.secondFloor = anchor) :
    anchorOf isoformatReader clock (syncOf schedule createdAt).schedule
      (syncOf schedule createdAt).createdAt = .ok anchor := by
  have hread := @parseDatetime_iso isoformatReader clock anchor
  rw [hwhole] at hread
  simp [syncOf, anchorOf, hstart, Json.isTruthy, hcreated, hread]

def daily : ManagedSync :=
  syncOf [("mode", .str "interval"), ("everySeconds", .int 86400)] "2026-01-01T00:00:00Z"

/-- Every day: midnight of the twentieth one is due. -/
theorem sourceScheduleDecision_daily :
    ∃ decision, sourceScheduleDecision noTexts isoformatReader lateJanuary daily [] lateJanuary =
      .ok decision ∧ (decision.isDue = true ↔ ¬ Idle noTexts daily ∧
        ∃ (recurrence : Recurrence) (slot : Instant), recurrence.IsOf daily.schedule ∧
          recurrence.IsDue newYear daily [] lateJanuary slot) := by
  have hnormal : normalizedSourceSchedule noTexts id isoformatReader newYear daily.schedule =
      .ok daily.schedule := by decide +kernel
  have hanchor : anchorOf isoformatReader lateJanuary daily.schedule daily.createdAt =
      .ok newYear := anchorOf_syncOf newYear (by decide +kernel) rfl rfl
  have hspan : modeText noTexts daily.schedule = "interval" →
      lateJanuary.elapsed < newYear.elapsed + 2 ^ 34 * 1000000 := by decide +kernel
  obtain ⟨-, hlaw⟩ := @sourceScheduleDecision_spec _ _ _ _ _ _ [] _ _ _ hnormal hanchor hspan
  cases hdecision : sourceScheduleDecision noTexts isoformatReader lateJanuary daily [] lateJanuary with
  | error e =>
    have hok : (sourceScheduleDecision noTexts isoformatReader lateJanuary daily []
        lateJanuary).toOption.isSome = true := by decide +kernel
    simp [hdecision, Except.toOption] at hok
  | ok decision => exact ⟨decision, rfl, (hlaw decision hdecision).1⟩

def yearly : ManagedSync :=
  syncOf [("mode", .str "cron"), ("cron", .str "0 0 1 1 *")] "2026-01-01T00:00:00Z"

def secondly : ManagedSync :=
  syncOf [("mode", .str "interval"), ("everySeconds", .int 1)] "0001-01-01T00:00:00Z"

/-- A year passes between two slots, and the search gives up after eight days. -/
theorem not_answers_yearly {recurrence : Recurrence} (h : recurrence.IsOf yearly.schedule) :
    ¬ recurrence.Answers lateJanuary newYear yearly [] lateJanuary := by
  have hmode : get yearly.schedule "mode" = .str "cron" := rfl
  have hfieldsOk : cronFields "0 0 1 1 *" = .ok ⟨[0], [0], [1], [1], [0, 1, 2, 3, 4, 5, 6, 7]⟩ := by
    decide +kernel
  cases recurrence with
  | interval seconds =>
    have hinterval := h.1
    rw [hmode] at hinterval
    exact absurd (Json.str.inj hinterval) (by decide)
  | cron fields =>
    obtain ⟨-, expression, -, hcron, -, hfields⟩ := h
    obtain rfl : "0 0 1 1 *" = expression := Json.str.inj hcron
    obtain rfl := Except.ok.inj (hfieldsOk.symm.trans hfields)
    have hnewYear : newYear.elapsed = 63902908800000000 := by decide +kernel
    have hlate : lateJanuary.elapsed = 63904550400000000 := by decide +kernel
    have hfloor : lateJanuary.minuteFloor.elapsed = 63904550400000000 := by decide +kernel
    rintro (⟨slot, ⟨hlast, hreach⟩, -⟩ | ⟨⟨hnone, -⟩, -⟩)
    · -- The first of January is not among the eight days before.
      obtain ⟨-, -, hmatch⟩ := hlast.holds
      have hle := hlast.le
      simp only [cronMatches, List.mem_singleton, Bool.and_eq_true, decide_eq_true_eq] at hmatch
      have hmonth : slot.month = 1 := by exact_mod_cast hmatch.1.2
      have hday : slot.day = 1 := by exact_mod_cast hmatch.1.1.2
      have hordinal : slot.toordinal = daysBeforeYear slot.year + 1 := by
        simp [Minute.toordinal, daysBeforeMonth, hmonth, hday]
      rw [hlate] at hle
      rw [Recurrence.SlotInReach, hfloor, maxCronLookbackMinutes, Instant.minuteLength] at hreach
      simp only [Instant.elapsed, Instant.seconds, hordinal, daysBeforeYear] at hle hreach
      have hhour := slot.hour_lt
      have hminute := slot.minute_lt
      have hsecond := slot.second_lt
      have hmicrosecond := slot.microsecond_lt
      omega
    · have hslot : (Recurrence.cron ⟨[0], [0], [1], [1], [0, 1, 2, 3, 4, 5, 6, 7]⟩).IsSlot newYear
          newYear := by
        refine ⟨le_rfl, ?_, by decide +kernel⟩
        rw [Instant.IsWholeMinute, hnewYear, Instant.minuteLength]
        decide
      have hlt := hnone newYear hslot
      omega

/-- **Both limits are reached**: the sync of a yearly schedule has no decision, and neither has any tick
with it. And an interval that is counted from half a millennium ago on is due for a future slot. -/
theorem yearly_undecided :
    normalizedSourceSchedule noTexts id isoformatReader newYear yearly.schedule =
        .ok yearly.schedule ∧
      anchorOf isoformatReader lateJanuary yearly.schedule yearly.createdAt = .ok newYear ∧
      (¬ ∃ decision, sourceScheduleDecision noTexts isoformatReader lateJanuary yearly [] lateJanuary =
        .ok decision) ∧
      (∀ syncs, (yearly, []) ∈ syncs → ¬ ∃ decisions,
        runDecisions noTexts isoformatReader lateJanuary syncs lateJanuary = .ok decisions) ∧
      normalizedSourceSchedule noTexts id isoformatReader newYear secondly.schedule =
        .ok secondly.schedule ∧
      ∃ now slot decision, now.elapsed < slot.elapsed ∧
        sourceScheduleDecision noTexts isoformatReader now secondly [] now = .ok decision ∧
          decision.isDue = true ∧ decision.slotStart = some (iso slot) := by
  have hnormal : normalizedSourceSchedule noTexts id isoformatReader newYear yearly.schedule =
      .ok yearly.schedule := by decide +kernel
  have hanchor : anchorOf isoformatReader lateJanuary yearly.schedule yearly.createdAt =
      .ok newYear := anchorOf_syncOf newYear (by decide +kernel) rfl rfl
  have hundecided : ¬ ∃ decision, sourceScheduleDecision noTexts isoformatReader lateJanuary yearly []
      lateJanuary = .ok decision := by
    rw [exists_sourceScheduleDecision_iff hnormal hanchor (fun h => absurd h (by decide +kernel))]
    rintro (hidle | ⟨recurrence, hrecurrence, hanswers⟩)
    · revert hidle
      simp only [Idle]
      decide +kernel
    · exact not_answers_yearly hrecurrence hanswers
  refine ⟨hnormal, hanchor, hundecided, ?_, by decide +kernel, ?_⟩
  · intro syncs hmem hdecisions
    have heach := exists_runDecisions_iff.mp hdecisions
    exact hundecided (heach (yearly, []) hmem)
  · -- A microsecond before the end of a second, which the duration is rounded up to.
    have hfirst : firstMinute.elapsed = 86400000000 := by decide +kernel
    have hanchor : ∀ clock, anchorOf isoformatReader clock secondly.schedule secondly.createdAt =
        .ok firstMinute := fun clock => anchorOf_syncOf firstMinute (by decide +kernel) rfl rfl
    obtain ⟨now, hnow⟩ := Instant.exists_ofElapsed_iff.mpr
      (show (Instant.minElapsed : ℤ) ≤ 86400000000 + ((2 ^ 34 + 1) * 1000000 - 1) ∧
        (86400000000 + ((2 ^ 34 + 1) * 1000000 - 1) : ℤ) < Instant.endElapsed by decide)
    obtain ⟨slot, hslot⟩ := Instant.exists_ofElapsed_iff.mpr
      (show (Instant.minElapsed : ℤ) ≤ 86400000000 + (2 ^ 34 + 1) * 1000000 ∧
        (86400000000 + (2 ^ 34 + 1) * 1000000 : ℤ) < Instant.endElapsed by decide)
    obtain ⟨next, hnext⟩ := Instant.exists_ofElapsed_iff.mpr
      (show (Instant.minElapsed : ℤ) ≤ 86400000000 + (2 ^ 34 + 2) * 1000000 ∧
        (86400000000 + (2 ^ 34 + 2) * 1000000 : ℤ) < Instant.endElapsed by decide)
    rw [Instant.ofElapsed_eq_some_iff] at hnow hslot hnext
    have hfound : scheduledSlot noTexts isoformatReader now secondly.createdAt secondly.schedule now =
        .ok (some slot) := by
      have hmode : modeText noTexts secondly.schedule = "interval" := by decide +kernel
      have hspan : (now.elapsed : ℤ) - firstMinute.elapsed = (2 ^ 34 + 1) * 1000000 - 1 := by
        rw [hnow, hfirst]
        norm_num
      have hlt : ¬ now.elapsed < firstMinute.elapsed := by omega
      rw [scheduledSlot, hmode, if_pos rfl]
      simp only [intervalSlot, positiveIntOf_of_everySeconds (rfl : everySeconds secondly.schedule =
        .int 1) one_pos, hanchor, bind_eq_ok_iff, Except.ok.injEq, exists_eq_left', if_neg hlt,
        hspan, floor_totalSeconds_roundsUp, map_eq_ok_iff, checkedPlus_eq_ok_iff,
        Option.some.injEq]
      refine ⟨slot, ?_, rfl⟩
      rw [hslot, hfirst]
      norm_num
    have hrecurrence : (Recurrence.interval 1).IsOf secondly.schedule := ⟨rfl, rfl, one_pos⟩
    have hlater : anchorOf isoformatReader now secondly.schedule none = .ok now := rfl
    have hnextInReach : ∀ anchor, (Recurrence.interval 1).NextInReach anchor slot := by
      refine fun _ => ⟨next, ?_⟩
      rw [hnext, hslot]
      norm_num
    obtain ⟨base, hbase⟩ : ∃ base, slotDecision noTexts isoformatReader now secondly [] now
        (some slot) = .ok base :=
      (exists_slotDecision_some_iff hrecurrence (hanchor now) hlater ⟨none, rfl⟩).mpr
        (hnextInReach _)
    obtain ⟨hdue, hnames⟩ := slotDecision_some_eq_ok hbase
    have htrue : base.isDue = true := hdue.mpr ⟨rfl, rfl⟩
    have hidle : ¬ Idle noTexts secondly := by
      simp only [Idle]
      decide +kernel
    obtain ⟨health, hhealth⟩ : ∃ health, sourceScheduleHealth secondly [] = .ok health :=
      exists_sourceScheduleHealth ⟨3, rfl⟩
    have hdecision := (baseSourceScheduleDecision_eq_ok_iff hidle).mpr ⟨some slot, hfound, hbase⟩
    have hbehind : now.elapsed < slot.elapsed := by omega
    exact ⟨now, slot, { base with health := some health }, hbehind,
      sourceScheduleDecision_eq_ok_iff.mpr ⟨base, hdecision, health, hhealth, rfl⟩, htrue,
      (hnames htrue).1⟩

end SourceScheduler

end FoundryLite.Schedules
